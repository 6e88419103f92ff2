import NeuriploRuntime.Batch.Splitting

open neuriplo.tensor rows

namespace neuriplo.batch

theorem Aligned.rowCount_eq {request : ExecutionRequest} {count : Nat} (haligned : Aligned request count) :
    rowCount request = count := by
  rw [rowCount, haligned.requestBatchSize_eq, Int.toNat_natCast]

theorem rowBytes_tensorRows (tensor : InputTensor) (start count : Nat) :
    rowBytes (tensorRows tensor start count) = rowBytes tensor := by
  cases hshape : tensor.shape with
  | nil => simp [rowBytes, rowElements, tensorRows, hshape]
  | cons first rest => simp [rowBytes, rowElements, tensorRows, hshape]

section Rows

variable {request other : ExecutionRequest} {total start count : Nat}

/-- Rows of a filled tensor are filled. -/
theorem Filled.tensorRows {tensor : InputTensor} (hfilled : Filled tensor)
    (hleading : tensor.shape.head? = some (total : Int)) (hinside : start + count ≤ total) :
    Filled (tensorRows tensor start count) := by
  obtain ⟨rest, hshape⟩ := List.head?_eq_some_iff.mp hleading
  have hset : tensor.shape.set 0 (count : Int) = (count : Int) :: rest := by
    rw [hshape, List.set_cons_zero]
  have hnonneg : ∀ dimension ∈ rest, 0 ≤ dimension := by
    intro dimension hmem
    apply hfilled.nonneg
    rw [hshape]
    exact List.mem_cons_of_mem _ hmem
  have hrow : (rowElements tensor.shape : Int) = rest.prod := by
    rw [rowElements_eq hfilled.nonneg, hshape, List.tail_cons]
  constructor
  · intro dimension hmem
    rw [batch.tensorRows, hset] at hmem
    cases List.mem_cons.mp hmem with
    | inl hequal =>
      rw [hequal]
      exact Int.natCast_nonneg count
    | inr htail => exact hnonneg dimension htail
  · have hroom : (start + count) * rowBytes tensor ≤ tensor.bytes.length := by
      have hrows := hfilled.rows_le hleading
      have hle := Nat.mul_le_mul_right (rowBytes tensor) hinside
      omega
    have hcount : tensorElementCount tensor.datatype (slice (rowBytes tensor) start count tensor.bytes) =
        count * rowElements tensor.shape := by
      by_cases hunknown : tensorElementSize tensor.datatype = 0
      · have hwhole := hfilled.count_rows hleading
        rw [tensorElementCount, if_pos hunknown] at hwhole ⊢
        cases Nat.mul_eq_zero.mp hwhole.symm with
        | inl hnone =>
          have hcount : count = 0 := by omega
          rw [hcount, Nat.zero_mul]
        | inr hnone => rw [hnone, Nat.mul_zero]
      · rw [tensorElementCount, if_neg hunknown, length_slice hroom, rowBytes, ← Nat.mul_assoc,
          Nat.mul_div_cancel _ (Nat.pos_of_ne_zero hunknown)]
    rw [batch.tensorRows, hset, List.prod_cons, ← hrow]
    exact_mod_cast hcount

/-- Rows of an aligned request are aligned. -/
theorem Aligned.requestRows (haligned : Aligned request total) (hinside : start + count ≤ total) :
    Aligned (requestRows request start count) count := by
  have hbounded := haligned.bounded
  constructor
  · omega
  · exact haligned.params
  · intro hnone
    exact haligned.nonempty (List.map_eq_nil_iff.mp hnone)
  · intro part hmem
    obtain ⟨input, hinput, rfl⟩ := List.mem_map.mp hmem
    obtain ⟨rest, hshape⟩ := List.head?_eq_some_iff.mp (haligned.leading input hinput)
    rw [tensorRows, hshape, List.set_cons_zero, List.head?_cons]
  · intro part hmem
    obtain ⟨input, hinput, rfl⟩ := List.mem_map.mp hmem
    exact (haligned.filled input hinput).tensorRows (haligned.leading input hinput) hinside

theorem SameCall.symm (hsame : SameCall request other) : SameCall other request :=
  ⟨hsame.inputs.symm, hsame.requested_outputs.symm, hsame.llm_params.symm⟩

theorem SameCall.trans {third : ExecutionRequest} (hsame : SameCall request other) (hthird : SameCall other third) :
    SameCall request third :=
  ⟨hsame.inputs.trans hthird.inputs, hsame.requested_outputs.trans hthird.requested_outputs,
    hsame.llm_params.trans hthird.llm_params⟩

/-- Requests that cannot be told apart are aligned alike. -/
theorem SameCall.aligned (hsame : SameCall request other) (haligned : Aligned request count) : Aligned other count := by
  constructor
  · exact haligned.bounded
  · rw [← hsame.llm_params]
    exact haligned.params
  · intro hnone
    exact haligned.nonempty (List.perm_nil.mp (hnone ▸ hsame.inputs))
  · intro input hmem
    exact haligned.leading input (hsame.inputs.mem_iff.mpr hmem)
  · intro input hmem
    exact haligned.filled input (hsame.inputs.mem_iff.mpr hmem)

theorem SameCall.aligned_iff (hsame : SameCall request other) :
    Aligned request (rowCount request) ↔ Aligned other (rowCount other) := by
  constructor
  · intro haligned
    have hother := hsame.aligned haligned
    rw [hother.rowCount_eq]
    exact hother
  · intro haligned
    have hrequest := hsame.symm.aligned haligned
    rw [hrequest.rowCount_eq]
    exact hrequest

/-- Requests that cannot be told apart have the same inputs. -/
theorem SameCall.findInputByName (hsame : SameCall request other) (hnames : (request.inputs.map (·.name)).Nodup)
    (name : String) : findInputByName request name = findInputByName other name := by
  cases hfind : batch.findInputByName request name with
  | none =>
    symm
    apply List.find?_eq_none.mpr
    intro input hmem
    exact List.find?_eq_none.mp hfind input (hsame.inputs.mem_iff.mpr hmem)
  | some input =>
    obtain ⟨hmem, rfl⟩ := findInputByName_some hfind
    have hother := (hsame.inputs.map (·.name)).nodup_iff.mp hnames
    rw [findInputByName_of_mem hother (hsame.inputs.mem_iff.mp hmem)]

end Rows

/-- One where a row of the input with a name is the pattern. -/
def rowMatches (name : String) (pattern : List UInt8) (request : ExecutionRequest) (row : Nat) : UInt8 :=
  match findInputByName request name with
  | none => 0
  | some input => if slice (rowBytes input) row 1 input.bytes = pattern then 1 else 0

def probeOutput (name : String) (pattern : List UInt8) (request : ExecutionRequest) : OutputTensor where
  name := "probe"
  datatype := "UINT8"
  shape := [(rowCount request : Int)]
  bytes := (List.range (rowCount request)).map (rowMatches name pattern request)

open Classical in
/-- An executor that tells the rows with a pattern from the others. Of the calls
that it rejects it tells one from the others. -/
noncomputable def probe (name : String) (pattern : List UInt8) (marked request : ExecutionRequest) :
    ExecutionResponse :=
  if Aligned request (rowCount request) then { outputs := [probeOutput name pattern request] }
  else { ok := false, error_message := if SameCall request marked then "marked" else "" }

section Probe

variable {name : String} {pattern : List UInt8} {marked request : ExecutionRequest} {total start count : Nat}

/-- What a probe answers to an aligned request. -/
theorem probe_aligned (haligned : Aligned request (rowCount request)) :
    probe name pattern marked request = { outputs := [probeOutput name pattern request] } := by
  rw [probe, if_pos haligned]

/-- A probe answers exactly the aligned requests. -/
theorem probe_ok_iff : (probe name pattern marked request).ok = true ↔ Aligned request (rowCount request) := by
  unfold probe
  split
  · rename_i haligned
    exact iff_of_true rfl haligned
  · rename_i hnot
    exact iff_of_false (by simp) hnot

/-- A row matches in a part as it does in the whole. -/
theorem rowMatches_requestRows {row : Nat} (hrow : row < count) :
    rowMatches name pattern (requestRows request start count) row = rowMatches name pattern request (start + row) := by
  have hfind : findInputByName (requestRows request start count) name =
      (findInputByName request name).map (tensorRows · start count) := by
    rw [findInputByName, requestRows, List.find?_map]
    rfl
  rw [rowMatches, rowMatches, hfind]
  cases findInputByName request name with
  | none => rfl
  | some input =>
    simp only [Option.map_some, rowBytes_tensorRows]
    rw [tensorRows, slice_slice (show row + 1 ≤ count by omega)]

theorem rowBytes_probeOutput : rowBytes (probeOutput name pattern request) = 1 := by
  rw [rowBytes, rowElements]
  rfl

/-- A probe answers with a byte for each row. -/
theorem length_probeOutput : (probeOutput name pattern request).bytes.length = rowCount request := by
  rw [probeOutput, List.length_map, List.length_range]

/-- A probe of some rows is these rows of the probe. -/
theorem probe_requestRows (haligned : Aligned request total) (hinside : start + count ≤ total) :
    probe name pattern marked (requestRows request start count) =
      responseRows (probe name pattern marked request) start count := by
  have hpart := haligned.requestRows hinside
  have htotal := haligned.rowCount_eq
  have hbytes : slice 1 start count ((List.range total).map (rowMatches name pattern request)) =
      (List.range count).map (rowMatches name pattern (requestRows request start count)) := by
    rw [slice_range _ hinside]
    apply List.map_congr_left
    intro row hrow
    rw [rowMatches_requestRows (List.mem_range.mp hrow)]
  rw [probe_aligned (by rw [hpart.rowCount_eq]; exact hpart), probe_aligned (by rw [htotal]; exact haligned)]
  simp only [responseRows, if_true, List.map_cons, List.map_nil, tensorRows, rowBytes_probeOutput]
  simp only [probeOutput, hpart.rowCount_eq, htotal, hbytes, List.set_cons_zero]
  simp [slice]

/-- The probe has a row for each of a request. -/
theorem probeOutput_rowed (haligned : Aligned request (rowCount request)) :
    Rowed (rowCount request) (probeOutput name pattern request) := by
  refine ⟨rfl, ?_, ?_, ?_, rfl⟩
  · intro dimension hmem
    rw [List.mem_singleton.mp hmem]
    exact Int.natCast_nonneg _
  · rw [length_probeOutput, rowBytes_probeOutput, Nat.mul_one]
  · rw [length_probeOutput]
    exact haligned.bounded

theorem probeOutput_sized (name : String) (pattern : List UInt8) (request : ExecutionRequest) :
    SizedRows (probeOutput name pattern request) := by
  have hknown : tensorElementSize "UINT8" ≠ 0 := by
    decide
  refine ⟨hknown, ?_⟩
  rw [sliceElementCount_eq]
  exact of_decide_eq_true rfl

/-- The outputs of a probe are sized. -/
theorem probe_outputs_sized {output : OutputTensor} (hmem : output ∈ (probe name pattern marked request).outputs) :
    SizedRows output := by
  unfold probe at hmem
  split at hmem
  · rw [List.mem_singleton.mp hmem]
    exact probeOutput_sized name pattern request
  · cases hmem

/-- The probe is row-wise on any number of rows. -/
theorem probe_rowWise (name : String) (pattern : List UInt8) (marked : ExecutionRequest) :
    RowWise (probe name pattern marked) (fun _ => True) := by
  constructor
  · intro request hunfilled
    obtain ⟨input, hmem, hnot⟩ := hunfilled
    rw [← Bool.not_eq_true, probe_ok_iff]
    intro haligned
    exact hnot (haligned.filled input hmem)
  · intro request other hnames hsame
    have hmarked : SameCall request marked ↔ SameCall other marked := ⟨hsame.symm.trans, hsame.trans⟩
    by_cases haligned : Aligned request (rowCount request)
    · have hcount : rowCount other = rowCount request := (hsame.aligned haligned).rowCount_eq
      have hrow : rowMatches name pattern request = rowMatches name pattern other := by
        funext row
        rw [rowMatches, rowMatches, hsame.findInputByName hnames]
      rw [probe_aligned haligned, probe_aligned (hsame.aligned_iff.mp haligned), probeOutput, probeOutput, hcount, hrow]
    · have hother : ¬ Aligned other (rowCount other) := fun hnot => haligned (hsame.aligned_iff.mpr hnot)
      rw [probe, probe, if_neg haligned, if_neg hother]
      by_cases hmark : SameCall request marked
      · rw [if_pos hmark, if_pos (hmarked.mp hmark)]
      · rw [if_neg hmark, if_neg (mt hmarked.mpr hmark)]
  · intro request count haligned _ _
    obtain rfl := haligned.rowCount_eq
    refine ⟨[probeOutput name pattern request], probe_aligned haligned, ?_⟩
    intro output hmem
    rw [List.mem_singleton.mp hmem]
    exact probeOutput_rowed haligned
  · intro request total start count haligned _ _ hinside
    exact probe_requestRows haligned hinside

end Probe

end neuriplo.batch
