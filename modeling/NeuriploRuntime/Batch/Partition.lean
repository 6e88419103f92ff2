import Mathlib.Data.Int.ModEq
import NeuriploRuntime.Batch.Layout
import NeuriploRuntime.Batch.Slices

open neuriplo.tensor rows fallible

namespace neuriplo.batch

/-- An output of exactly as many rows as the batch, each of a size that no product
wraps. -/
structure WholeRows (batch_sizes : List Nat) (output : OutputTensor) : Prop where
  shape : output.shape ≠ []
  sound : Sound output (sumSizes batch_sizes)
  bytes : (output.bytes.length : Int) = batch_sizes.sum * rowSize output
  sizes : ∀ size ∈ batch_sizes, size < 2 ^ 63

/-- The part of an output that belongs to a request of `size` rows. -/
structure PartOf (size : Nat) (output part : OutputTensor) : Prop where
  name : part.name = output.name
  datatype : part.datatype = output.datatype
  leading : part.shape.head? = some (size : Int)
  exact : ExactBytes part

section Boundaries

variable {batch_sizes : List Nat} {output : OutputTensor} {index : Nat}

theorem sum_take_succ (hindex : index < batch_sizes.length) :
    (batch_sizes.take (index + 1)).sum = (batch_sizes.take index).sum + batch_sizes.getD index 0 := by
  rw [List.take_succ_eq_append_getElem hindex, List.sum_append, List.sum_singleton,
    List.getD_eq_getElem?_getD, List.getElem?_eq_getElem hindex, Option.getD_some]

/-- The offset of a slice, in bytes that wrap. -/
theorem sliceBytes_offset (batch_sizes : List Nat) (output : OutputTensor) (index : Nat) :
    sliceBytes output (batchOffset batch_sizes index) = wrapSize ((batch_sizes.take index).sum *
      (sliceElementCount output.shape * tensorElementSize output.datatype)) := by
  rw [sliceBytes_eq_wrapSize, batchOffset, sumSizes_eq]
  simp only [wrapSize, Nat.mod_mul_mod]

/-- A request's slice ends where the next one's starts. -/
theorem sliceEnd_eq (hindex : index < batch_sizes.length) :
    sliceEnd output (batchOffset batch_sizes index) (batch_sizes.getD index 0) =
      sliceBytes output (batchOffset batch_sizes (index + 1)) := by
  rw [sliceEnd, sliceBytes_offset, sliceBytes_offset, sum_take_succ hindex, Nat.add_mul, sliceBytes_eq_wrapSize]
  simp only [wrapSize, Nat.add_mod_mod, Nat.mod_add_mod]

/-- The slices of a sound output end where its bytes do. -/
theorem sliceBytes_whole (hshape : output.shape ≠ []) (hsound : Sound output (sumSizes batch_sizes)) :
    sliceBytes output (batchOffset batch_sizes batch_sizes.length) = output.bytes.length := by
  obtain ⟨first, rest, hcons⟩ := List.exists_cons_of_ne_nil hshape
  have hleading := hsound.leading hshape
  have hwhole := hsound.whole
  rw [hcons, List.headD_cons] at hleading
  rw [hcons, shapeElementCount_rows hcons, hleading] at hwhole
  rw [batchOffset, List.take_length, hwhole]

/-- A product of casts is the product, modulo 2^64. -/
theorem prod_castSize_emod (shape : List Int) :
    ((shape.map castSize).prod : Int) % 2 ^ 64 = shape.prod % 2 ^ 64 := by
  induction shape with
  | nil => rfl
  | cons dimension shape ih =>
    have hcast : ((castSize dimension : Nat) : Int) = dimension % 2 ^ 64 :=
      Int.toNat_of_nonneg (Int.emod_nonneg _ (by decide))
    rw [List.map_cons, List.prod_cons, List.prod_cons, Nat.cast_mul, Int.mul_emod, ih, hcast,
      Int.emod_emod_of_dvd _ (dvd_refl _), ← Int.mul_emod]

/-- The bytes of rows are the rows' size modulo `2 ^ 64`, whatever the signs of the
dimensions. -/
theorem sliceBytes_emod (output : OutputTensor) (rows : Nat) :
    (sliceBytes output rows : Int) = rows * rowSize output % 2 ^ 64 := by
  have hslice : (sliceElementCount output.shape : Int) % 2 ^ 64 = output.shape.tail.prod % 2 ^ 64 := by
    rw [sliceElementCount, foldl_wrapSize _ (by omega), Nat.one_mul, wrapSize, Int.natCast_mod, ← prod_castSize_emod]
    exact Int.emod_emod_of_dvd _ (dvd_refl _)
  rw [sliceBytes_eq_wrapSize, wrapSize, Int.natCast_mod, Nat.cast_mul, Nat.cast_mul, rowSize]
  exact Int.ModEq.mul_left _ (Int.ModEq.mul_right _ hslice)

theorem WholeRows.mul_le_mul (hwhole : WholeRows batch_sizes output) {fewer more : Nat} (hle : fewer ≤ more)
    (hmore : more ≤ batch_sizes.sum) : (fewer : Int) * rowSize output ≤ more * rowSize output := by
  cases Nat.eq_zero_or_pos batch_sizes.sum with
  | inl hnone =>
    have hequal : fewer = more := by omega
    rw [hequal]
  | inr hsome =>
    have hrow : 0 ≤ rowSize output := by
      by_contra hneg
      have hproduct := Int.mul_neg_of_pos_of_neg (show (0 : Int) < batch_sizes.sum by omega) (Int.not_le.mp hneg)
      have hbytes := hwhole.bytes
      omega
    exact Int.mul_le_mul_of_nonneg_right (by exact_mod_cast hle) hrow

/-- With whole rows a slice has as many bytes as its rows. -/
theorem WholeRows.sliceBytes_eq (hwhole : WholeRows batch_sizes output) {rows : Nat} (hrows : rows ≤ batch_sizes.sum) :
    (sliceBytes output rows : Int) = rows * rowSize output := by
  have hlength : output.bytes.length < 2 ^ 64 := by
    rw [← hwhole.sound.whole, wrapSize]
    exact Nat.mod_lt _ (by omega)
  have hbytes := hwhole.bytes
  have hnonneg := hwhole.mul_le_mul (Nat.zero_le rows) hrows
  have hle := hwhole.mul_le_mul hrows (le_refl _)
  rw [Nat.cast_zero, Int.zero_mul] at hnonneg
  rw [sliceBytes_emod]
  exact Int.emod_eq_of_lt hnonneg (by omega)

theorem sum_take_le (batch_sizes : List Nat) (index : Nat) : (batch_sizes.take index).sum ≤ batch_sizes.sum := by
  conv => rhs; rw [← List.take_append_drop index batch_sizes, List.sum_append]
  exact Nat.le_add_right _ _

/-- With whole rows a slice starts behind the rows before it. -/
theorem WholeRows.boundary_eq (hwhole : WholeRows batch_sizes output) (index : Nat) :
    (sliceBytes output (batchOffset batch_sizes index) : Int) = (batch_sizes.take index).sum * rowSize output := by
  rw [← hwhole.sliceBytes_eq (sum_take_le batch_sizes index), batchOffset, sumSizes_eq, sliceBytes_wrapSize]

/-- Each request gets its own rows of an output that has the rows of all. -/
theorem WholeRows.part (hwhole : WholeRows batch_sizes output) (hindex : index < batch_sizes.length) :
    CutsForward output (sumSizes batch_sizes) (batchOffset batch_sizes index) (batch_sizes.getD index 0) ∧
      PartOf (batch_sizes.getD index 0) output
        (splitPart output (batchOffset batch_sizes index) (batch_sizes.getD index 0)) := by
  have hsize : batch_sizes.getD index 0 < 2 ^ 63 := by
    rw [List.getD_eq_getElem?_getD, List.getElem?_eq_getElem hindex, Option.getD_some]
    exact hwhole.sizes _ (List.getElem_mem hindex)
  have hstart := hwhole.boundary_eq index
  have hnext := hwhole.boundary_eq (index + 1)
  have hlast := hwhole.boundary_eq batch_sizes.length
  rw [sliceBytes_whole hwhole.shape hwhole.sound, List.take_length] at hlast
  have hsucc := sum_take_succ hindex
  have hforward := hwhole.mul_le_mul (show (batch_sizes.take index).sum ≤ (batch_sizes.take (index + 1)).sum by omega)
    (sum_take_le batch_sizes (index + 1))
  have hinside := hwhole.mul_le_mul (sum_take_le batch_sizes (index + 1)) (le_refl _)
  have hend := @sliceEnd_eq batch_sizes output index hindex
  have hcuts : CutsForward output (sumSizes batch_sizes) (batchOffset batch_sizes index)
      (batch_sizes.getD index 0) := by
    refine ⟨⟨hwhole.sound, ?_, ?_⟩, ?_⟩ <;> omega
  obtain ⟨first, rest, hshape⟩ := List.exists_cons_of_ne_nil hwhole.shape
  have hpart : (splitPart output (batchOffset batch_sizes index) (batch_sizes.getD index 0)).shape =
      (batch_sizes.getD index 0 : Int) :: rest := by
    simp only [splitPart, hshape, List.isEmpty_cons, Bool.false_eq_true, if_false, List.set_cons_zero,
      wrapInt64_natCast hsize]
  have hlength : ((splitPart output (batchOffset batch_sizes index) (batch_sizes.getD index 0)).bytes.length : Int) =
      batch_sizes.getD index 0 * rowSize output := by
    have hrows : ((batch_sizes.take (index + 1)).sum : Int) * rowSize output =
        (batch_sizes.take index).sum * rowSize output + batch_sizes.getD index 0 * rowSize output := by
      rw [hsucc, Nat.cast_add, Int.add_mul]
    rw [splitPart, List.length_take, List.length_drop, hend]
    omega
  refine ⟨hcuts, rfl, rfl, by rw [hpart, List.head?_cons], ?_⟩
  rw [ExactBytes, hlength, hpart, List.prod_cons, rowSize, hshape, List.tail_cons, Int.mul_assoc]
  rfl

/-- An output that comes apart into the requests' rows has the rows of all. -/
theorem wholeRows_of_parts (hsome : 0 < batch_sizes.length)
    (hparts : ∀ index < batch_sizes.length,
      CutsForward output (sumSizes batch_sizes) (batchOffset batch_sizes index) (batch_sizes.getD index 0) ∧
        PartOf (batch_sizes.getD index 0) output
          (splitPart output (batchOffset batch_sizes index) (batch_sizes.getD index 0))) :
    WholeRows batch_sizes output := by
  have hshape : output.shape ≠ [] := by
    intro hnone
    have hleading := (hparts 0 hsome).2.leading
    simp [splitPart, hnone] at hleading
  have hsound := (hparts 0 hsome).1.1.toSound
  obtain ⟨first, rest, hcons⟩ := List.exists_cons_of_ne_nil hshape
  have hsizes : ∀ index < batch_sizes.length, wrapInt64 (batch_sizes.getD index 0) = batch_sizes.getD index 0 := by
    intro index hindex
    have hleading := (hparts index hindex).2.leading
    simpa [splitPart, hcons] using hleading
  have hboundary : ∀ index ≤ batch_sizes.length,
      (sliceBytes output (batchOffset batch_sizes index) : Int) = (batch_sizes.take index).sum * rowSize output := by
    intro index
    induction index with
    | zero =>
      intro _
      rw [sliceBytes_offset, List.take_zero, List.sum_nil, Nat.zero_mul, Nat.cast_zero, Int.zero_mul]
      rfl
    | succ index ih =>
      intro hindex
      obtain ⟨⟨hcuts, hforward⟩, hpart⟩ := hparts index (by omega)
      have hexact := hpart.exact
      have hfinish := hcuts.finish
      rw [sliceEnd_eq (by omega)] at hforward hfinish
      rw [ExactBytes, splitPart, List.length_take, List.length_drop, sliceEnd_eq (by omega)] at hexact
      simp only [hcons, List.isEmpty_cons, Bool.false_eq_true, if_false, List.set_cons_zero, List.prod_cons,
        hsizes index (by omega)] at hexact
      have hrows : (batch_sizes.getD index 0 : Int) * rowSize output =
          batch_sizes.getD index 0 * rest.prod * tensorElementSize output.datatype := by
        rw [rowSize, hcons, List.tail_cons, Int.mul_assoc]
      rw [sum_take_succ (by omega), Nat.cast_add, Int.add_mul, ← ih (by omega), hrows]
      omega
  refine ⟨hshape, hsound, ?_, ?_⟩
  · have hlast := hboundary batch_sizes.length (le_refl _)
    rw [sliceBytes_whole hshape hsound, List.take_length] at hlast
    exact hlast
  · intro size hmem
    obtain ⟨index, hindex, hget⟩ := List.getElem_of_mem hmem
    have hsize := hsizes index hindex
    rw [List.getD_eq_getElem?_getD, List.getElem?_eq_getElem hindex, Option.getD_some, hget] at hsize
    unfold wrapInt64 at hsize
    omega

end Boundaries

/-- Every response is ok, has one part of each output, and the parts of an output
make it up. -/
structure Partitions (batched : ExecutionResponse) (batch_sizes : List Nat) (responses : List ExecutionResponse) :
    Prop where
  parts : ∀ (index : Nat) response, responses[index]? = some response →
    response.ok = true ∧ List.Forall₂ (PartOf (batch_sizes.getD index 0)) batched.outputs response.outputs
  concat : ∀ (place : Nat) output, batched.outputs[place]? = some output →
    (responses.flatMap fun response => ((response.outputs[place]?).map (·.bytes)).getD []) = output.bytes

/-- There is a response for each request, no slice is cut backward, and the
responses either all fail or partition the batched one. -/
structure SplitsCleanly (batched : ExecutionResponse) (batch_sizes : List Nat) (requests : List ExecutionRequest) :
    Prop where
  forward : ∀ index < requests.length, ∀ taken ∈ slicesTaken (sumSizes batch_sizes) (batchOffset batch_sizes index)
    (batch_sizes.getD index 0) batched.outputs, taken.1 ≤ taken.2
  responses : ∃ responses, splitExecutionResponse batched batch_sizes requests = .ok responses ∧
    responses.length = requests.length ∧
    ((∀ response ∈ responses, response.ok = false) ∨ Partitions batched batch_sizes responses)

section Split

variable {batched : ExecutionResponse} {batch_sizes : List Nat} {requests : List ExecutionRequest}
  {responses : List ExecutionResponse} {index : Nat}

/-- Slices of whole rows are cut forward. -/
theorem forward_of_wholeRows (hwhole : ∀ output ∈ batched.outputs, WholeRows batch_sizes output)
    (hindex : index < batch_sizes.length) :
    ∀ output ∈ batched.outputs, CutsForward output (sumSizes batch_sizes) (batchOffset batch_sizes index)
      (batch_sizes.getD index 0) :=
  fun output hmem => ((hwhole output hmem).part hindex).1

/-- With whole rows a response that is split is partitioned. -/
theorem partitions_of_wholeRows (hok : batched.ok = true) (hlength : requests.length = batch_sizes.length)
    (hwhole : ∀ output ∈ batched.outputs, WholeRows batch_sizes output)
    (hsplit : splitExecutionResponse batched batch_sizes requests = .ok responses) :
    Partitions batched batch_sizes responses := by
  have hresponses : responses = (List.range requests.length).map fun index =>
      { outputs := batched.outputs.map (splitPart · (batchOffset batch_sizes index) (batch_sizes.getD index 0)) } := by
    rw [splitExecutionResponse_eq hok, @mapM_ok _ _ _ _ (fun index => ({
      outputs := batched.outputs.map (splitPart · (batchOffset batch_sizes index) (batch_sizes.getD index 0)) } :
        ExecutionResponse)), Except.ok.injEq] at hsplit
    · exact hsplit.symm
    · intro index hmem
      rw [List.mem_range] at hmem
      exact splitResponse_forward (forward_of_wholeRows hwhole (by omega))
  constructor
  · intro index response hget
    obtain ⟨hindex, hresponse⟩ := (splitExecutionResponse_get hok hsplit).mp hget
    rw [splitResponse_forward (forward_of_wholeRows hwhole (by omega)), Except.ok.injEq] at hresponse
    rw [← hresponse, List.forall₂_map_right_iff, List.forall₂_same]
    exact ⟨rfl, fun output hmem => ((hwhole output hmem).part (by omega)).2⟩
  · intro place output hplace
    have hmem := List.mem_of_getElem? hplace
    have hcuts : ∀ index ∈ List.range requests.length,
        (((batched.outputs.map (splitPart · (batchOffset batch_sizes index)
          (batch_sizes.getD index 0)))[place]?).map (·.bytes)).getD [] =
          (output.bytes.drop (sliceBytes output (batchOffset batch_sizes index))).take
            (sliceBytes output (batchOffset batch_sizes (index + 1)) -
              sliceBytes output (batchOffset batch_sizes index)) := by
      intro index hindex
      rw [List.mem_range] at hindex
      rw [List.getElem?_map, hplace, ← sliceEnd_eq (show index < batch_sizes.length by omega)]
      rfl
    have hzero : sliceBytes output (batchOffset batch_sizes 0) = 0 := by
      rw [sliceBytes_offset, List.take_zero, List.sum_nil, Nat.zero_mul]
      rfl
    rw [hresponses, List.flatMap_map, List.flatMap_congr hcuts,
      @flatMap_cuts _ _ _ (fun index => sliceBytes output (batchOffset batch_sizes index)) hzero, hlength,
      sliceBytes_whole (hwhole output hmem).shape (hwhole output hmem).sound, List.take_length]
    intro index hindex
    have hforward := ((hwhole output hmem).part (show index < batch_sizes.length by omega)).1.2
    rw [sliceEnd_eq (by omega)] at hforward
    exact hforward

/-- A split is clean exactly when a check stops it for every request, or each
output has the rows of all requests and no size of it wraps. -/
theorem splits_cleanly_iff (hok : batched.ok = true) (hlength : requests.length = batch_sizes.length) :
    SplitsCleanly batched batch_sizes requests ↔
      (∀ index < requests.length, Stops batched.outputs (sumSizes batch_sizes) (batchOffset batch_sizes index)
        (batch_sizes.getD index 0)) ∨ ∀ output ∈ batched.outputs, WholeRows batch_sizes output := by
  have hresponse {responses : List ExecutionResponse}
      (hsplit : splitExecutionResponse batched batch_sizes requests = .ok responses) {index : Nat}
      (hindex : index < requests.length) :
      ∃ response, responses[index]? = some response ∧ splitResponse batched batch_sizes index = .ok response := by
    rw [← splitExecutionResponse_length hsplit] at hindex
    have hget := List.getElem?_eq_getElem hindex
    exact ⟨_, hget, ((splitExecutionResponse_get hok hsplit).mp hget).2⟩
  constructor
  · rintro ⟨hforward, responses, hsplit, -, hfailed | hparts⟩
    · left
      intro index hindex
      obtain ⟨response, hget, hpart⟩ := hresponse hsplit hindex
      have hnot := hfailed response (List.mem_of_getElem? hget)
      obtain ⟨-, hparts⟩ | ⟨hstops, -⟩ | ⟨-, hthrew⟩ := splitResponse_cases batched batch_sizes index
      · rw [hpart, Except.ok.injEq] at hparts
        rw [hparts] at hnot
        cases hnot
      · exact hstops
      · rw [hpart] at hthrew
        cases hthrew
    · by_cases hnone : requests.length = 0
      · left
        intro index hindex
        omega
      · right
        intro output hmem
        apply wholeRows_of_parts (by omega)
        intro index hindex
        obtain ⟨response, hget, hpart⟩ := hresponse hsplit (show index < requests.length by omega)
        obtain ⟨hanswered, hforall⟩ := hparts.parts index _ hget
        obtain ⟨hcuts, hequal⟩ | ⟨-, failure, hequal, hfailed⟩ | ⟨-, hthrew⟩ :=
          splitResponse_cases batched batch_sizes index
        · rw [hpart, Except.ok.injEq] at hequal
          rw [hequal, List.forall₂_map_right_iff, List.forall₂_same] at hforall
          exact ⟨hcuts output hmem, hforall output hmem⟩
        · rw [hpart, Except.ok.injEq] at hequal
          rw [hequal, hfailed] at hanswered
          cases hanswered
        · rw [hpart] at hthrew
          cases hthrew
  · intro hclean
    have hforward : ∀ index < requests.length, ∀ taken ∈ slicesTaken (sumSizes batch_sizes)
        (batchOffset batch_sizes index) (batch_sizes.getD index 0) batched.outputs, taken.1 ≤ taken.2 := by
      intro index hindex
      obtain hstops | hwhole := hclean
      · exact slicesTaken_stops (hstops index hindex)
      · exact slicesTaken_forward (forward_of_wholeRows hwhole (by omega))
    obtain ⟨responses, hsplit⟩ : ∃ responses, splitExecutionResponse batched batch_sizes requests = .ok responses := by
      rw [splitExecutionResponse_eq hok, mapM_isOk]
      intro index hmem
      exact splitResponse_isOk.mpr (hforward index (List.mem_range.mp hmem))
    refine ⟨hforward, responses, hsplit, splitExecutionResponse_length hsplit, ?_⟩
    obtain hstops | hwhole := hclean
    · left
      intro response hmem
      obtain ⟨index, hget⟩ := List.getElem?_of_mem hmem
      obtain ⟨hindex, hpart⟩ := (splitExecutionResponse_get hok hsplit).mp hget
      obtain ⟨hcuts, -⟩ | ⟨-, failure, hequal, hfailed⟩ | ⟨-, hthrew⟩ := splitResponse_cases batched batch_sizes index
      · exact absurd (hstops index hindex) (not_stops hcuts)
      · rw [hpart, Except.ok.injEq] at hequal
        rw [hequal, hfailed]
      · rw [hpart] at hthrew
        cases hthrew
    · exact .inr (partitions_of_wholeRows hok hlength hwhole hsplit)

end Split

/-- Three rows of two bytes for a request of one row and one of two. -/
theorem splits_cleanly_rows :
    SplitsCleanly { outputs := [{ name := "y", datatype := "UINT8", shape := [3, 2], bytes := [1, 2, 3, 4, 5, 6] }] }
      [1, 2] [{}, {}] := by
  refine (splits_cleanly_iff rfl rfl).mpr (.inr ?_)
  intro output hmem
  rw [List.mem_singleton.mp hmem]
  exact ⟨by decide, by decide +kernel, by decide +kernel, by decide⟩

/-- A scalar goes to the request without rows and is refused to the one with. -/
theorem scalar_splits_unevenly :
    ¬ SplitsCleanly { outputs := [{ name := "y", datatype := "FP32", shape := [] }] } [0, 1] [{}, {}] := by
  have hresponses : splitExecutionResponse { outputs := [{ name := "y", datatype := "FP32", shape := [] }] } [0, 1]
      [{}, {}] = .ok [{ outputs := [{ name := "y", datatype := "FP32", shape := [] }] },
        splitFailure "batched output size mismatch"] := by
    decide +kernel
  intro hclean
  obtain ⟨responses, hsplit, -, hclean⟩ := hclean.responses
  rw [hresponses, Except.ok.injEq] at hsplit
  subst hsplit
  cases hclean with
  | inl hfailed =>
    have hfirst := hfailed _ List.mem_cons_self
    cases hfirst
  | inr hparts =>
    have hsecond := (hparts.parts 1 _ rfl).1
    cases hsecond

end neuriplo.batch
