import Mathlib.Algebra.BigOperators.Group.List.Basic
import NeuriploRuntime.Batch.DynamicBatcher

open neuriplo.tensor fallible

namespace neuriplo.batch

/-- The bytes of some rows of an output, as `size_t` counts them. -/
def sliceBytes (output : OutputTensor) (rows : Nat) : Nat :=
  wrapSize (wrapSize (rows * sliceElementCount output.shape) * tensorElementSize output.datatype)

/-- Where the slice of a request ends. -/
def sliceEnd (output : OutputTensor) (batch_offset request_batch : Nat) : Nat :=
  wrapSize (sliceBytes output batch_offset + sliceBytes output request_batch)

/-- The part of an output that is cut out for a request. -/
def splitPart (output : OutputTensor) (batch_offset request_batch : Nat) : OutputTensor where
  name := output.name
  datatype := output.datatype
  shape := if output.shape.isEmpty then output.shape else output.shape.set 0 (wrapInt64 request_batch)
  bytes := (output.bytes.drop (sliceBytes output batch_offset)).take
    (sliceEnd output batch_offset request_batch - sliceBytes output batch_offset)

/-- The checks that are the same for every request. -/
structure Sound (output : OutputTensor) (expected_batch_dim : Nat) : Prop where
  leading : output.shape ≠ [] → castSize (output.shape.headD 0) = expected_batch_dim
  known : tensorElementSize output.datatype ≠ 0
  whole : wrapSize (shapeElementCount output.shape * tensorElementSize output.datatype) = output.bytes.length
  sliced : sliceElementCount output.shape ≠ 0

/-- The checks that are made before a slice is cut out. -/
structure Cuts (output : OutputTensor) (expected_batch_dim batch_offset request_batch : Nat) : Prop
    extends Sound output expected_batch_dim where
  start : sliceBytes output batch_offset ≤ output.bytes.length
  finish : sliceEnd output batch_offset request_batch ≤ output.bytes.length

/-- An output is cut out from start to end. -/
def CutsForward (output : OutputTensor) (expected_batch_dim batch_offset request_batch : Nat) : Prop :=
  Cuts output expected_batch_dim batch_offset request_batch ∧
    sliceBytes output batch_offset ≤ sliceEnd output batch_offset request_batch

/-- Some output fails a check before it is cut, and those before it are cut
forward. -/
def Stops (outputs : List OutputTensor) (expected_batch_dim batch_offset request_batch : Nat) : Prop :=
  ∃ before output after, outputs = before ++ output :: after ∧
    (∀ other ∈ before, CutsForward other expected_batch_dim batch_offset request_batch) ∧
    ¬ Cuts output expected_batch_dim batch_offset request_batch

/-- The rows in front of a request's. -/
def batchOffset (batch_sizes : List Nat) (index : Nat) : Nat := sumSizes (batch_sizes.take index)

instance (output : OutputTensor) (expected_batch_dim : Nat) : Decidable (Sound output expected_batch_dim) :=
  decidable_of_iff
    ((output.shape ≠ [] → castSize (output.shape.headD 0) = expected_batch_dim) ∧
      tensorElementSize output.datatype ≠ 0 ∧
      wrapSize (shapeElementCount output.shape * tensorElementSize output.datatype) = output.bytes.length ∧
      sliceElementCount output.shape ≠ 0)
    ⟨fun ⟨leading, known, whole, sliced⟩ => ⟨leading, known, whole, sliced⟩,
      fun ⟨leading, known, whole, sliced⟩ => ⟨leading, known, whole, sliced⟩⟩

instance (output : OutputTensor) (expected_batch_dim batch_offset request_batch : Nat) :
    Decidable (Cuts output expected_batch_dim batch_offset request_batch) :=
  decidable_of_iff
    (Sound output expected_batch_dim ∧ sliceBytes output batch_offset ≤ output.bytes.length ∧
      sliceEnd output batch_offset request_batch ≤ output.bytes.length)
    ⟨fun ⟨sound, start, finish⟩ => ⟨sound, start, finish⟩, fun ⟨sound, start, finish⟩ => ⟨sound, start, finish⟩⟩

/-- The slices that are cut out for a request, from start to end: none any more
once a check fails. -/
def slicesTaken (expected_batch_dim batch_offset request_batch : Nat) : List OutputTensor → List (Nat × Nat)
  | [] => []
  | output :: outputs =>
    if Cuts output expected_batch_dim batch_offset request_batch then
      (sliceBytes output batch_offset, sliceEnd output batch_offset request_batch) ::
        match splitOutput output expected_batch_dim batch_offset request_batch with
        | .error _ => []
        | .ok _ => slicesTaken expected_batch_dim batch_offset request_batch outputs
    else []

/-- No slice that is cut out for one of the requests ends before its start. -/
def slicesForward (batched : ExecutionResponse) (batch_sizes : List Nat) (requests : Nat) : Bool :=
  (List.range requests).all fun index =>
    (slicesTaken (sumSizes batch_sizes) (batchOffset batch_sizes index) (batch_sizes.getD index 0)
      batched.outputs).all fun taken => taken.1 ≤ taken.2

/-- A product that wraps at each factor wraps as a whole. -/
theorem foldl_wrapSize (shape : List Int) {count : Nat} (hcount : count < 2 ^ 64) :
    shape.foldl (fun count dimension => wrapSize (count * castSize dimension)) count =
      wrapSize (count * (shape.map castSize).prod) := by
  induction shape generalizing count with
  | nil =>
    rw [List.foldl_nil, List.map_nil, List.prod_nil, Nat.mul_one, wrapSize, Nat.mod_eq_of_lt hcount]
  | cons dimension shape ih =>
    have hsmall : wrapSize (count * castSize dimension) < 2 ^ 64 := Nat.mod_lt _ (by omega)
    rw [List.foldl_cons, ih hsmall, List.map_cons, List.prod_cons, ← Nat.mul_assoc]
    simp only [wrapSize, Nat.mod_mul_mod]

theorem castSize_wrapInt64 (value : Nat) : castSize (wrapInt64 value) = wrapSize value := by
  unfold castSize wrapInt64 wrapSize
  omega

section Sizes

variable {output : OutputTensor}

/-- Sizes in a row: `size_t` multiplies modulo `2 ^ 64`. -/
theorem sliceBytes_eq_wrapSize (output : OutputTensor) (rows : Nat) :
    sliceBytes output rows =
      wrapSize (rows * (sliceElementCount output.shape * tensorElementSize output.datatype)) := by
  simp only [sliceBytes, wrapSize, Nat.mod_mul_mod, Nat.mul_assoc]

/-- A slice has the same bytes for rows that wrap. -/
theorem sliceBytes_wrapSize (output : OutputTensor) (rows : Nat) :
    sliceBytes output (wrapSize rows) = sliceBytes output rows := by
  simp only [sliceBytes_eq_wrapSize, wrapSize, Nat.mod_mul_mod]

/-- A shape with another leading dimension asks for the bytes of as many rows. -/
theorem shapeElementCount_rows {first : Int} {rest : List Int} (hshape : output.shape = first :: rest) (leading : Int) :
    wrapSize (shapeElementCount (leading :: rest) * tensorElementSize output.datatype) =
      sliceBytes output (castSize leading) := by
  have hrest : sliceElementCount output.shape = wrapSize (rest.map castSize).prod := by
    rw [sliceElementCount, hshape, List.tail_cons, foldl_wrapSize _ (by omega), Nat.one_mul]
  have hcount : shapeElementCount (leading :: rest) = wrapSize (castSize leading * (rest.map castSize).prod) := by
    simp only [shapeElementCount, List.isEmpty_cons, Bool.false_eq_true, if_false]
    rw [foldl_wrapSize _ (by omega), Nat.one_mul, List.map_cons, List.prod_cons]
  rw [hcount, sliceBytes, hrest]
  simp only [wrapSize, Nat.mod_mul_mod, Nat.mul_mod_mod]

end Sizes

section Output

variable {output part : OutputTensor} {expected_batch_dim batch_offset request_batch : Nat}

/-- What becomes of an output that is cut. -/
theorem splitOutput_eq (output : OutputTensor) (expected_batch_dim batch_offset request_batch : Nat) :
    splitOutput output expected_batch_dim batch_offset request_batch =
      if !output.shape.isEmpty && castSize (output.shape.headD 0) ≠ expected_batch_dim then
        .error (.failed (splitFailure "batched output batch dimension mismatch"))
      else if tensorElementSize output.datatype = 0 ||
          wrapSize (shapeElementCount output.shape * tensorElementSize output.datatype) ≠ output.bytes.length then
        .error (.failed (splitFailure "batched output data size mismatch"))
      else if sliceElementCount output.shape = 0 then
        .error (.failed (splitFailure "batched output slice size mismatch"))
      else if output.bytes.length < sliceBytes output batch_offset ||
          output.bytes.length < sliceEnd output batch_offset request_batch then
        .error (.failed (splitFailure "batched output size mismatch"))
      else if sliceEnd output batch_offset request_batch < sliceBytes output batch_offset then .error (.threw .thrown)
      else if wrapSize (shapeElementCount (splitPart output batch_offset request_batch).shape *
          tensorElementSize output.datatype) ≠ (splitPart output batch_offset request_batch).bytes.length then
        .error (.failed (splitFailure "batched output slice data size mismatch"))
      else .ok (splitPart output batch_offset request_batch) := rfl

/-- A slice that is cut forward is of the size its shape asks for, so the last
check never fails. -/
theorem CutsForward.part_size (hforward : CutsForward output expected_batch_dim batch_offset request_batch) :
    wrapSize (shapeElementCount (splitPart output batch_offset request_batch).shape *
      tensorElementSize output.datatype) = (splitPart output batch_offset request_batch).bytes.length := by
  obtain ⟨hcuts, hle⟩ := hforward
  have hlength : (splitPart output batch_offset request_batch).bytes.length =
      sliceEnd output batch_offset request_batch - sliceBytes output batch_offset := by
    have hfinish := hcuts.finish
    rw [splitPart, List.length_take, List.length_drop]
    omega
  rw [hlength]
  cases hshape : output.shape with
  | nil =>
    have hwhole := hcuts.whole
    have hfinish := hcuts.finish
    have hnone : wrapSize (shapeElementCount output.shape * tensorElementSize output.datatype) = 0 := by
      rw [hshape, shapeElementCount, List.isEmpty_nil, if_pos rfl, Nat.zero_mul]
      rfl
    simp only [splitPart, hshape, List.isEmpty_nil, if_true]
    rw [← hshape, hnone]
    omega
  | cons first rest =>
    have hspan : sliceBytes output request_batch < 2 ^ 64 := by
      rw [sliceBytes, wrapSize]
      exact Nat.mod_lt _ (by omega)
    have hend : sliceEnd output batch_offset request_batch - sliceBytes output batch_offset =
        sliceBytes output request_batch := by
      rw [sliceEnd, wrapSize] at hle ⊢
      omega
    simp only [splitPart, hshape, List.isEmpty_cons, Bool.false_eq_true, if_false, List.set_cons_zero]
    rw [shapeElementCount_rows hshape, castSize_wrapInt64, sliceBytes_wrapSize, hend]

/-- What becomes of an output: a check fails, the slice is backward, or it is cut
out. -/
theorem splitOutput_cases (output : OutputTensor) (expected_batch_dim batch_offset request_batch : Nat) :
    (¬ Cuts output expected_batch_dim batch_offset request_batch ∧
      ∃ response, splitOutput output expected_batch_dim batch_offset request_batch = .error (.failed response) ∧
        response.ok = false ∧ response.error_code = "BACKEND_ERROR") ∨
    (Cuts output expected_batch_dim batch_offset request_batch ∧
      sliceEnd output batch_offset request_batch < sliceBytes output batch_offset ∧
      splitOutput output expected_batch_dim batch_offset request_batch = .error (.threw .thrown)) ∨
    (CutsForward output expected_batch_dim batch_offset request_batch ∧
      splitOutput output expected_batch_dim batch_offset request_batch =
        .ok (splitPart output batch_offset request_batch)) := by
  rw [splitOutput_eq]
  by_cases hcuts : Cuts output expected_batch_dim batch_offset request_batch
  · right
    rw [if_neg, if_neg, if_neg hcuts.sliced, if_neg]
    · by_cases hforward : sliceBytes output batch_offset ≤ sliceEnd output batch_offset request_batch
      · have hpart := CutsForward.part_size ⟨hcuts, hforward⟩
        rw [if_neg (Nat.not_lt.mpr hforward), if_neg (not_not.mpr hpart)]
        exact .inr ⟨⟨hcuts, hforward⟩, rfl⟩
      · rw [if_pos (Nat.not_le.mp hforward)]
        exact .inl ⟨hcuts, Nat.not_le.mp hforward, rfl⟩
    · simp [hcuts.start, hcuts.finish]
    · simp [hcuts.known, hcuts.whole]
    · rw [Bool.and_eq_true, Bool.not_eq_true', List.isEmpty_eq_false_iff, decide_eq_true_eq]
      rintro ⟨hshape, hother⟩
      exact hother (hcuts.leading hshape)
  · left
    refine ⟨hcuts, ?_⟩
    split_ifs with hleading hdata hslice hsize
    · exact ⟨_, rfl, rfl, rfl⟩
    · exact ⟨_, rfl, rfl, rfl⟩
    · exact ⟨_, rfl, rfl, rfl⟩
    · exact ⟨_, rfl, rfl, rfl⟩
    all_goals
      refine absurd ⟨⟨?_, ?_, ?_, hslice⟩, ?_, ?_⟩ hcuts <;> simp_all

/-- An output is cut exactly when its slice lies forward inside of it. -/
theorem splitOutput_ok_iff :
    splitOutput output expected_batch_dim batch_offset request_batch = .ok part ↔
      CutsForward output expected_batch_dim batch_offset request_batch ∧
        part = splitPart output batch_offset request_batch := by
  obtain ⟨hnot, response, herror, -⟩ | ⟨-, hbackward, hthrew⟩ | ⟨hforward, hok⟩ :=
    splitOutput_cases output expected_batch_dim batch_offset request_batch
  · rw [herror]
    exact iff_of_false nofun fun ⟨hforward, _⟩ => hnot hforward.1
  · rw [hthrew]
    exact iff_of_false nofun fun ⟨hforward, _⟩ => Nat.not_le.mpr hbackward hforward.2
  · rw [hok, Except.ok.injEq, eq_comm]
    exact (and_iff_right hforward).symm

end Output

section Outputs

variable {output : OutputTensor} {outputs : List OutputTensor} {expected_batch_dim batch_offset request_batch : Nat}

/-- Cutting stops at an output when it fails there, or behind it. -/
theorem stops_cons : Stops (output :: outputs) expected_batch_dim batch_offset request_batch ↔
    ¬ Cuts output expected_batch_dim batch_offset request_batch ∨
      (CutsForward output expected_batch_dim batch_offset request_batch ∧
        Stops outputs expected_batch_dim batch_offset request_batch) := by
  constructor
  · rintro ⟨before, stopped, after, hsplit, hbefore, hstopped⟩
    cases before with
    | nil =>
      rw [List.nil_append, List.cons.injEq] at hsplit
      exact .inl (hsplit.1 ▸ hstopped)
    | cons first before =>
      rw [List.cons_append, List.cons.injEq] at hsplit
      obtain ⟨hfirst, hrest⟩ := List.forall_mem_cons.mp hbefore
      exact .inr ⟨hsplit.1 ▸ hfirst, before, stopped, after, hsplit.2, hrest, hstopped⟩
  · rintro (hstopped | ⟨hfirst, before, stopped, after, rfl, hbefore, hstopped⟩)
    · exact ⟨[], output, outputs, rfl, by simp, hstopped⟩
    · exact ⟨output :: before, stopped, after, rfl, List.forall_mem_cons.mpr ⟨hfirst, hbefore⟩, hstopped⟩

/-- What becomes of the outputs of a response: all are cut out, a check stops it,
or a slice is backward. -/
theorem splitOutputs_cases (outputs : List OutputTensor) (expected_batch_dim batch_offset request_batch : Nat) :
    ((∀ output ∈ outputs, CutsForward output expected_batch_dim batch_offset request_batch) ∧
      (∀ taken ∈ slicesTaken expected_batch_dim batch_offset request_batch outputs, taken.1 ≤ taken.2) ∧
      outputs.mapM (fun output => splitOutput output expected_batch_dim batch_offset request_batch) =
        .ok (outputs.map (splitPart · batch_offset request_batch))) ∨
    (Stops outputs expected_batch_dim batch_offset request_batch ∧
      (∀ taken ∈ slicesTaken expected_batch_dim batch_offset request_batch outputs, taken.1 ≤ taken.2) ∧
      ∃ response, outputs.mapM (fun output => splitOutput output expected_batch_dim batch_offset request_batch) =
        .error (.failed response) ∧ response.ok = false) ∨
    ((∃ taken ∈ slicesTaken expected_batch_dim batch_offset request_batch outputs, taken.2 < taken.1) ∧
      outputs.mapM (fun output => splitOutput output expected_batch_dim batch_offset request_batch) =
        .error (.threw .thrown)) := by
  induction outputs with
  | nil => exact .inl ⟨by simp, by simp [slicesTaken], rfl⟩
  | cons output outputs ih =>
    rw [List.mapM_cons, slicesTaken, stops_cons]
    obtain ⟨hnot, response, herror, hfailed, -⟩ | ⟨hcuts, hbackward, hthrew⟩ | ⟨hforward, hok⟩ :=
      splitOutput_cases output expected_batch_dim batch_offset request_batch
    · rw [if_neg hnot, herror]
      exact .inr (.inl ⟨.inl hnot, by simp, response, rfl, hfailed⟩)
    · rw [if_pos hcuts, hthrew]
      exact .inr (.inr ⟨⟨_, List.mem_cons_self, hbackward⟩, rfl⟩)
    · rw [if_pos hforward.1, hok]
      obtain ⟨hrest, hslices, hmap⟩ | ⟨hstops, hslices, response, hmap, hfailed⟩ | ⟨⟨taken, hmem, hlt⟩, hmap⟩ := ih
      · rw [hmap]
        exact .inl ⟨List.forall_mem_cons.mpr ⟨hforward, hrest⟩, List.forall_mem_cons.mpr ⟨hforward.2, hslices⟩, rfl⟩
      · rw [hmap]
        exact .inr (.inl ⟨.inr ⟨hforward, hstops⟩, List.forall_mem_cons.mpr ⟨hforward.2, hslices⟩, response, rfl,
          hfailed⟩)
      · rw [hmap]
        exact .inr (.inr ⟨⟨taken, List.mem_cons_of_mem _ hmem, hlt⟩, rfl⟩)

/-- Outputs that are cut forward are cut forward in every slice taken. -/
theorem slicesTaken_forward (hforward : ∀ output ∈ outputs, CutsForward output expected_batch_dim batch_offset
      request_batch) :
    ∀ taken ∈ slicesTaken expected_batch_dim batch_offset request_batch outputs, taken.1 ≤ taken.2 := by
  induction outputs with
  | nil => nofun
  | cons output outputs ih =>
    obtain ⟨hfirst, hrest⟩ := List.forall_mem_cons.mp hforward
    rw [slicesTaken, if_pos hfirst.1, splitOutput_ok_iff.mpr ⟨hfirst, rfl⟩]
    exact List.forall_mem_cons.mpr ⟨hfirst.2, ih hrest⟩

/-- Outputs in front of the one that stops are cut forward. -/
theorem slicesTaken_stops (hstops : Stops outputs expected_batch_dim batch_offset request_batch) :
    ∀ taken ∈ slicesTaken expected_batch_dim batch_offset request_batch outputs, taken.1 ≤ taken.2 := by
  induction outputs with
  | nil => nofun
  | cons output outputs ih =>
    rw [slicesTaken]
    cases stops_cons.mp hstops with
    | inl hstopped =>
      rw [if_neg hstopped]
      nofun
    | inr hlater =>
      rw [if_pos hlater.1.1, splitOutput_ok_iff.mpr ⟨hlater.1, rfl⟩]
      exact List.forall_mem_cons.mpr ⟨hlater.1.2, ih hlater.2⟩

/-- Outputs that are cut forward do not stop. -/
theorem not_stops (hforward : ∀ output ∈ outputs, CutsForward output expected_batch_dim batch_offset request_batch) :
    ¬ Stops outputs expected_batch_dim batch_offset request_batch := by
  rintro ⟨before, output, after, rfl, -, hnot⟩
  exact hnot (hforward output (by simp)).1

end Outputs

section Response

variable {batched : ExecutionResponse} {batch_sizes : List Nat} {requests : List ExecutionRequest} {index : Nat}

/-- What a request gets: its parts of all outputs, the failure of a check, or no
response when one of its slices is backward. -/
theorem splitResponse_cases (batched : ExecutionResponse) (batch_sizes : List Nat) (index : Nat) :
    ((∀ output ∈ batched.outputs, CutsForward output (sumSizes batch_sizes) (batchOffset batch_sizes index)
        (batch_sizes.getD index 0)) ∧
      splitResponse batched batch_sizes index = .ok
        { outputs := batched.outputs.map (splitPart · (batchOffset batch_sizes index) (batch_sizes.getD index 0)) }) ∨
    (Stops batched.outputs (sumSizes batch_sizes) (batchOffset batch_sizes index) (batch_sizes.getD index 0) ∧
      ∃ response, splitResponse batched batch_sizes index = .ok response ∧ response.ok = false) ∨
    ((∃ taken ∈ slicesTaken (sumSizes batch_sizes) (batchOffset batch_sizes index) (batch_sizes.getD index 0)
        batched.outputs, taken.2 < taken.1) ∧
      splitResponse batched batch_sizes index = .error .thrown) := by
  unfold splitResponse batchOffset
  obtain ⟨hforward, -, hmap⟩ | ⟨hstops, -, response, hmap, hfailed⟩ | ⟨hbackward, hmap⟩ :=
    splitOutputs_cases batched.outputs (sumSizes batch_sizes) (sumSizes (batch_sizes.take index))
      (batch_sizes.getD index 0)
  · exact .inl ⟨hforward, by simp only [hmap]⟩
  · exact .inr (.inl ⟨hstops, response, by simp only [hmap], hfailed⟩)
  · exact .inr (.inr ⟨hbackward, by simp only [hmap]⟩)

/-- The response of a request whose slices are cut forward. -/
theorem splitResponse_forward (hforward : ∀ output ∈ batched.outputs, CutsForward output (sumSizes batch_sizes)
      (batchOffset batch_sizes index) (batch_sizes.getD index 0)) :
    splitResponse batched batch_sizes index = .ok
      { outputs := batched.outputs.map (splitPart · (batchOffset batch_sizes index) (batch_sizes.getD index 0)) } := by
  obtain ⟨-, hresponse⟩ | ⟨hstops, -⟩ | ⟨⟨taken, hmem, hlt⟩, -⟩ := splitResponse_cases batched batch_sizes index
  · exact hresponse
  · exact absurd hstops (not_stops hforward)
  · exact absurd (slicesTaken_forward hforward taken hmem) (Nat.not_le.mpr hlt)

/-- A request has a response exactly when none of its slices is backward. -/
theorem splitResponse_isOk : (∃ response, splitResponse batched batch_sizes index = .ok response) ↔
    ∀ taken ∈ slicesTaken (sumSizes batch_sizes) (batchOffset batch_sizes index) (batch_sizes.getD index 0)
      batched.outputs, taken.1 ≤ taken.2 := by
  unfold splitResponse batchOffset
  obtain ⟨-, hslices, hmap⟩ | ⟨-, hslices, response, hmap, -⟩ | ⟨⟨taken, hmem, hlt⟩, hmap⟩ :=
    splitOutputs_cases batched.outputs (sumSizes batch_sizes) (sumSizes (batch_sizes.take index))
      (batch_sizes.getD index 0)
  · simp only [hmap]
    exact iff_of_true ⟨_, rfl⟩ hslices
  · simp only [hmap]
    exact iff_of_true ⟨response, rfl⟩ hslices
  · refine iff_of_false ?_ fun hslices => Nat.not_le.mpr hlt (hslices taken hmem)
    simp only [hmap]
    exact nofun

/-- The split has responses, unless the batch was executed and a slice that is cut
out of its response is backward. -/
theorem splitExecutionResponse_isOk :
    (∃ responses, splitExecutionResponse batched batch_sizes requests = .ok responses) ↔
      batched.ok = false ∨ slicesForward batched batch_sizes requests.length = true := by
  unfold splitExecutionResponse
  cases hok : batched.ok with
  | false => exact iff_of_true ⟨_, rfl⟩ (.inl rfl)
  | true =>
    rw [Bool.not_true, if_neg Bool.false_ne_true, mapM_isOk]
    simp only [splitResponse_isOk, slicesForward, List.all_eq_true, decide_eq_true_eq, Bool.true_eq_false, false_or]

/-- A response is split request by request. -/
theorem splitExecutionResponse_eq (hok : batched.ok = true) :
    splitExecutionResponse batched batch_sizes requests =
      (List.range requests.length).mapM (splitResponse batched batch_sizes) := by
  rw [splitExecutionResponse, hok, Bool.not_true, if_neg Bool.false_ne_true]

/-- Each response of a split is its request's slice. -/
theorem splitExecutionResponse_get {responses : List ExecutionResponse} {response : ExecutionResponse}
    (hok : batched.ok = true) (hsplit : splitExecutionResponse batched batch_sizes requests = .ok responses) :
    responses[index]? = some response ↔
      index < requests.length ∧ splitResponse batched batch_sizes index = .ok response := by
  rw [splitExecutionResponse_eq hok] at hsplit
  have hparts := List.forall₂_iff_get.mp (mapM_inv hsplit)
  obtain ⟨hlength, hparts⟩ := hparts
  rw [List.length_range] at hlength
  have hpart {place : Nat} (hplace : place < responses.length) :
      splitResponse batched batch_sizes place = .ok responses[place] := by
    have hresponse := hparts place (by rw [List.length_range]; omega) hplace
    rwa [List.get_eq_getElem, List.get_eq_getElem, List.getElem_range] at hresponse
  constructor
  · intro hget
    obtain ⟨hlt, rfl⟩ := List.getElem?_eq_some_iff.mp hget
    exact ⟨hlength ▸ hlt, hpart hlt⟩
  · rintro ⟨hlt, hresponse⟩
    rw [hlength] at hlt
    rw [hpart hlt, Except.ok.injEq] at hresponse
    rw [List.getElem?_eq_getElem hlt, hresponse]

end Response

end neuriplo.batch
