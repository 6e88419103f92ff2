import Mathlib.Algebra.Order.BigOperators.GroupWithZero.List
import NeuriploRuntime.Batch.Separation
import NeuriploRuntime.Batch.Slices

open neuriplo.tensor rows fallible

namespace neuriplo.batch

/-- An output whose rows are not empty: it is of a datatype with elements of one
size, and `size_t` counts some elements in a row. -/
structure SizedRows (output : OutputTensor) : Prop where
  known : tensorElementSize output.datatype ≠ 0
  sliced : sliceElementCount output.shape ≠ 0

instance (output : OutputTensor) : Decidable (SizedRows output) :=
  decidable_of_iff (tensorElementSize output.datatype ≠ 0 ∧ sliceElementCount output.shape ≠ 0)
    ⟨fun ⟨known, sliced⟩ => ⟨known, sliced⟩, fun ⟨known, sliced⟩ => ⟨known, sliced⟩⟩

/-- Positive dimensions are cast as they are. -/
theorem castSize_row {shape : List Int} (hpositive : ∀ dimension ∈ shape, 0 < dimension)
    (hbounded : (shape.map Int.toNat).prod < 2 ^ 64) : shape.map castSize = shape.map Int.toNat := by
  apply List.map_congr_left
  intro dimension hmem
  have hfirst := hpositive dimension hmem
  have hle : dimension.toNat ≤ (shape.map Int.toNat).prod := by
    apply List.single_le_prod _ _ (List.mem_map_of_mem hmem)
    intro extent hextent
    obtain ⟨other, hother, rfl⟩ := List.mem_map.mp hextent
    have hotherPositive := hpositive other hother
    omega
  unfold castSize
  omega

section Split

variable {output : OutputTensor} {outputs : List OutputTensor} {total offset count : Nat}

/-- Rows of an output have elements if and only if the output's have. -/
theorem sizedRows_tensorRows : SizedRows (tensorRows output offset count) ↔ SizedRows output := by
  have hslice : sliceElementCount (tensorRows output offset count).shape = sliceElementCount output.shape := by
    cases hshape : output.shape with
    | nil => rw [tensorRows, hshape, List.set_nil]
    | cons first rest => rw [tensorRows, hshape, List.set_cons_zero, sliceElementCount, sliceElementCount]; rfl
  constructor
  · rintro ⟨hknown, hsliced⟩
    exact ⟨hknown, hslice ▸ hsliced⟩
  · rintro ⟨hknown, hsliced⟩
    exact ⟨hknown, hslice.symm ▸ hsliced⟩

/-- A sized output with rows has no texts. -/
theorem SizedRows.string_data (hsized : SizedRows output) (hrowed : Rowed total output) : output.string_data = [] := by
  have hstrings := hrowed.string_data
  cases hbytes : isBytesDatatype output.datatype with
  | false =>
    rw [hbytes] at hstrings
    exact List.length_eq_zero_iff.mp hstrings
  | true =>
    have hname : output.datatype = "BYTES" := of_decide_eq_true hbytes
    have hknown := hsized.known
    rw [hname] at hknown
    exact absurd (by decide) hknown

theorem sliceElementCount_eq (shape : List Int) :
    sliceElementCount shape = wrapSize (shape.tail.map castSize).prod := by
  rw [sliceElementCount, foldl_wrapSize _ (by omega), Nat.one_mul]

/-- An output with elements in its rows has no empty dimension behind the first. -/
theorem SizedRows.positive (hsized : SizedRows output) (hrowed : Rowed total output) :
    ∀ dimension ∈ output.shape.tail, 0 < dimension := by
  intro dimension hmem
  have hnonneg := hrowed.nonneg dimension (List.mem_of_mem_tail hmem)
  by_contra hnot
  have hzero : dimension = 0 := by omega
  have hcast : 0 ∈ output.shape.tail.map castSize := by
    rw [hzero] at hmem
    exact List.mem_map_of_mem hmem
  have hslice := hsized.sliced
  rw [sliceElementCount_eq, List.prod_eq_zero hcast] at hslice
  exact hslice rfl

/-- A row of an output fits into memory, if there is one. -/
theorem SizedRows.row_lt (hsized : SizedRows output) (hrowed : Rowed total output) (hsome : 0 < total) :
    rowElements output.shape < 2 ^ 63 := by
  have hknown : 0 < tensorElementSize output.datatype := Nat.pos_of_ne_zero hsized.known
  have hmemory := hrowed.memory
  have helements := Nat.le_mul_of_pos_right (rowElements output.shape) hknown
  have hrows := Nat.le_mul_of_pos_left (rowBytes output) hsome
  rw [hrowed.bytes] at hmemory
  rw [rowBytes] at hrows hmemory
  omega

/-- In an output of so many rows no size wraps. -/
theorem SizedRows.sliceBytes_eq (hsized : SizedRows output) (hrowed : Rowed total output)
    (hcount : count ≤ total) : sliceBytes output count = count * rowBytes output := by
  have hknown : 0 < tensorElementSize output.datatype := Nat.pos_of_ne_zero hsized.known
  cases Nat.eq_zero_or_pos total with
  | inl hnone =>
    have hzero : count = 0 := by omega
    rw [hzero, sliceBytes, Nat.zero_mul, Nat.zero_mul, wrapSize, wrapSize, Nat.zero_mod, Nat.zero_mul, Nat.zero_mod]
  | inr hsome =>
    have hsmall := hsized.row_lt hrowed hsome
    have hslice : sliceElementCount output.shape = rowElements output.shape := by
      rw [rowElements] at hsmall ⊢
      rw [sliceElementCount_eq, castSize_row (hsized.positive hrowed) (by omega), wrapSize,
        Nat.mod_eq_of_lt (by omega)]
    have hbytes : count * rowBytes output < 2 ^ 63 := by
      refine Nat.lt_of_le_of_lt (Nat.mul_le_mul_right _ hcount) ?_
      rw [← hrowed.bytes]
      exact hrowed.memory
    have helements : count * rowElements output.shape ≤ count * rowBytes output := by
      rw [rowBytes]
      exact Nat.mul_le_mul_left _ (Nat.le_mul_of_pos_right _ hknown)
    have hproduct : count * rowElements output.shape * tensorElementSize output.datatype = count * rowBytes output := by
      rw [rowBytes, Nat.mul_assoc]
    rw [sliceBytes, hslice, show wrapSize (count * rowElements output.shape) = count * rowElements output.shape from
      Nat.mod_eq_of_lt (by omega), hproduct, wrapSize, Nat.mod_eq_of_lt (by omega)]

/-- The rows of an output come apart where the batch was put together. -/
theorem splitOutput_rows (hsized : SizedRows output) (hrowed : Rowed total output) (htotal : total < 2 ^ 63)
    (hinside : offset + count ≤ total) :
    splitOutput output total offset count = .ok (tensorRows output offset count) := by
  have hstart := hsized.sliceBytes_eq hrowed (show offset ≤ total by omega)
  have hspan := hsized.sliceBytes_eq hrowed (show count ≤ total by omega)
  have hwhole := hsized.sliceBytes_eq hrowed (le_refl total)
  have hlength := hrowed.bytes
  have hmemory := hrowed.memory
  have hroom : offset * rowBytes output + count * rowBytes output ≤ total * rowBytes output := by
    rw [← Nat.add_mul]
    exact Nat.mul_le_mul_right _ hinside
  have hfinish : sliceEnd output offset count = offset * rowBytes output + count * rowBytes output := by
    rw [sliceEnd, hstart, hspan, wrapSize, Nat.mod_eq_of_lt (by omega)]
  have hnotEmpty : output.shape.isEmpty = false := by
    rw [hrowed.shape_eq, List.isEmpty_cons]
  have hpart : tensorRows output offset count = splitPart output offset count := by
    have hcount : wrapInt64 (count : Int) = count := wrapInt64_natCast (by omega)
    simp only [splitPart, tensorRows, hnotEmpty, hcount, hstart, hfinish, Nat.add_sub_cancel_left, slice,
      hsized.string_data hrowed, List.drop_nil, List.take_nil, Bool.false_eq_true, if_false]
  refine splitOutput_ok_iff.mpr ⟨⟨⟨⟨?_, hsized.known, ?_, hsized.sliced⟩, ?_, ?_⟩, ?_⟩, hpart⟩
  · intro _
    rw [hrowed.shape_eq, List.headD_cons, castSize_natCast htotal]
  · have hbytes := @shapeElementCount_rows output _ _ hrowed.shape_eq total
    rw [← hrowed.shape_eq, castSize_natCast htotal, hwhole] at hbytes
    rw [hbytes, hlength]
  · rw [hstart]
    omega
  · rw [hfinish]
    omega
  · rw [hstart, hfinish]
    omega

/-- The rows of all outputs of a response. -/
theorem splitOutputs_rows (hrowed : ∀ output ∈ outputs, Rowed total output)
    (hsized : ∀ output ∈ outputs, SizedRows output) (htotal : total < 2 ^ 63) (hinside : offset + count ≤ total) :
    outputs.mapM (fun output => splitOutput output total offset count) =
      .ok (outputs.map (tensorRows · offset count)) := by
  apply mapM_ok
  intro output hmem
  exact splitOutput_rows (hsized output hmem) (hrowed output hmem) htotal hinside

/-- An output of BYTES, or of empty rows, comes apart for no request. -/
theorem sizedRows_of_cutsForward {expected_batch_dim batch_offset request_batch : Nat}
    (hforward : CutsForward output expected_batch_dim batch_offset request_batch) : SizedRows output :=
  ⟨hforward.1.known, hforward.1.sliced⟩

end Split

end neuriplo.batch
