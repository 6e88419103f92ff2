import NeuriploRuntime.Batch.Merging
import NeuriploRuntime.Keyed.Cover

open neuriplo.tensor keyed

namespace neuriplo.batch

instance : Std.Symm Matches where
  symm _ _ hmatches :=
    ⟨hmatches.name.symm, hmatches.datatype.symm, hmatches.nonempty.symm, hmatches.tail.symm⟩

instance : IsTrans InputTensor Matches where
  trans _ _ _ hfirst hsecond :=
    ⟨hsecond.name.trans hfirst.name, hsecond.datatype.trans hfirst.datatype,
      ⟨hfirst.nonempty.1, hsecond.nonempty.2⟩, hsecond.tail.trans hfirst.tail⟩

instance (input found : InputTensor) : Decidable (Matches input found) :=
  decidable_of_iff (found.name = input.name ∧ found.datatype = input.datatype ∧
      (input.shape ≠ [] ∧ found.shape ≠ []) ∧ found.shape.tail = input.shape.tail)
    ⟨fun ⟨hname, hdatatype, hnonempty, htail⟩ => ⟨hname, hdatatype, hnonempty, htail⟩,
      fun hmatches => ⟨hmatches.name, hmatches.datatype, hmatches.nonempty, hmatches.tail⟩⟩

/-- What the comparison of two requests looks at but for inputs behind the first
under their name. -/
structure Comparable (left right : ExecutionRequest) : Prop where
  notBytes : ∀ input ∈ left.inputs ++ right.inputs, isBytesDatatype input.datatype = false
  length : left.inputs.length = right.inputs.length
  requested_outputs : left.requested_outputs = right.requested_outputs
  inputs : FirstsAgree (·.name) Matches left.inputs right.inputs

/-- Inputs under one name have the same datatype and dimensions behind the first. -/
def NamesUniform (request : ExecutionRequest) : Prop := Uniform (·.name) Matches request.inputs

instance (request : ExecutionRequest) : Decidable (NamesUniform request) :=
  inferInstanceAs (Decidable (∀ input ∈ request.inputs, ∀ other ∈ request.inputs,
    other.name = input.name → Matches input other))

section Equivalence

variable {left middle right : ExecutionRequest}

/-- To be comparable goes both ways. -/
theorem Comparable.symm (hcomparable : Comparable left right) : Comparable right left := by
  refine ⟨?_, hcomparable.length.symm, hcomparable.requested_outputs.symm, hcomparable.inputs.symm⟩
  intro input hmem
  exact hcomparable.notBytes input (List.mem_append.mpr (List.mem_append.mp hmem).symm)

theorem Comparable.trans (hleft : Comparable left middle) (hright : Comparable middle right) :
    Comparable left right := by
  refine ⟨?_, hleft.length.trans hright.length, hleft.requested_outputs.trans hright.requested_outputs,
    hleft.inputs.trans hright.inputs⟩
  intro input hmem
  obtain hmem | hmem := List.mem_append.mp hmem
  · exact hleft.notBytes input (List.mem_append_left _ hmem)
  · exact hright.notBytes input (List.mem_append_right _ hmem)

/-- An input is compatible exactly when the other request has one of its name
that matches. -/
theorem inputCompatibilityError_eq_none_iff {input : InputTensor} :
    inputCompatibilityError right input = none ↔
      ∃ found, findInputByName right input.name = some found ∧ Matches input found := by
  constructor
  · exact inputCompatibilityError_none
  · rintro ⟨found, hfind, hmatches⟩
    obtain ⟨hinput, hfound⟩ := hmatches.nonempty
    have hlength : input.shape.length = found.shape.length := by
      rw [← List.cons_head_tail hinput, ← List.cons_head_tail hfound, hmatches.tail]
      rfl
    have hshapes : shapesMatchExceptBatch input.shape found.shape = true := by
      rw [shapesMatchExceptBatch, Bool.and_eq_true, decide_eq_true_eq, decide_eq_true_eq]
      exact ⟨hlength, hmatches.tail.symm⟩
    rw [inputCompatibilityError, hfind]
    simp [hmatches.datatype, hinput, hfound, hshapes, hlength]

/-- The loop over the left inputs and the one over the right names. -/
theorem covers_inputs_iff : Covers (·.name) Matches left.inputs right.inputs ↔
    left.inputs.findSome? (inputCompatibilityError right) = none ∧
      right.inputs.any (fun input => (findInputByName left input.name).isNone) = false := by
  have hkeys : (∀ other ∈ right.inputs, ∃ item ∈ left.inputs, item.name = other.name) ↔
      right.inputs.any (fun input => (findInputByName left input.name).isNone) = false := by
    rw [List.any_eq_false]
    refine forall₂_congr fun input _ => ?_
    rw [Option.isNone_iff_eq_none, findInputByName, find?_eq_none_iff, not_not, List.mem_map]
  rw [List.findSome?_eq_none_iff, ← hkeys]
  constructor
  · intro hcovers
    exact ⟨fun input hmem => inputCompatibilityError_eq_none_iff.mpr (hcovers.found input hmem), hcovers.keys⟩
  · rintro ⟨hfound, hnames⟩
    exact ⟨fun input hmem => inputCompatibilityError_eq_none_iff.mp (hfound input hmem), hnames⟩

theorem batchCompatibilityError_eq_none_iff : batchCompatibilityError left right = none ↔
    left.inputs.any (isBytesDatatype ·.datatype) = false ∧ right.inputs.any (isBytesDatatype ·.datatype) = false ∧
      left.inputs.length = right.inputs.length ∧ left.requested_outputs = right.requested_outputs ∧
        Covers (·.name) Matches left.inputs right.inputs := by
  rw [covers_inputs_iff, batchCompatibilityError]
  by_cases hleft : left.inputs.any (isBytesDatatype ·.datatype) = true
  · simp [hleft]
  by_cases hright : right.inputs.any (isBytesDatatype ·.datatype) = true
  · simp [hleft, hright]
  by_cases hlength : left.inputs.length = right.inputs.length
  swap
  · simp [hleft, hright, hlength]
  by_cases houtputs : left.requested_outputs = right.requested_outputs
  swap
  · simp [hleft, hright, hlength, houtputs]
  rw [if_neg hleft, if_neg hright, if_neg (not_not.mpr hlength), if_neg (not_not.mpr houtputs)]
  rw [Bool.not_eq_true] at hleft hright
  cases left.inputs.findSome? (inputCompatibilityError right) <;> simp [hleft, hright, hlength, houtputs]

/-- Two requests are compatible when they are comparable and the left one has no
two inputs under one name that differ. -/
theorem areBatchCompatible_iff : areBatchCompatible left right = true ↔ Comparable left right ∧ NamesUniform left := by
  have hnotBytes : (∀ input ∈ left.inputs ++ right.inputs, isBytesDatatype input.datatype = false) ↔
      left.inputs.any (isBytesDatatype ·.datatype) = false ∧ right.inputs.any (isBytesDatatype ·.datatype) = false := by
    simp only [List.any_eq_false, List.mem_append, or_imp, forall_and, Bool.not_eq_true]
  rw [areBatchCompatible, Option.isNone_iff_eq_none, batchCompatibilityError_eq_none_iff, covers_iff]
  constructor
  · rintro ⟨hleft, hright, hlength, houtputs, hinputs, huniform⟩
    exact ⟨⟨hnotBytes.mpr ⟨hleft, hright⟩, hlength, houtputs, hinputs⟩, huniform⟩
  · rintro ⟨hcomparable, huniform⟩
    obtain ⟨hleft, hright⟩ := hnotBytes.mp hcomparable.notBytes
    exact ⟨hleft, hright, hcomparable.length, hcomparable.requested_outputs, hcomparable.inputs, huniform⟩

/-- Comparable requests are compatible both ways when both are uniform. -/
theorem Comparable.areBatchCompatible_iff (hcomparable : Comparable left right) :
    areBatchCompatible left right = true ↔ NamesUniform left := by
  rw [batch.areBatchCompatible_iff]
  exact and_iff_right hcomparable

/-- Compatibility is symmetric exactly when of two comparable requests both or
none have uniform names. -/
theorem areBatchCompatible_comm_iff : areBatchCompatible left right = areBatchCompatible right left ↔
    (Comparable left right → (NamesUniform left ↔ NamesUniform right)) := by
  rw [Bool.eq_iff_iff]
  by_cases hcomparable : Comparable left right
  · rw [hcomparable.areBatchCompatible_iff, hcomparable.symm.areBatchCompatible_iff]
    exact ⟨fun hcomm _ => hcomm, fun hcomm => hcomm hcomparable⟩
  · have hreverse : ¬ Comparable right left := fun hright => hcomparable hright.symm
    rw [areBatchCompatible_iff, areBatchCompatible_iff]
    exact iff_of_true (iff_of_false (fun hleft => hcomparable hleft.1) fun hright => hreverse hright.1)
      fun hleft => absurd hleft hcomparable

/-- Compatibility goes on from request to request. -/
theorem areBatchCompatible_trans (hleft : areBatchCompatible left middle = true)
    (hright : areBatchCompatible middle right = true) : areBatchCompatible left right = true := by
  obtain ⟨hleftComparable, huniform⟩ := areBatchCompatible_iff.mp hleft
  obtain ⟨hrightComparable, -⟩ := areBatchCompatible_iff.mp hright
  exact areBatchCompatible_iff.mpr ⟨hleftComparable.trans hrightComparable, huniform⟩

/-- A request is compatible with itself exactly when its names are uniform. -/
theorem areBatchCompatible_self_iff {request : ExecutionRequest}
    (hinputs : ∀ input ∈ request.inputs, input.shape ≠ [] ∧ isBytesDatatype input.datatype = false) :
    areBatchCompatible request request = true ↔ NamesUniform request := by
  have hcomparable : Comparable request request := by
    refine ⟨?_, rfl, rfl, fun _ => Iff.rfl, ?_⟩
    · intro input hmem
      rw [List.mem_append, or_self] at hmem
      exact (hinputs input hmem).2
    · intro wanted first other hfirst hother
      rw [hfirst] at hother
      cases hother
      have hnonempty := (hinputs first (mem_of_find? hfirst).1).1
      exact ⟨rfl, rfl, ⟨hnonempty, hnonempty⟩, rfl⟩
  exact hcomparable.areBatchCompatible_iff

/-- Requests that all fit a first one fit each other when each is uniform. -/
theorem pairwise_compatible_iff {first : ExecutionRequest} {others : List ExecutionRequest}
    (hfirst : ∀ request ∈ others, areBatchCompatible first request = true) :
    ((first :: others).Pairwise fun left right =>
        areBatchCompatible left right = true ∧ areBatchCompatible right left = true) ↔
      ∀ request ∈ others, NamesUniform request := by
  have hcomparable : ∀ request ∈ others, Comparable first request := fun request hmem =>
    (areBatchCompatible_iff.mp (hfirst request hmem)).1
  constructor
  · intro hpairs request hmem
    have hback := ((List.pairwise_cons.mp hpairs).1 request hmem).2
    exact (areBatchCompatible_iff.mp hback).2
  · intro huniform
    refine List.pairwise_cons.mpr ⟨?_, ?_⟩
    · intro request hmem
      exact ⟨hfirst request hmem, (hcomparable request hmem).symm.areBatchCompatible_iff.mpr (huniform request hmem)⟩
    · refine List.pairwise_of_forall_mem_list ?_
      intro left hleft right hright
      have hpair := (hcomparable left hleft).symm.trans (hcomparable right hright)
      exact ⟨hpair.areBatchCompatible_iff.mpr (huniform left hleft),
        hpair.symm.areBatchCompatible_iff.mpr (huniform right hright)⟩

end Equivalence

/-- Compatibility is an equivalence as far as requests have no two inputs under
one name that differ; it is transitive in any case. -/
theorem batch_compatibility_iff (left middle right : ExecutionRequest) (others : List ExecutionRequest) :
    (areBatchCompatible left right = areBatchCompatible right left ↔
      (Comparable left right → (NamesUniform left ↔ NamesUniform right))) ∧
    (areBatchCompatible left middle = true → areBatchCompatible middle right = true →
      areBatchCompatible left right = true) ∧
    ((∀ input ∈ left.inputs, input.shape ≠ [] ∧ isBytesDatatype input.datatype = false) →
      (areBatchCompatible left left = true ↔ NamesUniform left)) ∧
    ((∀ request ∈ others, areBatchCompatible left request = true) →
      (((left :: others).Pairwise fun first second =>
          areBatchCompatible first second = true ∧ areBatchCompatible second first = true) ↔
        ∀ request ∈ others, NamesUniform request)) :=
  ⟨areBatchCompatible_comm_iff, areBatchCompatible_trans, areBatchCompatible_self_iff, pairwise_compatible_iff⟩

/-- A request with inputs under one name, one for each shape. -/
def repeated (shapes : List (List Int)) : ExecutionRequest where
  inputs := shapes.map fun shape => { name := "x", datatype := "INT8", shape }

/-- Requests of some rows, with and without a repeated name. -/
theorem batch_compatibility_rows :
    areBatchCompatible (repeated [[1, 2]]) (repeated [[3, 2]]) =
        areBatchCompatible (repeated [[3, 2]]) (repeated [[1, 2]]) ∧
      areBatchCompatible (repeated [[1, 2]]) (repeated [[5, 2]]) = true ∧
      areBatchCompatible (repeated [[1, 2]]) (repeated [[1, 2]]) = true ∧
      ([repeated [[1, 2]], repeated [[3, 2]], repeated [[5, 2]]].Pairwise fun left right =>
        areBatchCompatible left right = true ∧ areBatchCompatible right left = true) := by
  obtain ⟨hcomm, -, hself, hpairs⟩ := batch_compatibility_iff (repeated [[1, 2]]) (repeated [[3, 2]])
    (repeated [[3, 2]]) [repeated [[3, 2]], repeated [[5, 2]]]
  obtain ⟨-, htrans, -, -⟩ := batch_compatibility_iff (repeated [[1, 2]]) (repeated [[3, 2]]) (repeated [[5, 2]]) []
  refine ⟨?_, ?_, ?_, ?_⟩
  · exact hcomm.mpr fun _ => by decide
  · exact htrans (by decide) (by decide)
  · exact (hself (by decide)).mpr (by decide)
  · exact (hpairs (by decide)).mpr (by decide)

/-- The first request fits the second, whose second input it does not look at. The
second fits neither the first nor itself, and two of them may be in one batch. -/
theorem repeated_name_one_sided :
    areBatchCompatible (repeated [[1, 2], [1, 2]]) (repeated [[1, 2], [1, 3]]) = true ∧
      areBatchCompatible (repeated [[1, 2], [1, 3]]) (repeated [[1, 2], [1, 2]]) = false ∧
      areBatchCompatible (repeated [[1, 2], [1, 3]]) (repeated [[1, 2], [1, 3]]) = false ∧
      ∀ input ∈ (repeated [[1, 2], [1, 3]]).inputs,
        input.shape ≠ [] ∧ isBytesDatatype input.datatype = false := by
  decide

end neuriplo.batch
