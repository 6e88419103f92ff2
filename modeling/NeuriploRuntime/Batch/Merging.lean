import Mathlib.Data.List.Nodup
import Mathlib.Data.List.Perm.Subperm
import NeuriploRuntime.Batch.RowWise
import NeuriploRuntime.Fallible.Except

open neuriplo.tensor rows fallible

namespace neuriplo.batch

/-- What one request has for an input of another. -/
structure Matches (input found : InputTensor) : Prop where
  name : found.name = input.name
  datatype : found.datatype = input.datatype
  nonempty : input.shape ≠ [] ∧ found.shape ≠ []
  tail : found.shape.tail = input.shape.tail

structure Compatible (left right : ExecutionRequest) : Prop where
  notBytes : ∀ input ∈ right.inputs, isBytesDatatype input.datatype = false
  length : left.inputs.length = right.inputs.length
  requested_outputs : left.requested_outputs = right.requested_outputs
  found : ∀ input ∈ left.inputs, ∃ found, findInputByName right input.name = some found ∧ Matches input found

/-- What is found is an input of that name. -/
theorem findInputByName_some {request : ExecutionRequest} {name : String} {input : InputTensor}
    (hfind : findInputByName request name = some input) : input ∈ request.inputs ∧ input.name = name := by
  unfold findInputByName at hfind
  exact ⟨List.mem_of_find?_eq_some hfind, by simpa using List.find?_some hfind⟩

/-- A compatible input has a match. -/
theorem inputCompatibilityError_none {right : ExecutionRequest} {input : InputTensor}
    (hnone : inputCompatibilityError right input = none) :
    ∃ found, findInputByName right input.name = some found ∧ Matches input found := by
  unfold inputCompatibilityError at hnone
  split at hnone
  · cases hnone
  · rename_i found hfind
    split_ifs at hnone with hdatatype hempty hshape hrank
    rw [Bool.or_eq_true, List.isEmpty_iff, List.isEmpty_iff, not_or] at hempty
    rw [Bool.not_eq_true', Bool.not_eq_false, shapesMatchExceptBatch, Bool.and_eq_true, decide_eq_true_eq,
      decide_eq_true_eq] at hshape
    exact ⟨found, hfind, (findInputByName_some hfind).2, (not_not.mp hdatatype).symm, hempty, hshape.2.symm⟩

/-- Requests that pass the check are compatible. -/
theorem compatible_of_areBatchCompatible {left right : ExecutionRequest}
    (hcompatible : areBatchCompatible left right = true) : Compatible left right := by
  have hnone : batchCompatibilityError left right = none := Option.isNone_iff_eq_none.mp hcompatible
  unfold batchCompatibilityError at hnone
  cases hinputs : left.inputs.findSome? (inputCompatibilityError right) with
  | some error =>
    rw [hinputs] at hnone
    split_ifs at hnone
  | none =>
    rw [hinputs] at hnone
    split_ifs at hnone with hleft hright hlength houtputs
    refine ⟨?_, not_not.mp hlength, not_not.mp houtputs, ?_⟩
    · intro input hmem
      by_contra hbytes
      rw [Bool.not_eq_false] at hbytes
      exact hright (List.any_eq_true.mpr ⟨input, hmem, hbytes⟩)
    · intro input hmem
      exact inputCompatibilityError_none (List.findSome?_eq_none_iff.mp hinputs input hmem)

/-- What a request has under the name of an input. -/
def matching (input : InputTensor) (request : ExecutionRequest) : InputTensor :=
  (findInputByName request input.name).getD input

/-- What requests have under one name, put one behind the other. -/
def payload (requests : List ExecutionRequest) (name : String) : List UInt8 :=
  requests.flatMap fun request => ((findInputByName request name).map (·.bytes)).getD []

/-- An input of a merged request, of `total` rows. -/
def mergedTensor (requests : List ExecutionRequest) (total : Int) (input : InputTensor) : InputTensor :=
  { input with
    shape := input.shape.set 0 total
    bytes := payload requests input.name }

/-- The leading dimension of a merged request. -/
def mergedLeading (requests : List ExecutionRequest) : Int :=
  wrapInt64 (sumSizes (requests.map fun request => castSize (requestBatchSize request)))

/-- The batch as one request. -/
def mergedRequest (front : ExecutionRequest) (others : List ExecutionRequest) : ExecutionRequest where
  inputs := front.inputs.map (mergedTensor (front :: others) (mergedLeading (front :: others)))
  requested_outputs := front.requested_outputs

/-- Where no name is repeated, each input is found. -/
theorem findInputByName_of_mem {request : ExecutionRequest} {input : InputTensor}
    (hnames : (request.inputs.map (·.name)).Nodup) (hmem : input ∈ request.inputs) :
    findInputByName request input.name = some input := by
  cases hfind : findInputByName request input.name with
  | none =>
    have hnever := List.find?_eq_none.mp hfind input hmem
    exact absurd (by simp) hnever
  | some found =>
    obtain ⟨hfound, hname⟩ := findInputByName_some hfind
    rw [List.inj_on_of_nodup_map hnames hfound hmem hname]

/-- Inputs that all requests have are merged. -/
theorem mergeInputs_ok {front : ExecutionRequest} {others : List ExecutionRequest} {batch_sizes : List Nat}
    {inputs : List InputTensor} (hfront : ∀ input ∈ inputs, matching input front = input)
    (hfound : ∀ input ∈ inputs, ∀ request ∈ front :: others, (findInputByName request input.name).isSome = true) :
    mergeInputs (front :: others) batch_sizes inputs =
      .ok (inputs.map (mergedTensor (front :: others) (wrapInt64 (sumSizes batch_sizes)))) := by
  induction inputs with
  | nil => rfl
  | cons input inputs ih =>
    obtain ⟨hfirst, hrest⟩ := List.forall_mem_cons.mp hfront
    obtain ⟨hfoundFirst, hfoundRest⟩ := List.forall_mem_cons.mp hfound
    have hpayload : payload (front :: others) input.name =
        ((front :: others).map (matching input)).flatMap (·.bytes) := by
      rw [payload, List.flatMap_map]
      apply List.flatMap_congr
      intro request hmem
      obtain ⟨found, hfind⟩ := Option.isSome_iff_exists.mp (hfoundFirst request hmem)
      rw [matching, hfind]
      rfl
    have hmerged : mergeInputTensors ((front :: others).map (matching input))
        (((front :: others).map (matching input)).head?.getD input) batch_sizes =
          mergedTensor (front :: others) (wrapInt64 (sumSizes batch_sizes)) input := by
      rw [mergedTensor, hpayload, List.map_cons, List.head?_cons, Option.getD_some, hfirst, mergeInputTensors]
    simp only [mergeInputs]
    rw [@mapM_ok _ _ _ _ (matching input) (front :: others), ih hrest hfoundRest]
    · simp only [bind, Except.bind, pure, Except.pure]
      rw [hmerged, List.map_cons]
    · intro request hmem
      obtain ⟨found, hfind⟩ := Option.isSome_iff_exists.mp (hfoundFirst request hmem)
      rw [matching, hfind]
      rfl

/-- Requests that may share a batch, at least two of them: each has its inputs
under names of their own and fits the first. -/
structure Group (front : ExecutionRequest) (others : List ExecutionRequest) : Prop where
  several : others ≠ []
  compatible : ∀ request ∈ others, areBatchCompatible front request = true
  nonempty : ∀ request ∈ front :: others, request.inputs ≠ []
  names : ∀ request ∈ front :: others, (request.inputs.map (·.name)).Nodup
  strings : ∀ request ∈ front :: others, ∀ input ∈ request.inputs,
    isBytesDatatype input.datatype = false → input.string_data = []

section Merging

variable {front : ExecutionRequest} {others : List ExecutionRequest}

/-- In the first request of a group an input matches itself. -/
theorem Group.matching_front (hgroup : Group front others) {input : InputTensor} (hmem : input ∈ front.inputs) :
    matching input front = input := by
  rw [matching, findInputByName_of_mem (hgroup.names front List.mem_cons_self) hmem, Option.getD_some]

/-- Every request has every input of the first. -/
theorem Group.found (hgroup : Group front others) {request : ExecutionRequest} (hrequest : request ∈ front :: others)
    {input : InputTensor} (hmem : input ∈ front.inputs) :
    findInputByName request input.name = some (matching input request) ∧ Matches input (matching input request) := by
  cases List.mem_cons.mp hrequest with
  | inl hfront =>
    subst hfront
    obtain ⟨other, hother⟩ := List.exists_mem_of_ne_nil others hgroup.several
    obtain ⟨found, -, hmatches⟩ :=
      (compatible_of_areBatchCompatible (hgroup.compatible other hother)).found input hmem
    rw [hgroup.matching_front hmem]
    exact ⟨findInputByName_of_mem (hgroup.names request List.mem_cons_self) hmem, rfl, rfl,
      ⟨hmatches.nonempty.1, hmatches.nonempty.1⟩, rfl⟩
  | inr hother =>
    obtain ⟨found, hfind, hmatches⟩ :=
      (compatible_of_areBatchCompatible (hgroup.compatible request hother)).found input hmem
    rw [matching, hfind, Option.getD_some]
    exact ⟨rfl, hmatches⟩

theorem Group.notBytes (hgroup : Group front others) {input : InputTensor} (hmem : input ∈ front.inputs) :
    isBytesDatatype input.datatype = false := by
  obtain ⟨other, hother⟩ := List.exists_mem_of_ne_nil others hgroup.several
  have hcompatible := compatible_of_areBatchCompatible (hgroup.compatible other hother)
  obtain ⟨found, hfind, hmatches⟩ := hcompatible.found input hmem
  rw [← hmatches.datatype]
  exact hcompatible.notBytes found (findInputByName_some hfind).1

/-- The requests of a group have as many inputs. -/
theorem Group.length_eq (hgroup : Group front others) {request : ExecutionRequest}
    (hrequest : request ∈ front :: others) :
    front.inputs.length = request.inputs.length := by
  cases List.mem_cons.mp hrequest with
  | inl hfront => rw [hfront]
  | inr hother => exact (compatible_of_areBatchCompatible (hgroup.compatible request hother)).length

theorem Group.requested_outputs_eq (hgroup : Group front others) {request : ExecutionRequest}
    (hrequest : request ∈ front :: others) : front.requested_outputs = request.requested_outputs := by
  cases List.mem_cons.mp hrequest with
  | inl hfront => rw [hfront]
  | inr hother => exact (compatible_of_areBatchCompatible (hgroup.compatible request hother)).requested_outputs

/-- The inputs of a request, in the order of the first one's. -/
theorem Group.inputs_perm (hgroup : Group front others) {request : ExecutionRequest}
    (hrequest : request ∈ front :: others) : (front.inputs.map (matching · request)).Perm request.inputs := by
  have hnames : (front.inputs.map (matching · request)).map (·.name) = front.inputs.map (·.name) := by
    rw [List.map_map]
    apply List.map_congr_left
    intro input hmem
    exact (hgroup.found hrequest hmem).2.name
  have hnodup : (front.inputs.map (matching · request)).Nodup := by
    apply List.Nodup.of_map (·.name)
    rw [hnames]
    exact hgroup.names front List.mem_cons_self
  have hsubset : front.inputs.map (matching · request) ⊆ request.inputs := by
    intro found hmem
    obtain ⟨input, hinput, rfl⟩ := List.mem_map.mp hmem
    exact (findInputByName_some (hgroup.found hrequest hinput).1).1
  refine (List.subperm_of_subset hnodup hsubset).perm_of_length_le ?_
  rw [List.length_map, hgroup.length_eq hrequest]

/-- A group can be merged. -/
theorem Group.mergeExecutionRequests_ok (hgroup : Group front others) :
    mergeExecutionRequests (front :: others) = .ok {
      request := mergedRequest front others
      batch_sizes := (front :: others).map fun request => castSize (requestBatchSize request) } := by
  have hinputs : (front :: others).any (·.inputs.isEmpty) = false := by
    rw [List.any_eq_false]
    intro request hmem hempty
    exact hgroup.nonempty request hmem (List.isEmpty_iff.mp hempty)
  have hcompatible : others.findSome? (batchCompatibilityError front) = none := by
    rw [List.findSome?_eq_none_iff]
    intro request hmem
    exact Option.isNone_iff_eq_none.mp (hgroup.compatible request hmem)
  have hmerged := @mergeInputs_ok front others
    ((front :: others).map fun request => castSize (requestBatchSize request)) front.inputs
    (fun input hmem => hgroup.matching_front hmem)
    (fun input hmem request hrequest => by rw [(hgroup.found hrequest hmem).1]; rfl)
  simp only [mergeExecutionRequests, hinputs, Bool.false_eq_true, if_false, hcompatible, hmerged]
  rfl

end Merging

end neuriplo.batch
