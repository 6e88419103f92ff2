import NeuriploRuntime.Batch.Separation

open neuriplo.tensor rows fallible

namespace neuriplo.batch

/-- The bytes of a row, in exact integers. -/
def rowSize (tensor : InputTensor) : Int := tensor.shape.tail.prod * tensorElementSize tensor.datatype

/-- The bytes that the shape asks for. -/
def ExactBytes (tensor : InputTensor) : Prop :=
  (tensor.bytes.length : Int) = tensor.shape.prod * tensorElementSize tensor.datatype

/-- The rows a request counts for. -/
def batchSize (request : ExecutionRequest) : Nat := castSize (requestBatchSize request)

/-- A merged input has a leading dimension and the bytes of its shape, and the
bytes of each request are its rows from those of the requests before it on. -/
structure KeepsLayout (requests : List ExecutionRequest) (batch_sizes : List Nat) (merged : InputTensor) : Prop where
  leading : merged.shape ≠ []
  exact : ExactBytes merged
  parts : ∀ before request after, requests = before ++ request :: after →
    merged.bytes = payload before merged.name ++ payload [request] merged.name ++ payload after merged.name ∧
    ((payload before merged.name).length : Int) = (batch_sizes.take before.length).sum * rowSize merged ∧
    ((payload [request] merged.name).length : Int) = batch_sizes.getD before.length 0 * rowSize merged

/-- What an input must be for its rows to stay in their places. -/
def LeadsWithRows (requests : List ExecutionRequest) (input : InputTensor) : Prop :=
  input.shape ≠ [] ∧ (rowSize input = 0 ∨ (requests.map batchSize).sum < 2 ^ 63 ∧
    ∀ request ∈ requests, (matching input request).shape.head? = some (batchSize request : Int))

section Merge

variable {front : ExecutionRequest} {others requests : List ExecutionRequest} {batch_sizes : List Nat}

theorem matching_name {input : InputTensor} {request : ExecutionRequest}
    (hfound : (findInputByName request input.name).isSome = true) :
    findInputByName request input.name = some (matching input request) ∧
      (matching input request).name = input.name := by
  obtain ⟨found, hfind⟩ := Option.isSome_iff_exists.mp hfound
  rw [matching, hfind, Option.getD_some]
  exact ⟨rfl, (findInputByName_some hfind).2⟩

theorem payload_matching {input : InputTensor}
    (hfound : ∀ request ∈ requests, (findInputByName request input.name).isSome = true) :
    payload requests input.name = (requests.map (matching input)).flatMap (·.bytes) := by
  rw [payload, List.flatMap_map]
  apply List.flatMap_congr
  intro request hmem
  rw [(matching_name (hfound request hmem)).1]
  rfl

/-- A merge that succeeds has found every input of the first request in each. -/
theorem mergeInputs_inv {inputs merged : List InputTensor}
    (hmerge : mergeInputs (front :: others) batch_sizes inputs = .ok merged) :
    (∀ input ∈ inputs, ∀ request ∈ front :: others, (findInputByName request input.name).isSome = true) ∧
      merged = inputs.map fun input =>
        mergedTensor (front :: others) (wrapInt64 (sumSizes batch_sizes)) (matching input front) := by
  induction inputs generalizing merged with
  | nil =>
    cases hmerge
    simp
  | cons input inputs ih =>
    simp only [mergeInputs] at hmerge
    obtain ⟨found, hmap, hnext⟩ := bind_ok hmerge
    obtain ⟨rest, hrest, hmerged⟩ := bind_ok hnext
    cases hmerged
    have hmatching : List.Forall₂ (fun request result =>
        (findInputByName request input.name).isSome = true ∧ matching input request = result)
        (front :: others) found := by
      refine (mapM_inv hmap).imp ?_
      intro request result hresult
      cases hfind : findInputByName request input.name with
      | none =>
        rw [hfind] at hresult
        cases hresult
      | some first =>
        rw [hfind] at hresult
        cases hresult
        rw [matching, hfind]
        exact ⟨rfl, rfl⟩
    obtain ⟨hfound, hequal⟩ := (List.forall₂_and_left _ _).mp hmatching
    have hresults : (front :: others).map (matching input) = found := by
      rw [← List.forall₂_eq_eq_eq, List.forall₂_map_left_iff]
      exact hequal
    obtain ⟨hfoundRest, rfl⟩ := ih hrest
    refine ⟨List.forall_mem_cons.mpr ⟨hfound, hfoundRest⟩, ?_⟩
    have hname := (matching_name (hfound front List.mem_cons_self)).2
    have hmerged : mergeInputTensors found (found.head?.getD input) batch_sizes =
        mergedTensor (front :: others) (wrapInt64 (sumSizes batch_sizes)) (matching input front) := by
      rw [mergedTensor, hname, payload_matching hfound, ← hresults, mergeInputTensors, List.map_cons, List.head?_cons,
        Option.getD_some, hname]
    rw [List.map_cons, hmerged]

/-- What is known of requests that were merged. -/
theorem mergeExecutionRequests_inv {merged : MergedBatch} (hmerge : mergeExecutionRequests requests = .ok merged) :
    ∃ front others, requests = front :: others ∧ merged.batch_sizes = requests.map batchSize ∧
      (∀ request ∈ others, areBatchCompatible front request = true) ∧
      (∀ input ∈ front.inputs, ∀ request ∈ requests, (findInputByName request input.name).isSome = true) ∧
      merged.request.inputs = front.inputs.map fun input =>
        mergedTensor requests (wrapInt64 (sumSizes (requests.map batchSize))) (matching input front) := by
  unfold mergeExecutionRequests at hmerge
  split at hmerge
  · cases hmerge
  · rename_i front others
    split at hmerge
    · cases hmerge
    · simp only at hmerge
      split at hmerge
      · cases hmerge
      · rename_i hcompatible
        cases hinputs : mergeInputs (front :: others)
            ((front :: others).map fun request => castSize (requestBatchSize request)) front.inputs with
        | error error =>
          rw [hinputs] at hmerge
          cases hmerge
        | ok inputs =>
          rw [hinputs] at hmerge
          cases hmerge
          obtain ⟨hfound, rfl⟩ := mergeInputs_inv hinputs
          refine ⟨front, others, rfl, rfl, ?_, hfound, rfl⟩
          intro request hmem
          exact Option.isNone_iff_eq_none.mpr (List.findSome?_eq_none_iff.mp hcompatible request hmem)

/-- The inputs that are merged into one have their datatype and their rows in
common. -/
theorem matching_fits {input : InputTensor} (hcompatible : ∀ request ∈ others, areBatchCompatible front request = true)
    (hmem : input ∈ front.inputs) {request : ExecutionRequest} (hrequest : request ∈ front :: others)
    (hfound : ∀ request ∈ front :: others, (findInputByName request input.name).isSome = true) :
    matching input request ∈ request.inputs ∧ rowSize (matching input request) = rowSize (matching input front) ∧
      (matching input request).datatype = (matching input front).datatype ∧
      ((matching input front).shape ≠ [] → (matching input request).shape ≠ []) := by
  obtain ⟨hfind, -⟩ := matching_name (hfound request hrequest)
  refine ⟨(findInputByName_some hfind).1, ?_⟩
  cases List.mem_cons.mp hrequest with
  | inl hfront =>
    subst hfront
    exact ⟨rfl, rfl, id⟩
  | inr hother =>
    obtain ⟨hfindFront, hname⟩ := matching_name (hfound front List.mem_cons_self)
    have hcompatible := compatible_of_areBatchCompatible (hcompatible request hother)
    obtain ⟨found, hfindOther, hmatches⟩ := hcompatible.found _ (findInputByName_some hfindFront).1
    rw [hname, hfind, Option.some.injEq] at hfindOther
    subst hfindOther
    exact ⟨by rw [rowSize, rowSize, hmatches.tail, hmatches.datatype], hmatches.datatype, fun _ => hmatches.nonempty.2⟩

end Merge

section Layout

variable {front : ExecutionRequest} {others requests : List ExecutionRequest} {input : InputTensor}

/-- The payload of a group is as long as its rows. -/
theorem length_payload {name : String} {size : ExecutionRequest → Nat} {row : Int}
    (hsizes : ∀ request ∈ requests, ((payload [request] name).length : Int) = size request * row) :
    ((payload requests name).length : Int) = (requests.map size).sum * row := by
  induction requests with
  | nil => simp [payload]
  | cons request requests ih =>
    obtain ⟨hfirst, hrest⟩ := List.forall_mem_cons.mp hsizes
    have hsplit : payload (request :: requests) name = payload [request] name ++ payload requests name := by
      rw [payload, List.flatMap_cons, payload, List.flatMap_singleton, payload]
    rw [hsplit, List.length_append, Nat.cast_add, hfirst, ih hrest, List.map_cons, List.sum_cons, Nat.cast_add,
      Int.add_mul]

/-- The payload of a request lies between those before and behind it. -/
theorem payload_split {before after : List ExecutionRequest} {request : ExecutionRequest}
    (hsplit : requests = before ++ request :: after) (name : String) :
    payload requests name = payload before name ++ payload [request] name ++ payload after name := by
  rw [hsplit, payload, List.flatMap_append, List.flatMap_cons, payload, payload, List.flatMap_singleton, payload,
    List.append_assoc]

/-- Of an exact tensor with a leading dimension the bytes are so many rows. -/
theorem ExactBytes.rows {tensor : InputTensor} {leading : Int} (hexact : ExactBytes tensor)
    (hleading : tensor.shape.head? = some leading) : (tensor.bytes.length : Int) = leading * rowSize tensor := by
  obtain ⟨rest, hshape⟩ := List.head?_eq_some_iff.mp hleading
  rw [ExactBytes, hshape, List.prod_cons] at hexact
  rw [hexact, rowSize, hshape, List.tail_cons, Int.mul_assoc]

/-- Merging leaves the size of a row. -/
theorem rowSize_merged (requests : List ExecutionRequest) (total : Int) (tensor : InputTensor) :
    rowSize (mergedTensor requests total tensor) = rowSize tensor := by
  cases hshape : tensor.shape with
  | nil => simp [rowSize, mergedTensor, hshape]
  | cons first rest => simp [rowSize, mergedTensor, hshape]

/-- An input keeps its layout exactly when each request's batch size is the
number of its rows. -/
theorem keepsLayout_iff (hcompatible : ∀ request ∈ others, areBatchCompatible front request = true)
    (hmem : input ∈ front.inputs)
    (hfound : ∀ request ∈ front :: others, (findInputByName request input.name).isSome = true)
    (hexact : ∀ request ∈ front :: others, ∀ input ∈ request.inputs, ExactBytes input) :
    KeepsLayout (front :: others) ((front :: others).map batchSize)
        (mergedTensor (front :: others) (wrapInt64 (sumSizes ((front :: others).map batchSize)))
          (matching input front)) ↔
      LeadsWithRows (front :: others) (matching input front) := by
  obtain ⟨hfind, hname⟩ := matching_name (hfound front List.mem_cons_self)
  have hmatching : ∀ request ∈ front :: others, matching (matching input front) request = matching input request := by
    intro request hrequest
    rw [matching, hname, (matching_name (hfound request hrequest)).1]
    rfl
  have hown : ∀ request ∈ front :: others,
      payload [request] (matching input front).name = (matching input request).bytes := by
    intro request hrequest
    rw [hname, payload, List.flatMap_singleton, (matching_name (hfound request hrequest)).1]
    rfl
  have hrows : ∀ request ∈ front :: others, ∀ leading, (matching input request).shape.head? = some leading →
      ((payload [request] (matching input front).name).length : Int) = leading * rowSize (matching input front) := by
    intro request hrequest leading hleading
    obtain ⟨hinput, hrow, -⟩ := matching_fits hcompatible hmem hrequest hfound
    rw [hown request hrequest, (hexact request hrequest _ hinput).rows hleading, hrow]
  have hhead : (matching input front).shape ≠ [] → ∀ request ∈ front :: others,
      ∃ leading, (matching input request).shape.head? = some leading := by
    intro hshape request hrequest
    obtain ⟨first, rest, hcons⟩ :=
      List.exists_cons_of_ne_nil ((matching_fits hcompatible hmem hrequest hfound).2.2.2 hshape)
    exact ⟨first, by rw [hcons, List.head?_cons]⟩
  constructor
  · intro hkeeps
    have hshape : (matching input front).shape ≠ [] := by
      intro hnone
      exact hkeeps.leading (by rw [mergedTensor, hnone, List.set_nil])
    refine ⟨hshape, ?_⟩
    by_cases hempty : rowSize (matching input front) = 0
    · exact .inl hempty
    · right
      have hsizes : ∀ request ∈ front :: others,
          ((payload [request] (matching input front).name).length : Int) =
            batchSize request * rowSize (matching input front) := by
        intro request hrequest
        obtain ⟨before, after, hsplit⟩ := List.append_of_mem hrequest
        have hpart := (hkeeps.parts before request after hsplit).2.2
        rw [(map_at batchSize hsplit).2, rowSize_merged] at hpart
        exact hpart
      constructor
      · have hleading : (mergedTensor (front :: others) (wrapInt64 (sumSizes ((front :: others).map batchSize)))
            (matching input front)).shape.head? = some (wrapInt64 (sumSizes ((front :: others).map batchSize))) := by
          obtain ⟨first, rest, hcons⟩ := List.exists_cons_of_ne_nil hshape
          rw [mergedTensor, hcons, List.set_cons_zero, List.head?_cons]
        have htotal := hkeeps.exact.rows hleading
        rw [rowSize_merged, mergedTensor, length_payload hsizes] at htotal
        have hequal := Int.eq_of_mul_eq_mul_right hempty htotal
        unfold wrapInt64 at hequal
        omega
      · intro request hrequest
        obtain ⟨leading, hleading⟩ := hhead hshape request hrequest
        have hequal := hrows request hrequest leading hleading
        rw [hsizes request hrequest] at hequal
        rw [hmatching request hrequest, hleading, Int.eq_of_mul_eq_mul_right hempty hequal]
  · rintro ⟨hshape, hleads⟩
    have hsizes : ∀ request ∈ front :: others,
        ((payload [request] (matching input front).name).length : Int) =
          batchSize request * rowSize (matching input front) := by
      intro request hrequest
      obtain ⟨leading, hleading⟩ := hhead hshape request hrequest
      rw [hrows request hrequest leading hleading]
      cases hleads with
      | inl hempty => rw [hempty, Int.mul_zero, Int.mul_zero]
      | inr hsized =>
        have hsize := hsized.2 request hrequest
        rw [hmatching request hrequest, hleading, Option.some.injEq] at hsize
        rw [hsize]
    refine ⟨?_, ?_, ?_⟩
    · intro hnone
      exact hshape (List.length_eq_zero_iff.mp (by rw [← List.length_set, ← List.length_eq_zero_iff.mpr hnone]; rfl))
    · obtain ⟨first, rest, hcons⟩ := List.exists_cons_of_ne_nil hshape
      have hproduct : (((front :: others).map batchSize).sum : Int) * rowSize (matching input front) =
          wrapInt64 (sumSizes ((front :: others).map batchSize)) * rowSize (matching input front) := by
        cases hleads with
        | inl hempty => rw [hempty, Int.mul_zero, Int.mul_zero]
        | inr hsized => rw [sumSizes_of_lt (by omega), wrapInt64_natCast hsized.1]
      rw [ExactBytes, mergedTensor, length_payload hsizes, hproduct, hcons, List.set_cons_zero, List.prod_cons, rowSize,
        hcons, List.tail_cons, Int.mul_assoc]
    · intro before request after hsplit
      have hbefore : ∀ other ∈ before, ((payload [other] (matching input front).name).length : Int) =
          batchSize other * rowSize (matching input front) := by
        intro other hother
        apply hsizes
        rw [hsplit]
        exact List.mem_append_left _ hother
      have hrequest : request ∈ front :: others := by
        rw [hsplit]
        exact List.mem_append_right before List.mem_cons_self
      obtain ⟨htake, hsize⟩ := map_at batchSize hsplit
      rw [rowSize_merged, htake, hsize]
      exact ⟨payload_split hsplit _, length_payload hbefore, hsizes request hrequest⟩

/-- Merged inputs keep the layout of the requests' exactly when each leads with
the rows its request counts for. These are the rows of the request's first
input, so that an input which leads with others does not. -/
theorem merge_keeps_layout_iff {merged : MergedBatch}
    (hexact : ∀ request ∈ requests, ∀ input ∈ request.inputs, ExactBytes input)
    (hmerge : mergeExecutionRequests requests = .ok merged) :
    (∀ input ∈ merged.request.inputs, KeepsLayout requests merged.batch_sizes input) ↔
      ∀ front ∈ requests.head?, ∀ input ∈ front.inputs, LeadsWithRows requests (matching input front) := by
  obtain ⟨front, others, rfl, hsizes, hcompatible, hfound, hinputs⟩ := mergeExecutionRequests_inv hmerge
  rw [hinputs, hsizes]
  constructor
  · intro hkeeps first hfirst input hmem
    cases hfirst
    exact (keepsLayout_iff hcompatible hmem (hfound input hmem) hexact).mp (hkeeps _ (List.mem_map_of_mem hmem))
  · intro hleads merged hmem
    obtain ⟨input, hinput, rfl⟩ := List.mem_map.mp hmem
    exact (keepsLayout_iff hcompatible hinput (hfound input hinput) hexact).mpr (hleads front rfl input hinput)

end Layout

/-- A request with as many rows of one input as of another. -/
def pairedRequest (first second : Nat) : ExecutionRequest where
  inputs := [{ name := "a", datatype := "FP32", shape := [(first : Int), 1], bytes := List.replicate (4 * first) 0 },
    { name := "b", datatype := "FP32", shape := [(second : Int), 1], bytes := List.replicate (4 * second) 0 }]

/-- A pair of requests of one and of two rows. -/
theorem merge_keeps_layout_paired :
    ∃ merged, mergeExecutionRequests [pairedRequest 1 1, pairedRequest 2 2] = .ok merged ∧
      ∀ input ∈ merged.request.inputs, KeepsLayout [pairedRequest 1 1, pairedRequest 2 2] merged.batch_sizes input := by
  refine ⟨_, rfl, ?_⟩
  refine (merge_keeps_layout_iff ?_ rfl).mpr ?_
  · unfold ExactBytes
    decide +kernel
  · unfold LeadsWithRows
    decide +kernel

/-- Of two rows of the second input in each of two requests, the merged input says
that there are two in all. -/
theorem uneven_layout_lost :
    (∀ request ∈ [pairedRequest 1 2, pairedRequest 1 2], ∀ input ∈ request.inputs, ExactBytes input) ∧
      ∃ merged, mergeExecutionRequests [pairedRequest 1 2, pairedRequest 1 2] = .ok merged ∧
        ¬ ∀ input ∈ merged.request.inputs,
          KeepsLayout [pairedRequest 1 2, pairedRequest 1 2] merged.batch_sizes input := by
  refine ⟨by unfold ExactBytes; decide +kernel, _, rfl, ?_⟩
  intro hkeeps
  have hexact := (hkeeps _ (List.mem_cons_of_mem _ List.mem_cons_self)).exact
  revert hexact
  unfold ExactBytes
  decide +kernel

end neuriplo.batch
