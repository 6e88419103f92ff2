import NeuriploRuntime.Batch.Responses
import NeuriploRuntime.Batch.Separation

open neuriplo.tensor rows

namespace neuriplo.batch

section Idle

variable {front request : ExecutionRequest} {others : List ExecutionRequest}

/-- Requests that have no data where their shapes ask for some, and whose leading
dimensions add up to one of them modulo `2 ^ 64`. -/
structure Idle (requests : List ExecutionRequest) : Prop where
  params : ∀ request ∈ requests, request.llm_params = none
  unfilled : ∀ request ∈ requests, ∃ input ∈ request.inputs, ¬ Filled input
  empty : ∀ request ∈ requests, ∀ input ∈ request.inputs, input.bytes = []
  leading : ∃ leading : Int, wrapInt64 (requests.length * leading) = leading ∧
    ∀ request ∈ requests, ∀ input ∈ request.inputs, input.shape.head? = some leading

theorem wrapInt64_congr {left right : Int} (hmod : left % 2 ^ 64 = right % 2 ^ 64) :
    wrapInt64 left = wrapInt64 right := by
  unfold wrapInt64
  omega

/-- Requests of one size merge to a multiple of it. -/
theorem mergedLeading_replicate {requests : List ExecutionRequest} {leading : Int}
    (hleading : ∀ request ∈ requests, requestBatchSize request = leading) :
    mergedLeading requests = wrapInt64 (requests.length * leading) := by
  have hsizes : requests.map (fun request => castSize (requestBatchSize request)) =
      List.replicate requests.length (castSize leading) := by
    rw [List.eq_replicate_iff]
    refine ⟨List.length_map _, ?_⟩
    intro size hmem
    obtain ⟨request, hrequest, rfl⟩ := List.mem_map.mp hmem
    rw [hleading request hrequest]
  have hcast : ((castSize leading : Nat) : Int) = leading % 2 ^ 64 :=
    Int.toNat_of_nonneg (Int.emod_nonneg _ (by decide))
  have hmod : ((wrapSize (requests.length * castSize leading) : Nat) : Int) =
      (requests.length * leading) % 2 ^ 64 := by
    rw [wrapSize, Int.natCast_mod, Nat.cast_mul, hcast, Int.mul_emod]
    rw [Int.mul_emod (requests.length : Int) leading]
    exact congrArg (fun factor => _ * factor % _) (Int.emod_emod_of_dvd _ (dvd_refl _))
  rw [mergedLeading, hsizes, sumSizes_eq, List.sum_replicate_nat, hmod]
  apply wrapInt64_congr
  exact Int.emod_emod_of_dvd _ (dvd_refl _)

/-- The batch size of a request is its inputs' leading dimension. -/
theorem requestBatchSize_of_leading {leading : Int} (hnonempty : request.inputs ≠ [])
    (hleading : ∀ input ∈ request.inputs, input.shape.head? = some leading) : requestBatchSize request = leading := by
  unfold requestBatchSize
  split
  · rename_i hnone
    exact absurd hnone hnonempty
  · rename_i input inputs hinputs
    rw [hleading input (by rw [hinputs]; exact List.mem_cons_self), Option.getD_some]

/-- An executor cannot tell idle requests from their merge. -/
theorem Idle.sameCall (hidle : Idle (front :: others)) (hgroup : Group front others)
    (hrequest : request ∈ front :: others) :
    SameCall (mergedRequest front others) request := by
  obtain ⟨leading, hwrap, hleading⟩ := hidle.leading
  have hmerged : mergedLeading (front :: others) = leading := by
    rw [mergedLeading_replicate, hwrap]
    intro other hmem
    exact requestBatchSize_of_leading (hgroup.nonempty other hmem) (hleading other hmem)
  have hinputs : (mergedRequest front others).inputs = front.inputs.map (matching · request) := by
    apply List.map_congr_left
    intro input hmem
    obtain ⟨hfind, hmatches⟩ := hgroup.found hrequest hmem
    have hfound := (findInputByName_some hfind).1
    have hbytes := hgroup.notBytes hmem
    have hpayload : payload (front :: others) input.name = (matching input request).bytes := by
      rw [hidle.empty request hrequest _ hfound, payload, List.flatMap_eq_nil_iff]
      intro other hother
      obtain ⟨hfindOther, -⟩ := hgroup.found hother hmem
      rw [hfindOther, Option.map_some, Option.getD_some]
      exact hidle.empty other hother _ (findInputByName_some hfindOther).1
    have hshape : input.shape.set 0 leading = (matching input request).shape := by
      obtain ⟨rest, hrest⟩ := List.head?_eq_some_iff.mp (hleading request hrequest _ hfound)
      rw [← hmatches.set_shape, hrest, List.set_cons_zero]
    have hstrings : input.string_data = (matching input request).string_data := by
      rw [hgroup.strings front List.mem_cons_self input hmem hbytes, hgroup.strings request hrequest _ hfound]
      rw [hmatches.datatype]
      exact hbytes
    rw [mergedTensor, hpayload, hmerged, hshape, hstrings, ← hmatches.name, ← hmatches.datatype]
  refine ⟨?_, hgroup.requested_outputs_eq hrequest, (hidle.params request hrequest).symm⟩
  rw [hinputs]
  exact hgroup.inputs_perm hrequest

/-- A merge repeats no name. -/
theorem Group.names_merged (hgroup : Group front others) :
    ((mergedRequest front others).inputs.map (·.name)).Nodup := by
  rw [mergedRequest, List.map_map]
  exact hgroup.names front List.mem_cons_self

/-- A batch of idle requests is the call of each, and is rejected as each is. -/
theorem Idle.batchResponses_eq {infer : ExecutionRequest → ExecutionResponse} {admits : Nat → Prop}
    (hidle : Idle (front :: others)) (hgroup : Group front others) (hwise : RowWise infer admits) :
    batchResponses infer (front :: others) = .ok ((front :: others).map infer) := by
  have hinfer : ∀ request ∈ front :: others, infer (mergedRequest front others) = infer request := by
    intro request hrequest
    exact hwise.unordered _ _ hgroup.names_merged (hidle.sameCall hgroup hrequest)
  have hfailed : (infer (mergedRequest front others)).ok = false := by
    rw [hinfer front List.mem_cons_self]
    exact hwise.rejects front (hidle.unfilled front List.mem_cons_self)
  rw [hgroup.batchResponses_eq, splitExecutionResponse_failed hfailed]
  exact congrArg Except.ok (List.map_congr_left hinfer)

end Idle

end neuriplo.batch
