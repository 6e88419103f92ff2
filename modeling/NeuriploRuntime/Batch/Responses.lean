import NeuriploRuntime.Batch.Merging
import NeuriploRuntime.Batch.Slices
import NeuriploRuntime.Batch.Step

open neuriplo.scheduler neuriplo.tensor fallible

namespace neuriplo.batch

/-- What `processBatch` has for the requests of a batch: a response for each, or
the exception that ends the split. -/
def batchResponses (infer : ExecutionRequest → ExecutionResponse) (requests : List ExecutionRequest) :
    Except LengthError (List ExecutionResponse) :=
  match requests with
  | [] => .ok []
  | [request] => .ok [infer request]
  | requests =>
    match mergeExecutionRequests requests with
    | .error error => .ok (requests.map fun _ => (makeExecutorFailureResult error).response)
    | .ok merged => splitExecutionResponse (infer merged.request) merged.batch_sizes requests

/-- What an executor is handed for a job. -/
def State.jobRequest {setup : Setup} (s : State setup) : Job → ExecutionRequest
  | .single request => (s.pending request).request
  | .batched _ merged => merged.request

/-- The response that a step settles a request with. -/
def WorkerOp.response : WorkerOp → Option ExecutionResponse
  | .checkCancelled _ _ _ response => some response
  | .settle _ _ _ _ response => some response
  | _ => none

/-- The responses that a worker has for its batch, unless it throws. -/
def WorkerPc.responses : WorkerPc → Except LengthError (List ExecutionResponse)
  | .finishing ops => .ok (ops.filterMap WorkerOp.response)
  | .throwing _ _ => .error .thrown
  | _ => .ok []

/-- The steps that settle a batch carry its responses in order. -/
theorem zipWith_settle_response {active_batch : List Nat} {responses : List ExecutionResponse}
    (hlength : responses.length = active_batch.length) (execution_started execution_finished : Int) (size : Nat) :
    (List.zipWith (fun request => WorkerOp.settle request execution_started execution_finished size) active_batch
      responses).filterMap WorkerOp.response = responses := by
  induction active_batch generalizing responses with
  | nil => rw [List.length_eq_zero_iff.mp hlength, List.zipWith_nil_right, List.filterMap_nil]
  | cons request active_batch ih =>
    cases responses with
    | nil => cases hlength
    | cons response responses =>
      have hresponse : (WorkerOp.settle request execution_started execution_finished size response).response =
          some response := rfl
      rw [List.zipWith_cons_cons, List.filterMap_cons_some hresponse, ih (Nat.succ.inj hlength)]

/-- A worker settles the requests of a batch with its responses, whether it takes
them to an executor together or one alone. -/
theorem settled_responses {setup : Setup} (s : State setup) (infer : ExecutionRequest → ExecutionResponse)
    {active_batch : List Nat} {job : Job}
    (hdispatch : s.dispatch active_batch = .selecting job ∨
      ∃ request, s.dispatch active_batch = .single request ∧ job = .single request)
    (executor_index : Nat) (execution_started : Int) :
    (s.settleJob job executor_index execution_started (infer (s.jobRequest job))).responses =
      batchResponses infer (active_batch.map fun request => (s.pending request).request) := by
  match active_batch with
  | [] =>
    rcases hdispatch with hdispatch | ⟨request, hdispatch, -⟩ <;> cases hdispatch
  | [first] =>
    rcases hdispatch with hdispatch | ⟨request, hdispatch, rfl⟩ <;> cases hdispatch
    rfl
  | first :: second :: rest =>
    simp only [State.dispatch] at hdispatch
    cases hmerged : mergeExecutionRequests
      ((first :: second :: rest).map fun request => (s.pending request).request) with
    | error error =>
      rw [hmerged] at hdispatch
      rcases hdispatch with hdispatch | ⟨request, hdispatch, -⟩ <;> cases hdispatch
    | ok merged =>
      rw [hmerged] at hdispatch
      rcases hdispatch with hdispatch | ⟨request, hdispatch, -⟩ <;> cases hdispatch
      simp only [List.map_cons] at hmerged
      simp only [State.settleJob, State.jobRequest, batchResponses, List.map_cons, hmerged]
      cases hsplit : splitExecutionResponse (infer merged.request) merged.batch_sizes
          ((s.pending first).request :: (s.pending second).request :: rest.map fun request =>
            (s.pending request).request) with
      | error error => rfl
      | ok responses =>
        have hlength := splitExecutionResponse_length hsplit
        simp only [WorkerPc.responses]
        rw [List.filterMap_cons_none rfl, List.filterMap_cons_none rfl, zipWith_settle_response]
        rw [hlength, List.length_cons, List.length_cons, List.length_map, List.length_cons, List.length_cons]

section Split

variable {batched : ExecutionResponse} {batch_sizes : List Nat} {requests : List ExecutionRequest} {index : Nat}

/-- The split answers every request as it should if and only if each of its parts
does. -/
theorem splitExecutionResponse_map_iff {answer : ExecutionRequest → ExecutionResponse} (hok : batched.ok = true) :
    splitExecutionResponse batched batch_sizes requests = .ok (requests.map answer) ↔
      ∀ (index : Nat) request, requests[index]? = some request →
        splitResponse batched batch_sizes index = .ok (answer request) := by
  constructor
  · intro hsplit index request hindex
    have hget : (requests.map answer)[index]? = some (answer request) := by
      rw [List.getElem?_map, hindex, Option.map_some]
    exact ((splitExecutionResponse_get hok hsplit).mp hget).2
  · intro hparts
    rw [splitExecutionResponse_eq hok,
      @mapM_ok _ _ _ _ (fun index => answer (requests.getD index {})) (List.range requests.length)]
    · refine congrArg Except.ok (List.ext_getElem (by simp) ?_)
      intro index hleft hright
      rw [List.length_map] at hright
      rw [List.getElem_map, List.getElem_map, List.getElem_range, List.getD_eq_getElem?_getD,
        List.getElem?_eq_getElem hright, Option.getD_some]
    · intro index hmem
      have hlt := List.mem_range.mp hmem
      rw [hparts index _ (List.getElem?_eq_getElem hlt), List.getD_eq_getElem?_getD, List.getElem?_eq_getElem hlt,
        Option.getD_some]

/-- The failure of the batch is that of each request. -/
theorem splitExecutionResponse_failed (hfailed : batched.ok = false) :
    splitExecutionResponse batched batch_sizes requests = .ok (requests.map fun _ => batched) := by
  rw [splitExecutionResponse, hfailed, Bool.not_false, if_pos rfl]

end Split

/-- A group is answered with the slices of its merge's response. -/
theorem Group.batchResponses_eq {front : ExecutionRequest} {others : List ExecutionRequest}
    (hgroup : Group front others) (infer : ExecutionRequest → ExecutionResponse) :
    batchResponses infer (front :: others) =
      splitExecutionResponse (infer (mergedRequest front others))
        ((front :: others).map fun request => castSize (requestBatchSize request)) (front :: others) := by
  obtain ⟨second, rest, rfl⟩ := List.exists_cons_of_ne_nil hgroup.several
  simp only [batchResponses, hgroup.mergeExecutionRequests_ok]

end neuriplo.batch
