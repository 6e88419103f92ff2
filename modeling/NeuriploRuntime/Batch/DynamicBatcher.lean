import NeuriploRuntime.Batch.Compatibility
import NeuriploRuntime.Fallible.Except
import NeuriploRuntime.Scheduler.Config

open neuriplo.scheduler neuriplo.tensor fallible

namespace neuriplo.batch

def shouldDispatchBatchSize (merged_batch_dimension : Nat) (config : DynamicBatchingConfig) (delay_elapsed : Bool) :
    Bool :=
  if merged_batch_dimension = 0 then false
  else if config.max_batch_size ≤ merged_batch_dimension then true
  else if config.preferred_batch_sizes.contains merged_batch_dimension then true
  else delay_elapsed

/-- Products of `size_t`; zero for an empty shape. -/
def shapeElementCount (shape : List Int) : Nat :=
  if shape.isEmpty then 0 else shape.foldl (fun count dimension => wrapSize (count * castSize dimension)) 1

/-- The elements of one row. -/
def sliceElementCount (shape : List Int) : Nat :=
  shape.tail.foldl (fun count dimension => wrapSize (count * castSize dimension)) 1

structure MergedBatch where
  request : ExecutionRequest := {}
  batch_sizes : List Nat := []
deriving DecidableEq, Repr

def sumSizes (batch_sizes : List Nat) : Nat := batch_sizes.foldl (fun total size => wrapSize (total + size)) 0

/-- The first tensor, with the rows and the bytes of all. -/
def mergeInputTensors (inputs : List InputTensor) (front : InputTensor) (batch_sizes : List Nat) : InputTensor :=
  { front with
    shape := front.shape.set 0 (wrapInt64 (sumSizes batch_sizes))
    bytes := inputs.flatMap (·.bytes) }

/-- One merged input for each input of the first request. -/
def mergeInputs (requests : List ExecutionRequest) (batch_sizes : List Nat) :
    List InputTensor → Except String (List InputTensor)
  | [] => .ok []
  | reference_input :: reference_inputs => do
    let matching_inputs ← requests.mapM fun request =>
      match findInputByName request reference_input.name with
      | none => .error "input name mismatch during merge"
      | some found => .ok found
    let merged := mergeInputTensors matching_inputs (matching_inputs.head?.getD reference_input) batch_sizes
    return merged :: (← mergeInputs requests batch_sizes reference_inputs)

def mergeExecutionRequests (requests : List ExecutionRequest) : Except String MergedBatch :=
  match requests with
  | [] => .error "batch requires at least one request"
  | front :: others =>
    if requests.any (·.inputs.isEmpty) then .error "request missing inputs"
    else
      let batch_sizes := requests.map fun request => castSize (requestBatchSize request)
      match others.findSome? (batchCompatibilityError front) with
      | some error => .error error
      | none => do
        let inputs ← mergeInputs requests batch_sizes front.inputs
        return { request := { inputs, requested_outputs := front.requested_outputs }, batch_sizes }

def splitFailure (error_message : String) : ExecutionResponse where
  ok := false
  error_code := "BACKEND_ERROR"
  error_message

/-- `std::length_error`: `assign` was given a range that ends before it starts. -/
inductive LengthError where
  | thrown
deriving DecidableEq, Repr

/-- What ends the split for a request: a check that fails, or an exception. -/
inductive SplitError where
  | failed (response : ExecutionResponse)
  | threw (error : LengthError)
deriving DecidableEq, Repr

/-- The rows of one output that belong to one request. -/
def splitOutput (output : OutputTensor) (expected_batch_dim batch_offset request_batch : Nat) :
    Except SplitError OutputTensor :=
  let shape := if output.shape.isEmpty then output.shape else output.shape.set 0 (wrapInt64 request_batch)
  let element_size := tensorElementSize output.datatype
  let slice_elements := sliceElementCount output.shape
  let start := wrapSize (wrapSize (batch_offset * slice_elements) * element_size)
  let finish := wrapSize (start + wrapSize (wrapSize (request_batch * slice_elements) * element_size))
  if !output.shape.isEmpty && castSize (output.shape.headD 0) ≠ expected_batch_dim then
    .error (.failed (splitFailure "batched output batch dimension mismatch"))
  else if element_size = 0 || wrapSize (shapeElementCount output.shape * element_size) ≠ output.bytes.length then
    .error (.failed (splitFailure "batched output data size mismatch"))
  else if slice_elements = 0 then .error (.failed (splitFailure "batched output slice size mismatch"))
  else if output.bytes.length < start || output.bytes.length < finish then
    .error (.failed (splitFailure "batched output size mismatch"))
  else if finish < start then .error (.threw .thrown)
  else
    let bytes := (output.bytes.drop start).take (finish - start)
    if wrapSize (shapeElementCount shape * element_size) ≠ bytes.length then
      .error (.failed (splitFailure "batched output slice data size mismatch"))
    else .ok { name := output.name, datatype := output.datatype, shape, bytes }

/-- The part of a batched response that belongs to the request at an index. -/
def splitResponse (batched : ExecutionResponse) (batch_sizes : List Nat) (request_index : Nat) :
    Except LengthError ExecutionResponse :=
  let batch_offset := sumSizes (batch_sizes.take request_index)
  let request_batch := batch_sizes.getD request_index 0
  match batched.outputs.mapM fun output => splitOutput output (sumSizes batch_sizes) batch_offset request_batch with
  | .error (.threw error) => .error error
  | .error (.failed response) => .ok response
  | .ok outputs => .ok { outputs }

def splitExecutionResponse (batched : ExecutionResponse) (batch_sizes : List Nat)
    (source_requests : List ExecutionRequest) : Except LengthError (List ExecutionResponse) :=
  if !batched.ok then .ok (source_requests.map fun _ => batched)
  else (List.range source_requests.length).mapM (splitResponse batched batch_sizes)

/-- A response is split into one for each request. -/
theorem splitExecutionResponse_length {batched : ExecutionResponse} {batch_sizes : List Nat}
    {source_requests : List ExecutionRequest} {responses : List ExecutionResponse}
    (hsplit : splitExecutionResponse batched batch_sizes source_requests = .ok responses) :
    responses.length = source_requests.length := by
  unfold splitExecutionResponse at hsplit
  split at hsplit
  · cases hsplit
    exact List.length_map _
  · rw [← (mapM_inv hsplit).length_eq, List.length_range]

end neuriplo.batch
