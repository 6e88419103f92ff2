import NeuriploRuntime.Tensor.Bytes

open neuriplo.tensor

namespace neuriplo.batch

/-- The leading dimension of the first input. -/
def requestBatchSize (request : ExecutionRequest) : Int :=
  match request.inputs with
  | [] => 1
  | input :: _ => input.shape.head?.getD 1

def shapesMatchExceptBatch (left right : List Int) : Bool :=
  left.length = right.length && left.tail = right.tail

def findInputByName (request : ExecutionRequest) (name : String) : Option InputTensor :=
  request.inputs.find? (·.name = name)

/-- What stands between one input of the left request and the right request. -/
def inputCompatibilityError (right : ExecutionRequest) (left_input : InputTensor) : Option String :=
  match findInputByName right left_input.name with
  | none => some "input name mismatch"
  | some right_input =>
    if left_input.datatype ≠ right_input.datatype then some "input datatype mismatch"
    else if left_input.shape.isEmpty || right_input.shape.isEmpty then some "input shape missing batch dimension"
    else if !shapesMatchExceptBatch left_input.shape right_input.shape then some "input shape mismatch"
    else if left_input.shape.length ≠ right_input.shape.length then some "input rank mismatch"
    else none

def batchCompatibilityError (left right : ExecutionRequest) : Option String :=
  if left.inputs.any (isBytesDatatype ·.datatype) then some "BYTES tensors are not batch-compatible"
  else if right.inputs.any (isBytesDatatype ·.datatype) then some "BYTES tensors are not batch-compatible"
  else if left.inputs.length ≠ right.inputs.length then some "input count mismatch"
  else if left.requested_outputs ≠ right.requested_outputs then some "requested output mismatch"
  else
    match left.inputs.findSome? (inputCompatibilityError right) with
    | some error => some error
    | none =>
      if right.inputs.any fun right_input => (findInputByName left right_input.name).isNone then
        some "input name mismatch"
      else none

def areBatchCompatible (left right : ExecutionRequest) : Bool := (batchCompatibilityError left right).isNone

end neuriplo.batch
