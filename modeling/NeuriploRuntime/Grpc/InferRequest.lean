import NeuriploRuntime.Codec.Json
import NeuriploRuntime.Tensor.Execution

open neuriplo.tensor neuriplo.codec

namespace neuriplo.grpc_v2

structure InferTensorContents where
  bool_contents : List Bool := []
  int_contents : List Int32 := []
  int64_contents : List Int64 := []
  uint_contents : List UInt32 := []
  uint64_contents : List UInt64 := []
  fp32_contents : List ℚ := []
  fp64_contents : List ℚ := []
  bytes_contents : List String := []
deriving DecidableEq

inductive InferParameter where
  | bool_param (value : Bool)
  | int64_param (value : Int64)
  | string_param (value : String)
  | double_param (value : ℚ)
  | int64_array_param (values : List Int64)
  | string_array_param (values : List String)

/-- A choice that was not made reads as zero. -/
def InferParameter.int64 : InferParameter → Int64
  | .int64_param value => value
  | _ => 0

def InferParameter.double : InferParameter → ℚ
  | .double_param value => value
  | _ => 0

def InferParameter.bool : InferParameter → Bool
  | .bool_param value => value
  | _ => false

structure InferInputTensor where
  name : String := ""
  datatype : String := ""
  shape : List Int64 := []
  contents : InferTensorContents := {}

structure ModelInferRequest where
  model_name : String := ""
  id : String := ""
  parameters : List (String × InferParameter) := []
  inputs : List InferInputTensor := []
  outputs : List String := []
  raw_input_contents : List (List UInt8) := []

variable (lib : JsonLibrary)

/-- The values of the first field that is not empty, in the tensor's element type. -/
def contentsBytes (datatype : String) (contents : InferTensorContents) : List UInt8 :=
  if contents.fp64_contents ≠ [] then lib.typedReals datatype contents.fp64_contents
  else if contents.fp32_contents ≠ [] then lib.typedReals datatype contents.fp32_contents
  else if contents.int64_contents ≠ [] then lib.typedIntegers datatype (contents.int64_contents.map (·.toInt))
  else if contents.int_contents ≠ [] then lib.typedIntegers datatype (contents.int_contents.map (·.toInt))
  else if contents.uint64_contents ≠ [] then
    lib.typedIntegers datatype (contents.uint64_contents.map fun value => (value.toNat : Int))
  else if contents.uint_contents ≠ [] then
    lib.typedIntegers datatype (contents.uint_contents.map fun value => (value.toNat : Int))
  else []

/-- An input with its raw contents, when the message has an entry for it. -/
def convertInput (proto_input : InferInputTensor) (raw : Option (List UInt8)) : InputTensor :=
  let tensor : InputTensor :=
    { name := proto_input.name, datatype := proto_input.datatype, shape := proto_input.shape.map (·.toInt) }
  if isBytesDatatype proto_input.datatype then { tensor with string_data := proto_input.contents.bytes_contents }
  else
    match raw with
    | some raw => { tensor with bytes := raw }
    | none => { tensor with bytes := contentsBytes lib proto_input.datatype proto_input.contents }

def convertParameters (parameters : List (String × InferParameter)) : LlmGenerationParams where
  max_tokens := (parameters.lookup "max_tokens").map fun value => castSize value.int64.toInt
  temperature := (parameters.lookup "temperature").map (·.double)
  top_p := (parameters.lookup "top_p").map (·.double)
  top_k := (parameters.lookup "top_k").map fun value => castSize value.int64.toInt
  streaming := ((parameters.lookup "stream").map (·.bool)).getD false

def convertInferRequest (proto_request : ModelInferRequest) : ExecutionRequest where
  id := if proto_request.id = "" then none else some proto_request.id
  inputs := proto_request.inputs.zipIdx.map fun (proto_input, input_index) =>
    convertInput lib proto_input proto_request.raw_input_contents[input_index]?
  requested_outputs := proto_request.outputs
  llm_params := if proto_request.parameters = [] then none else some (convertParameters proto_request.parameters)

end neuriplo.grpc_v2
