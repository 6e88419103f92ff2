import NeuriploRuntime.Codec.Json
import NeuriploRuntime.Tensor.Metadata

open neuriplo.tensor

namespace neuriplo.codec

/-- A parsed inference request has the fields of the one that is executed. -/
abbrev InferenceRequest := ExecutionRequest

def findTensor (tensors : List TensorMetadata) (name : String) : Option TensorMetadata :=
  tensors.find? (·.name = name)

/-- A negative dimension of the metadata is a dynamic axis and accepts any
extent. -/
def dimensionMatches (dimension : Json) (expected : Int) : Bool :=
  match dimension.int64 with
  | none => false
  | some dimension => 0 ≤ dimension && !(0 ≤ expected && dimension ≠ expected)

def shapeMatches (shape : Json) (metadata : TensorMetadata) : Bool :=
  match shape with
  | .array dimensions =>
    dimensions.length = metadata.shape.length &&
      (List.zipWith dimensionMatches dimensions metadata.shape).all id
  | _ => false

def parseShape (shape : Json) : List Int := (shape.asArray.getD []).filterMap (·.int64)

variable (lib : JsonLibrary)

/-- Parses a JSON number array straight into the tensor's typed bytes. -/
def parseData (data : List Json) (datatype : String) : Option (List UInt8) :=
  if tensorElementSize datatype = 0 then none
  else (data.mapM Json.asNumber).map fun values => lib.typedReals datatype (values.map lib.getDouble)

def parseStringData (data : List Json) : Option (List String) := data.mapM Json.asString

/-- The product of a shape from `count` on, none when it overflows. A dimension
that is not positive ends the loop. -/
def shapeElementCount : Nat → List Int → Option Nat
  | count, [] => some count
  | count, dimension :: shape =>
    if dimension ≤ 0 then some 0
    else if (2 ^ 64 - 1) / dimension.toNat < count then none
    else shapeElementCount (count * dimension.toNat) shape

def parseLlmParameter {α : Type} (parameters : Json) (key : String) (get : Json → Option α) : Option (Option α) :=
  match parameters.field key with
  | none => some none
  | some value => (get value).map some

def parseLlmParameters (parameters : Json) : Option LlmGenerationParams :=
  if !parameters.isObject then none
  else
    let getDouble (json : Json) := json.asNumber.map lib.getDouble
    match parseLlmParameter parameters "max_tokens" (·.asUnsigned),
      parseLlmParameter parameters "temperature" getDouble,
      parseLlmParameter parameters "top_p" getDouble,
      parseLlmParameter parameters "top_k" (·.asUnsigned),
      parseLlmParameter parameters "stream" (·.asBoolean) with
    | some max_tokens, some temperature, some top_p, some top_k, some stream =>
      some { max_tokens, temperature, top_p, top_k, streaming := stream.getD false }
    | _, _, _, _, _ => none

def binaryDataSize (node : Json) : Int :=
  ((node.field "parameters").bind fun params => (params.field "binary_data_size").bind (·.int64)).getD (-1)

def sliceBlob (blob : List UInt8) (offset size : Nat) : Except String (List UInt8) :=
  if blob.length < offset ∨ blob.length - offset < size then
    .error "binary tensor data exceeds request body"
  else .ok ((blob.drop offset).take size)

/-- What an input must say before its data is looked at. -/
structure InputHeader where
  name : String
  datatype : String
  shape : Json

def parseInputHeader (input : Json) : Except String InputHeader :=
  if !input.isObject then .error "each input must be an object"
  else
    match (input.field "name").bind (·.asString) with
    | none => .error "input name must be a string"
    | some name =>
      match (input.field "datatype").bind (·.asString) with
      | none => .error "input datatype must be a string"
      | some datatype =>
        match input.field "shape" with
        | none => .error "input shape is required"
        | some shape =>
          if binaryDataSize input < 0 ∧ ((input.field "data").bind (·.asArray)).isNone then
            .error "input data must be an array"
          else .ok { name, datatype, shape }

/-- The JSON array of an input's data. -/
def inputData (input : Json) : List Json := ((input.field "data").bind (·.asArray)).getD []

/-- An input's name, datatype and shape against the metadata, with the number of
elements the shape asks for. -/
def admitInput (metadata : ModelMetadata) (seen_input_names : List String) (header : InputHeader) :
    Except String Nat :=
  if header.name ∈ seen_input_names then .error ("duplicate input: " ++ header.name)
  else
    match findTensor metadata.inputs header.name with
    | none => .error ("unknown input: " ++ header.name)
    | some metadata_input =>
      if header.datatype ≠ metadata_input.datatype then
        .error ("unsupported datatype for input: " ++ header.name)
      else if !shapeMatches header.shape metadata_input then
        .error ("invalid shape for input: " ++ header.name)
      else
        match shapeElementCount 1 (parseShape header.shape) with
        | none => .error ("input shape element count overflows for input: " ++ header.name)
        | some expected_elements => .ok expected_elements

/-- An input's payload, with the offset of the next one in the binary part of the
body. -/
def decodeInput (header : InputHeader) (input : Json) (expected_elements : Nat) (binary_blob : List UInt8)
    (binary_offset : Nat) : Except String (InputTensor × Nat) :=
  let tensor : InputTensor :=
    { name := header.name, datatype := header.datatype, shape := parseShape header.shape }
  let mismatch := "input data element count mismatch for input: " ++ header.name
  if isBytesDatatype header.datatype then
    if 0 ≤ binaryDataSize input then .error ("binary BYTES input is not supported: " ++ header.name)
    else
      match parseStringData (inputData input) with
      | none => .error ("input data values must be strings for BYTES input: " ++ header.name)
      | some string_data =>
        if string_data ≠ [] ∧ expected_elements ≠ 0 ∧ string_data.length ≠ expected_elements then .error mismatch
        else .ok ({ tensor with string_data }, binary_offset)
  else if 0 ≤ binaryDataSize input then
    let byte_count := (binaryDataSize input).toNat
    match sliceBlob binary_blob binary_offset byte_count with
    | .error message => .error message
    | .ok bytes =>
      if expected_elements ≠ 0 ∧ tensorElementCount header.datatype bytes ≠ expected_elements then .error mismatch
      else .ok ({ tensor with bytes }, binary_offset + byte_count)
  else
    match parseData lib (inputData input) header.datatype with
    | none => .error ("input data values must be numbers for input: " ++ header.name)
    | some bytes =>
      if bytes ≠ [] ∧ expected_elements ≠ 0 ∧ tensorElementCount header.datatype bytes ≠ expected_elements then
        .error mismatch
      else .ok ({ tensor with bytes }, binary_offset)

def parseInput (metadata : ModelMetadata) (binary_blob : List UInt8) (seen_input_names : List String)
    (binary_offset : Nat) (input : Json) : Except String (InputTensor × Nat) :=
  match parseInputHeader input with
  | .error message => .error message
  | .ok header =>
    match admitInput metadata seen_input_names header with
    | .error message => .error message
    | .ok expected_elements => decodeInput lib header input expected_elements binary_blob binary_offset

/-- The loop over the inputs: the names seen and the binary offset go along. -/
def parseInputs (metadata : ModelMetadata) (binary_blob : List UInt8) :
    List String → Nat → List Json → Except String (List InputTensor × Nat)
  | _, binary_offset, [] => .ok ([], binary_offset)
  | seen_input_names, binary_offset, input :: inputs =>
    match parseInput lib metadata binary_blob seen_input_names binary_offset input with
    | .error message => .error message
    | .ok (tensor, next_offset) =>
      match parseInputs metadata binary_blob (seen_input_names ++ [tensor.name]) next_offset inputs with
      | .error message => .error message
      | .ok (tensors, end_offset) => .ok (tensor :: tensors, end_offset)

def allOutputNames (metadata : ModelMetadata) : List String := metadata.outputs.map (·.name)

def parseOutput (metadata : ModelMetadata) (output : Json) : Except String String :=
  if !output.isObject then .error "each output must be an object"
  else
    match (output.field "name").bind (·.asString) with
    | none => .error "output name must be a string"
    | some name =>
      if (findTensor metadata.outputs name).isNone then .error ("unknown output: " ++ name) else .ok name

def parseOutputs (metadata : ModelMetadata) (root : Json) : Except String (List String) :=
  match root.field "outputs" with
  | none => .ok (allOutputNames metadata)
  | some (.array outputs) => outputs.mapM (parseOutput metadata)
  | some _ => .error "outputs must be an array"

/-- The part of the request behind its id and its inputs. -/
def parseRest (metadata : ModelMetadata) (root : Json) (id : Option String) (inputs : List InputTensor) :
    Except String InferenceRequest :=
  match parseOutputs metadata root with
  | .error message => .error message
  | .ok requested_outputs =>
    match root.field "parameters" with
    | none => .ok { id, inputs, requested_outputs }
    | some parameters =>
      match parseLlmParameters lib parameters with
      | none => .error "invalid generation parameters"
      | some params => .ok { id, inputs, requested_outputs, llm_params := some params }

def parseId (root : Json) : Except String (Option String) :=
  match root.field "id" with
  | none => .ok none
  | some (.string id) => .ok (some id)
  | some _ => .error "request id must be a string"

/-- A request whose JSON part is parsed and whose binary part is apart. -/
def parseRoot (metadata : ModelMetadata) (binary_blob : List UInt8) (root : Json) : Except String InferenceRequest :=
  if !root.isObject then .error "inference request body must be a JSON object"
  else
    match parseId root with
    | .error message => .error message
    | .ok id =>
      match (root.field "inputs").bind (·.asArray) with
      | none => .error "inputs must be an array"
      | some [] => .error "inputs must not be empty"
      | some nodes =>
        match parseInputs lib metadata binary_blob [] 0 nodes with
        | .error message => .error message
        | .ok (inputs, binary_offset) =>
          if binary_offset ≠ binary_blob.length then .error "unused binary tensor data in request body"
          else
            match metadata.inputs.find? fun expected_input => expected_input.name ∉ inputs.map (·.name) with
            | some expected_input => .error ("missing required input: " ++ expected_input.name)
            | none => parseRest lib metadata root id inputs

/-- Parses the body of an inference request: `header_length` bytes of JSON, then
the binary data of its inputs. -/
def parseInferenceRequest (body : List UInt8) (metadata : ModelMetadata) (header_length : Nat) :
    Except String InferenceRequest :=
  if body.length < header_length then .error "binary inference header exceeds request body"
  else
    match lib.parse (body.take header_length) with
    | none => .error "invalid JSON request body"
    | some root => parseRoot lib metadata (body.drop header_length) root

/-- A body without a header length is JSON as a whole and is written out once
more before it is read. -/
def parseJsonInferenceRequest (body : List UInt8) (metadata : ModelMetadata) : Except String InferenceRequest :=
  match lib.parse body with
  | none => .error "invalid JSON request body"
  | some root => parseInferenceRequest lib (lib.dump root) metadata (lib.dump root).length

end neuriplo.codec
