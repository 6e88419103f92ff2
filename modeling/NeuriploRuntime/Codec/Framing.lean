import NeuriploRuntime.Codec.Acceptance
import NeuriploRuntime.Codec.OutputTensor

open neuriplo.tensor

namespace neuriplo.codec

def tensorHeader (tensor : OutputTensor) : List (String × Json) :=
  [("name", .string tensor.name), ("datatype", .string tensor.datatype),
    ("shape", .array (tensor.shape.map jsonInteger))]

/-- The node of an output, and the blob with its bytes behind. -/
def binaryOutputTensorJson (tensor : OutputTensor) (blob : List UInt8) : Json × List UInt8 :=
  if isBytesDatatype tensor.datatype then
    (.object (tensorHeader tensor ++ [("data", .array (tensor.string_data.map .string))]), blob)
  else
    (.object (tensorHeader tensor ++
      [("parameters", .object [("binary_data_size", .number (.unsigned tensor.bytes.length))])]), blob ++ tensor.bytes)

/-- The loop over the outputs: the nodes and the blob grow. -/
def binaryOutputs (written : List Json × List UInt8) (tensor : OutputTensor) : List Json × List UInt8 :=
  let (node, blob) := binaryOutputTensorJson tensor written.2
  (written.1 ++ [node], blob)

structure BinaryInferenceResponse where
  body : List UInt8
  header_length : Nat

def responseHeader (model_name model_version : String) (request : InferenceRequest) (outputs : List Json) : Json :=
  .object ([("model_name", .string model_name), ("model_version", .string model_version)] ++
    (request.id.map fun id => ("id", Json.string id)).toList ++ [("outputs", .array outputs)])

def inferenceResponseBinary (lib : JsonLibrary) (model_name model_version : String) (request : InferenceRequest)
    (response : ExecutionResponse) : BinaryInferenceResponse :=
  let (outputs, blob) := response.outputs.foldl binaryOutputs ([], [])
  let body := lib.dump (responseHeader model_name model_version request outputs)
  { body := body ++ blob, header_length := body.length }

/-- What the loop has written in the end. -/
theorem foldl_binaryOutputs (outputs : List OutputTensor) (written : List Json × List UInt8) :
    outputs.foldl binaryOutputs written =
      (written.1 ++ outputs.map fun tensor => (binaryOutputTensorJson tensor []).1,
        written.2 ++ outputs.flatMap fun tensor => (binaryOutputTensorJson tensor []).2) := by
  induction outputs generalizing written with
  | nil => simp
  | cons tensor outputs ih =>
    rw [List.foldl_cons, ih, binaryOutputs]
    unfold binaryOutputTensorJson
    by_cases hbytes : isBytesDatatype tensor.datatype <;> simp [hbytes, List.append_assoc]

variable (lib : JsonLibrary)

/-- The tensors of a list of nodes, with no metadata to compare them with: each takes its
`binary_data_size` bytes of the blob. -/
def readTensors (binary_blob : List UInt8) : Nat → List Json → Except String (List InputTensor × Nat)
  | binary_offset, [] => .ok ([], binary_offset)
  | binary_offset, node :: nodes =>
    match parseInputHeader node with
    | .error message => .error message
    | .ok header =>
      match decodeInput lib header node 0 binary_blob binary_offset with
      | .error message => .error message
      | .ok (tensor, next_offset) =>
        match readTensors binary_blob next_offset nodes with
        | .error message => .error message
        | .ok (tensors, end_offset) => .ok (tensor :: tensors, end_offset)

/-- A body of `header_length` bytes of JSON and a blob, its tensors under `key`. -/
def readFrame (key : String) (body : List UInt8) (header_length : Nat) : Except String (List InputTensor) :=
  if body.length < header_length then .error "binary inference header exceeds request body"
  else
    match lib.parse (body.take header_length) with
    | none => .error "invalid JSON request body"
    | some root =>
      match (root.field key).bind (·.asArray) with
      | none => .error "tensors must be an array"
      | some nodes =>
        match readTensors lib (body.drop header_length) 0 nodes with
        | .error message => .error message
        | .ok (tensors, binary_offset) =>
          if binary_offset ≠ (body.drop header_length).length then
            .error "unused binary tensor data in request body"
          else .ok tensors

/-- An input decoded against the metadata is decoded alike without it. -/
theorem decodeInput_uncounted {header : InputHeader} {input : Json} {expected_elements binary_offset : Nat}
    {binary_blob : List UInt8} {decoded : InputTensor × Nat}
    (hdecode : decodeInput lib header input expected_elements binary_blob binary_offset = .ok decoded) :
    decodeInput lib header input 0 binary_blob binary_offset = .ok decoded := by
  unfold decodeInput at hdecode ⊢
  simp only [ne_eq, not_true_eq_false, false_and, and_false, if_false] at hdecode ⊢
  split at hdecode
  · rename_i hbytes
    rw [if_pos hbytes]
    split at hdecode
    · cases hdecode
    · rename_i hbinary
      rw [if_neg hbinary]
      split at hdecode
      · cases hdecode
      · split at hdecode <;> cases hdecode
        rfl
  · rename_i hbytes
    rw [if_neg hbytes]
    split at hdecode
    · rename_i hbinary
      rw [if_pos hbinary]
      split at hdecode
      · cases hdecode
      · split at hdecode <;> cases hdecode
        rfl
    · rename_i hbinary
      rw [if_neg hbinary]
      split at hdecode
      · cases hdecode
      · split at hdecode <;> cases hdecode
        rfl

/-- The inputs of an accepted request read back from its nodes. -/
theorem readTensors_of_parseInputs {metadata : ModelMetadata} {binary_blob : List UInt8}
    {seen_input_names : List String} {binary_offset : Nat} {nodes : List Json} {parsed : List InputTensor × Nat}
    (hparse : parseInputs lib metadata binary_blob seen_input_names binary_offset nodes = .ok parsed) :
    readTensors lib binary_blob binary_offset nodes = .ok parsed := by
  induction nodes generalizing seen_input_names binary_offset parsed with
  | nil => exact hparse
  | cons node nodes ih =>
    rw [parseInputs] at hparse
    split at hparse
    · cases hparse
    · rename_i tensor next_offset hinput
      split at hparse <;> cases hparse
      rename_i hrest
      unfold parseInput at hinput
      split at hinput
      · cases hinput
      · rename_i header hheader
        split at hinput
        · cases hinput
        · rw [readTensors, hheader]
          simp only [decodeInput_uncounted lib hinput, ih hrest]

/-- A slice lies inside the blob. -/
theorem sliceBlob_ok {blob bytes : List UInt8} {offset size : Nat} (hslice : sliceBlob blob offset size = .ok bytes) :
    (offset ≤ blob.length ∧ size ≤ blob.length - offset) ∧ bytes = (blob.drop offset).take size := by
  unfold sliceBlob at hslice
  split_ifs at hslice with hexceeds
  cases hslice
  exact ⟨by omega, rfl⟩

/-- An input takes as many bytes of the blob as it says. -/
theorem decodeInput_takes {header : InputHeader} {node : Json} {expected_elements binary_offset next_offset : Nat}
    {binary_blob : List UInt8} {tensor : InputTensor}
    (hdecode : decodeInput lib header node expected_elements binary_blob binary_offset = .ok (tensor, next_offset)) :
    next_offset = binary_offset + (binaryDataSize node).toNat ∧
      (0 ≤ binaryDataSize node →
        sliceBlob binary_blob binary_offset (binaryDataSize node).toNat = .ok tensor.bytes) := by
  unfold decodeInput at hdecode
  simp only at hdecode
  have hnone (hbinary : ¬0 ≤ binaryDataSize node) : binary_offset = binary_offset + (binaryDataSize node).toNat := by
    omega
  split at hdecode
  · split at hdecode
    · cases hdecode
    · rename_i hbinary
      split at hdecode
      · cases hdecode
      · split at hdecode <;> cases hdecode
        exact ⟨hnone hbinary, fun h => absurd h hbinary⟩
  · split at hdecode
    · split at hdecode
      · cases hdecode
      · rename_i hslice
        split at hdecode <;> cases hdecode
        exact ⟨rfl, fun _ => hslice⟩
    · rename_i hbinary
      split at hdecode
      · cases hdecode
      · split at hdecode <;> cases hdecode
        exact ⟨hnone hbinary, fun h => absurd h hbinary⟩

/-- The buffers of the tensors that came with a `binary_data_size`, one behind the other. -/
def binaryBuffers (nodes : List Json) (tensors : List InputTensor) : List UInt8 :=
  (List.zipWith (fun node tensor => if 0 ≤ binaryDataSize node then tensor.bytes else []) nodes tensors).flatten

/-- A tensor has as many bytes as its node says, if it says so. -/
def SizeTold (node : Json) (tensor : InputTensor) : Prop :=
  0 ≤ binaryDataSize node → (tensor.bytes.length : Int) = binaryDataSize node

/-- The tensors that are read take the blob apart. -/
theorem readTensors_partition {binary_blob : List UInt8} {binary_offset end_offset : Nat} {nodes : List Json}
    {tensors : List InputTensor} (hoffset : binary_offset ≤ binary_blob.length)
    (hread : readTensors lib binary_blob binary_offset nodes = .ok (tensors, end_offset)) :
    (binary_offset ≤ end_offset ∧ end_offset ≤ binary_blob.length) ∧
      List.Forall₂ SizeTold nodes tensors ∧
      binaryBuffers nodes tensors = (binary_blob.drop binary_offset).take (end_offset - binary_offset) := by
  induction nodes generalizing binary_offset tensors with
  | nil =>
    cases hread
    exact ⟨⟨le_refl _, hoffset⟩, .nil, by simp [binaryBuffers]⟩
  | cons node nodes ih =>
    rw [readTensors] at hread
    split at hread
    · cases hread
    split at hread
    · cases hread
    rename_i tensor next_offset hdecode
    split at hread <;> cases hread
    rename_i tensors hrest
    obtain ⟨hnext, hslice⟩ := decodeInput_takes lib hdecode
    have hfirst : next_offset ≤ binary_blob.length ∧ SizeTold node tensor ∧
        (if 0 ≤ binaryDataSize node then tensor.bytes else []) =
          (binary_blob.drop binary_offset).take (next_offset - binary_offset) := by
      by_cases hbinary : 0 ≤ binaryDataSize node
      · obtain ⟨⟨hstart, hsize⟩, hbytes⟩ := sliceBlob_ok (hslice hbinary)
        refine ⟨by omega, fun _ => ?_, ?_⟩
        · rw [sliceBlob_length (hslice hbinary), Int.toNat_of_nonneg hbinary]
        · rw [if_pos hbinary, hbytes, hnext, Nat.add_sub_cancel_left]
      · have hsame : next_offset = binary_offset := by omega
        exact ⟨hsame ▸ hoffset, fun h => absurd h hbinary, by simp [hbinary, hsame]⟩
    obtain ⟨hinside, htold, hbytes⟩ := hfirst
    obtain ⟨⟨hforward, hend⟩, htolds, hbuffers⟩ := ih hinside hrest
    have hstep : binary_offset ≤ next_offset := by omega
    refine ⟨⟨by omega, hend⟩, .cons htold htolds, ?_⟩
    have hsplit : end_offset - binary_offset = (next_offset - binary_offset) + (end_offset - next_offset) := by omega
    rw [hsplit, List.take_add, List.drop_drop, Nat.add_sub_cancel' hstep, ← hbuffers, ← hbytes]
    rfl

/-- Dimensions are `int64_t`, and a `std::vector` has fewer than 2^63 bytes. -/
structure InMemory (tensor : OutputTensor) : Prop where
  dimensions : ∀ dimension ∈ tensor.shape, -2 ^ 63 ≤ dimension ∧ dimension < 2 ^ 63
  buffer : tensor.bytes.length < 2 ^ 63

/-- BYTES tensors use `string_data`, any other `bytes`. -/
def OnePayload (tensor : OutputTensor) : Prop :=
  if isBytesDatatype tensor.datatype then tensor.bytes = [] else tensor.string_data = []

/-- A tensor with the payload that its datatype uses. -/
def carried (tensor : OutputTensor) : InputTensor :=
  if isBytesDatatype tensor.datatype then { tensor with bytes := [] } else { tensor with string_data := [] }

theorem carried_of_onePayload {tensor : OutputTensor} (hpayload : OnePayload tensor) : carried tensor = tensor := by
  unfold OnePayload at hpayload
  unfold carried
  split at hpayload <;> rename_i hbytes
  · rw [if_pos hbytes, ← hpayload]
  · rw [if_neg hbytes, ← hpayload]

theorem int64_jsonInteger {value : Int} (hlow : -2 ^ 63 ≤ value) (hhigh : value < 2 ^ 63) :
    (jsonInteger value).int64 = some value := by
  unfold jsonInteger
  by_cases hsign : 0 ≤ value
  · rw [if_pos hsign, Json.int64, Int.toNat_of_nonneg hsign, wrapInt64_of_range hlow hhigh]
  · rw [if_neg hsign]
    rfl

/-- A shape of 64-bit dimensions reads back. -/
theorem parseShape_jsonIntegers {shape : List Int}
    (hrange : ∀ dimension ∈ shape, -2 ^ 63 ≤ dimension ∧ dimension < 2 ^ 63) :
    parseShape (.array (shape.map jsonInteger)) = shape := by
  rw [parseShape, Json.asArray, Option.getD_some, List.filterMap_map]
  have hsome : ∀ dimension ∈ shape, (Json.int64 ∘ jsonInteger) dimension = some dimension := fun dimension hmem =>
    int64_jsonInteger (hrange dimension hmem).1 (hrange dimension hmem).2
  rw [List.filterMap_congr hsome, List.filterMap_some]

/-- The node and the bytes an output is written as. -/
def writtenNode (tensor : OutputTensor) : Json := (binaryOutputTensorJson tensor []).1

def writtenBytes (tensor : OutputTensor) : List UInt8 := (binaryOutputTensorJson tensor []).2

/-- A node that is written says how many bytes belong to it. -/
theorem binaryDataSize_writtenNode {tensor : OutputTensor} (hmemory : InMemory tensor) :
    binaryDataSize (writtenNode tensor) =
      if isBytesDatatype tensor.datatype then -1 else (tensor.bytes.length : Int) := by
  have hlength : (tensor.bytes.length : Int) < 2 ^ 63 := by exact_mod_cast hmemory.buffer
  by_cases hbytes : isBytesDatatype tensor.datatype
  · rw [writtenNode, binaryOutputTensorJson, if_pos hbytes, if_pos hbytes]
    rfl
  · have hsize : ((writtenNode tensor).field "parameters").bind (fun params =>
        (params.field "binary_data_size").bind (·.int64)) = some (wrapInt64 tensor.bytes.length) := by
      rw [writtenNode, binaryOutputTensorJson, if_neg hbytes]
      rfl
    rw [if_neg hbytes, binaryDataSize, hsize, Option.getD_some, wrapInt64_of_range (by omega) hlength]

/-- The header of a tensor that is written reads back. -/
theorem parseInputHeader_writtenNode {tensor : OutputTensor} (hmemory : InMemory tensor) :
    parseInputHeader (writtenNode tensor) =
      .ok { name := tensor.name, datatype := tensor.datatype, shape := .array (tensor.shape.map jsonInteger) } := by
  have hdata : ¬(binaryDataSize (writtenNode tensor) < 0 ∧
      (((writtenNode tensor).field "data").bind (·.asArray)).isNone = true) := by
    rintro ⟨hnone, hdata⟩
    rw [binaryDataSize_writtenNode hmemory] at hnone
    split at hnone
    · rename_i hbytes
      rw [writtenNode, binaryOutputTensorJson, if_pos hbytes] at hdata
      cases hdata
    · omega
  have hobject : (writtenNode tensor).isObject = true ∧ (writtenNode tensor).field "name" = some (.string tensor.name) ∧
      (writtenNode tensor).field "datatype" = some (.string tensor.datatype) ∧
      (writtenNode tensor).field "shape" = some (.array (tensor.shape.map jsonInteger)) := by
    unfold writtenNode binaryOutputTensorJson
    split <;> exact ⟨rfl, rfl, rfl, rfl⟩
  obtain ⟨hisObject, hname, hdatatype, hshape⟩ := hobject
  rw [parseInputHeader, hisObject, hname, hdatatype, hshape]
  simp only [Bool.not_true, Bool.false_eq_true, if_false, Option.bind_some, Json.asString, if_neg hdata]

/-- Each output is read back from its node and its own bytes, wherever these lie in the blob. -/
theorem decodeInput_writtenNode {tensor : OutputTensor} (hmemory : InMemory tensor) (before after : List UInt8) :
    decodeInput lib { name := tensor.name, datatype := tensor.datatype, shape := .array (tensor.shape.map jsonInteger) }
        (writtenNode tensor) 0 (before ++ writtenBytes tensor ++ after) before.length =
      .ok (carried tensor, before.length + (writtenBytes tensor).length) := by
  unfold decodeInput
  rw [binaryDataSize_writtenNode hmemory, parseShape_jsonIntegers hmemory.dimensions]
  by_cases hbytes : isBytesDatatype tensor.datatype
  · have hstrings : parseStringData (inputData (writtenNode tensor)) = some tensor.string_data := by
      rw [writtenNode, binaryOutputTensorJson, if_pos hbytes]
      change (tensor.string_data.map Json.string).mapM Json.asString = some tensor.string_data
      induction tensor.string_data with
      | nil => rfl
      | cons value values ih => rw [List.map_cons, List.mapM_cons, ih]; rfl
    have hnothing : writtenBytes tensor = [] := by rw [writtenBytes, binaryOutputTensorJson, if_pos hbytes]
    simp [hbytes, hstrings, hnothing, carried]
  · have hblob : writtenBytes tensor = tensor.bytes := by
      rw [writtenBytes, binaryOutputTensorJson, if_neg hbytes]
      rfl
    have hslice : sliceBlob (before ++ (tensor.bytes ++ after)) before.length tensor.bytes.length =
        .ok tensor.bytes := by
      rw [sliceBlob, if_neg (by simp only [List.length_append]; omega), List.drop_left, List.take_left]
    simp [hbytes, hblob, carried, hslice]

/-- Tensors that are written read back. -/
theorem readTensors_written {outputs : List OutputTensor} (hmemory : ∀ tensor ∈ outputs, InMemory tensor)
    (before : List UInt8) :
    readTensors lib (before ++ outputs.flatMap writtenBytes) before.length (outputs.map writtenNode) =
      .ok (outputs.map carried, (before ++ outputs.flatMap writtenBytes).length) := by
  induction outputs generalizing before with
  | nil => simp [readTensors]
  | cons tensor outputs ih =>
    obtain ⟨hfirst, hrest⟩ := List.forall_mem_cons.mp hmemory
    have hdecode := decodeInput_writtenNode lib hfirst before (outputs.flatMap writtenBytes)
    have hnext := ih hrest (before ++ writtenBytes tensor)
    rw [List.length_append] at hnext
    rw [List.flatMap_cons, ← List.append_assoc, List.map_cons, readTensors, parseInputHeader_writtenNode hfirst]
    simp only [hdecode, hnext, List.map_cons]

section Frame

variable {model_name model_version : String} {request : InferenceRequest} {response : ExecutionResponse}

/-- A framed response is its JSON and the bytes of its tensors behind it. -/
theorem inferenceResponseBinary_eq :
    inferenceResponseBinary lib model_name model_version request response =
      { body := lib.dump (responseHeader model_name model_version request (response.outputs.map writtenNode)) ++
          response.outputs.flatMap writtenBytes
        header_length :=
          (lib.dump (responseHeader model_name model_version request (response.outputs.map writtenNode))).length } := by
  rw [inferenceResponseBinary, foldl_binaryOutputs]
  rfl

theorem field_responseHeader (outputs : List Json) :
    (responseHeader model_name model_version request outputs).field "outputs" = some (.array outputs) := by
  unfold responseHeader
  cases request.id <;> rfl

/-- A framed response reads back. -/
theorem readFrame_inferenceResponseBinary (hmemory : ∀ tensor ∈ response.outputs, InMemory tensor)
    (hinverse : lib.parse (lib.dump (responseHeader model_name model_version request
        (response.outputs.map writtenNode))) =
      some (responseHeader model_name model_version request (response.outputs.map writtenNode))) :
    let framed := inferenceResponseBinary lib model_name model_version request response
    readFrame lib "outputs" framed.body framed.header_length = .ok (response.outputs.map carried) := by
  have hread := readTensors_written lib hmemory []
  rw [List.nil_append, List.length_nil] at hread
  rw [inferenceResponseBinary_eq]
  dsimp only
  rw [readFrame, if_neg (by simp), List.take_left, List.drop_left, hinverse]
  simp only [field_responseHeader, Option.bind_some, Json.asArray, hread, ne_eq, not_true_eq_false, if_false]

/-- The parser of requests reads its inputs as a frame, and divides all of the blob among them. -/
theorem parseInferenceRequest_readFrame {body : List UInt8} {metadata : ModelMetadata} {header_length : Nat}
    {accepted : InferenceRequest} (hparse : parseInferenceRequest lib body metadata header_length = .ok accepted) :
    readFrame lib "inputs" body header_length = .ok accepted.inputs ∧
      List.Forall₂ SizeTold (inputNodes lib body header_length) accepted.inputs ∧
      binaryBuffers (inputNodes lib body header_length) accepted.inputs = body.drop header_length := by
  unfold parseInferenceRequest at hparse
  split at hparse
  · cases hparse
  rename_i hlength
  split at hparse
  · cases hparse
  rename_i root hroot
  obtain ⟨nodes, hnodes, -, hinputs, -⟩ := parseRoot_ok hparse
  have hread := readTensors_of_parseInputs lib hinputs
  have hinputNodes : inputNodes lib body header_length = nodes := by simp [inputNodes, hroot, hnodes]
  obtain ⟨-, htold, hbuffers⟩ := readTensors_partition lib (Nat.zero_le _) hread
  rw [List.drop_zero, Nat.sub_zero, List.take_length] at hbuffers
  rw [hinputNodes]
  refine ⟨?_, htold, hbuffers⟩
  rw [readFrame, if_neg hlength, hroot]
  simp only [hnodes, hread, ne_eq, not_true_eq_false, if_false]

/-- A frame of output tensors is read back with the reader of inputs, and the reader divides the bytes
behind the header of every accepted body among its binary inputs. -/
theorem binary_framing (hmemory : ∀ tensor ∈ response.outputs, InMemory tensor)
    (hinverse : lib.parse (lib.dump (responseHeader model_name model_version request
        (response.outputs.map writtenNode))) =
      some (responseHeader model_name model_version request (response.outputs.map writtenNode))) :
    let framed := inferenceResponseBinary lib model_name model_version request response
    readFrame lib "outputs" framed.body framed.header_length = .ok (response.outputs.map carried) ∧
      ((∀ tensor ∈ response.outputs, OnePayload tensor) →
        readFrame lib "outputs" framed.body framed.header_length = .ok response.outputs) ∧
      ∀ body metadata header_length accepted,
        parseInferenceRequest lib body metadata header_length = .ok accepted →
          readFrame lib "inputs" body header_length = .ok accepted.inputs ∧
            List.Forall₂ SizeTold (inputNodes lib body header_length) accepted.inputs ∧
            binaryBuffers (inputNodes lib body header_length) accepted.inputs = body.drop header_length := by
  have hframe := readFrame_inferenceResponseBinary lib hmemory hinverse
  refine ⟨hframe, fun hpayload => ?_, fun _ _ _ _ hparse => parseInferenceRequest_readFrame lib hparse⟩
  have hcarried : response.outputs.map carried = response.outputs.map id :=
    List.map_congr_left fun tensor hmem => carried_of_onePayload (hpayload tensor hmem)
  rwa [hcarried, List.map_id] at hframe

end Frame

/-- A string tensor between two byte tensors, one of them empty. -/
def mixedResponse : ExecutionResponse where
  outputs := [{ name := "scores", datatype := "UINT8", shape := [2], bytes := [7, 9] },
    { name := "text", datatype := "BYTES", shape := [1], string_data := ["hi"] },
    { name := "none", datatype := "FP32", shape := [0] }]

def mixedHeader : Json := responseHeader "model" "1" {} (mixedResponse.outputs.map writtenNode)

def mixedLibrary : JsonLibrary := .onText
  ("\x7b\"model_name\":\"model\",\"model_version\":\"1\",\"outputs\":[" ++
    "\x7b\"datatype\":\"UINT8\",\"name\":\"scores\",\"parameters\":\x7b\"binary_data_size\":2\x7d,\"shape\":[2]\x7d," ++
    "\x7b\"data\":[\"hi\"],\"datatype\":\"BYTES\",\"name\":\"text\",\"shape\":[1]\x7d," ++
    "\x7b\"datatype\":\"FP32\",\"name\":\"none\",\"parameters\":\x7b\"binary_data_size\":0\x7d,\"shape\":[0]\x7d]\x7d")
  mixedHeader

/-- A response of a number and of a text. -/
theorem binary_framing_mixed :
    readFrame mixedLibrary "outputs" (inferenceResponseBinary mixedLibrary "model" "1" {} mixedResponse).body
        (inferenceResponseBinary mixedLibrary "model" "1" {} mixedResponse).header_length =
      .ok mixedResponse.outputs := by
  have hmemory : ∀ tensor ∈ mixedResponse.outputs, InMemory tensor := by
    simp only [mixedResponse, List.forall_mem_cons, List.not_mem_nil, false_imp_iff, implies_true, and_true]
    refine ⟨⟨?_, ?_⟩, ⟨?_, ?_⟩, ⟨?_, ?_⟩⟩ <;> simp
  have hpayload : ∀ tensor ∈ mixedResponse.outputs, OnePayload tensor := by
    simp [mixedResponse, OnePayload, isBytesDatatype]
  have hinverse : mixedLibrary.parse (mixedLibrary.dump mixedHeader) = some mixedHeader :=
    JsonLibrary.parse_onText _ mixedHeader
  exact (binary_framing mixedLibrary hmemory hinverse).2.1 hpayload

end neuriplo.codec
