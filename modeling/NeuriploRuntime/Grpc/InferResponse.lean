import NeuriploRuntime.Grpc.InferRequest

open neuriplo.tensor neuriplo.codec

namespace neuriplo.grpc_v2

abbrev InferOutputTensor := InferInputTensor

structure ModelInferResponse where
  model_name : String := ""
  model_version : String := ""
  id : String := ""
  parameters : List (String × InferParameter) := []
  outputs : List InferOutputTensor := []
  raw_output_contents : List (List UInt8) := []

def fillBytesContents (string_data : List String) : InferTensorContents := { bytes_contents := string_data }

/-- One more output. Only a tensor of fixed-size elements adds a raw entry. -/
def addOutput (proto : ModelInferResponse) (output : OutputTensor) : ModelInferResponse :=
  let proto_output : InferOutputTensor :=
    { name := output.name, datatype := output.datatype, shape := output.shape.map Int64.ofInt }
  if isBytesDatatype output.datatype then
    { proto with
      outputs := proto.outputs ++ [{ proto_output with contents := fillBytesContents output.string_data }] }
  else
    { proto with
      outputs := proto.outputs ++ [proto_output]
      raw_output_contents := proto.raw_output_contents ++ [output.bytes] }

def responseParameters (metadata : LlmResultMetadata) : List (String × InferParameter) :=
  [("prompt_tokens", .int64_param (Int64.ofNat metadata.prompt_tokens)),
    ("completion_tokens", .int64_param (Int64.ofNat metadata.completion_tokens)),
    ("finish_reason", .string_param metadata.finish_reason)]

def buildInferResponse (exec_response : ExecutionResponse) (model_name model_version : String)
    (request_id : Option String) : ModelInferResponse :=
  let proto : ModelInferResponse :=
    { model_name := model_name, model_version := model_version, id := request_id.getD "" }
  let proto := exec_response.outputs.foldl addOutput proto
  match exec_response.llm_metadata with
  | some metadata => { proto with parameters := responseParameters metadata }
  | none => proto

/-- The tensor of a message for one output, without its raw entry. -/
def protoOutput (output : OutputTensor) : InferOutputTensor where
  name := output.name
  datatype := output.datatype
  shape := output.shape.map Int64.ofInt
  contents := if isBytesDatatype output.datatype then fillBytesContents output.string_data else {}

def fixedSize (outputs : List OutputTensor) : List OutputTensor :=
  outputs.filter fun output => !isBytesDatatype output.datatype

theorem addOutput_outputs (proto : ModelInferResponse) (output : OutputTensor) :
    (addOutput proto output).outputs = proto.outputs ++ [protoOutput output] := by
  unfold addOutput protoOutput
  by_cases hbytes : isBytesDatatype output.datatype <;> simp [hbytes]

theorem addOutput_raw (proto : ModelInferResponse) (output : OutputTensor) :
    (addOutput proto output).raw_output_contents =
      proto.raw_output_contents ++ (fixedSize [output]).map (·.bytes) := by
  unfold addOutput fixedSize
  by_cases hbytes : isBytesDatatype output.datatype <;> simp [hbytes]

/-- Outputs are added in order. -/
theorem foldl_addOutput_outputs (outputs : List OutputTensor) (proto : ModelInferResponse) :
    (outputs.foldl addOutput proto).outputs = proto.outputs ++ outputs.map protoOutput := by
  induction outputs generalizing proto with
  | nil => simp
  | cons output rest ih => simp [ih, addOutput_outputs]

/-- The raw entries are those of the outputs of fixed size. -/
theorem foldl_addOutput_raw (outputs : List OutputTensor) (proto : ModelInferResponse) :
    (outputs.foldl addOutput proto).raw_output_contents =
      proto.raw_output_contents ++ (fixedSize outputs).map (·.bytes) := by
  induction outputs generalizing proto with
  | nil => simp [fixedSize]
  | cons output rest ih =>
    have hsplit : fixedSize (output :: rest) = fixedSize [output] ++ fixedSize rest :=
      List.filter_append [output] rest
    rw [List.foldl_cons, ih, addOutput_raw, hsplit, List.map_append, List.append_assoc]

/-- A response has an entry for each output. -/
theorem buildInferResponse_outputs (exec_response : ExecutionResponse) (model_name model_version : String)
    (request_id : Option String) :
    (buildInferResponse exec_response model_name model_version request_id).outputs =
      exec_response.outputs.map protoOutput := by
  unfold buildInferResponse
  cases exec_response.llm_metadata <;> simp [foldl_addOutput_outputs]

/-- A response has a raw entry for each output of fixed size. -/
theorem buildInferResponse_raw (exec_response : ExecutionResponse) (model_name model_version : String)
    (request_id : Option String) :
    (buildInferResponse exec_response model_name model_version request_id).raw_output_contents =
      (fixedSize exec_response.outputs).map (·.bytes) := by
  unfold buildInferResponse
  cases exec_response.llm_metadata <;> simp [foldl_addOutput_raw]

/-- The tensors of a response in a request of their own, its raw entries as they stand. -/
def ModelInferResponse.asRequest (proto : ModelInferResponse) : ModelInferRequest where
  inputs := proto.outputs
  raw_input_contents := proto.raw_output_contents

/-- What a tensor says: the strings of a BYTES tensor, the bytes of any other. -/
def content (tensor : InputTensor) : String × String × List Int64 × (List String ⊕ List UInt8) :=
  (tensor.name, tensor.datatype, tensor.shape.map Int64.ofInt,
    if isBytesDatatype tensor.datatype then .inl tensor.string_data else .inr tensor.bytes)

/-- The BYTES tensors before a position, which have no raw entry. -/
def skippedBefore (outputs : List OutputTensor) (position : Nat) : Nat :=
  (outputs.take position).countP fun output => isBytesDatatype output.datatype

/-- A fixed-size tensor with BYTES tensors before it carries the bytes of the fixed-size tensor that
many places after it, or no bytes when there is none. -/
def RawEntriesLineUp (outputs : List OutputTensor) : Prop :=
  ∀ position, ∀ hposition : position < outputs.length,
    isBytesDatatype outputs[position].datatype = false →
      outputs[position].bytes =
        (((fixedSize (outputs.drop position))[skippedBefore outputs position]?).map (·.bytes)).getD []

instance (outputs : List OutputTensor) : Decidable (RawEntriesLineUp outputs) := by
  unfold RawEntriesLineUp
  infer_instance

/-- The raw entry at a tensor's position belongs to a later tensor, by as many places as BYTES tensors
were skipped before it. -/
theorem fixedSize_getElem? (outputs : List OutputTensor) {position : Nat} (hposition : position ≤ outputs.length) :
    (fixedSize outputs)[position]? = (fixedSize (outputs.drop position))[skippedBefore outputs position]? := by
  have hsplit : fixedSize outputs = fixedSize (outputs.take position) ++ fixedSize (outputs.drop position) := by
    unfold fixedSize
    rw [← List.filter_append, List.take_append_drop]
  have hcount : (fixedSize (outputs.take position)).length + skippedBefore outputs position = position := by
    have h := List.length_eq_countP_add_countP
      (fun output : OutputTensor => isBytesDatatype output.datatype) (l := outputs.take position)
    rw [List.length_take, Nat.min_eq_left hposition] at h
    have hfilter : (fixedSize (outputs.take position)).length =
        (outputs.take position).countP fun output => ¬isBytesDatatype output.datatype := by
      rw [List.countP_eq_length_filter]
      simp [fixedSize]
    unfold skippedBefore
    omega
  rw [hsplit, List.getElem?_append_right (by omega)]
  congr 1
  omega

variable (lib : JsonLibrary)

/-- What is written of a tensor's header reads back. -/
private theorem convertInput_header (output : OutputTensor) (raw : Option (List UInt8)) :
    (convertInput lib (protoOutput output) raw).name = output.name ∧
      (convertInput lib (protoOutput output) raw).datatype = output.datatype ∧
      (convertInput lib (protoOutput output) raw).shape.map Int64.ofInt = output.shape.map Int64.ofInt := by
  have hshape : ((output.shape.map Int64.ofInt).map (·.toInt)).map Int64.ofInt = output.shape.map Int64.ofInt := by
    rw [List.map_map]
    exact List.map_id'' (fun dim => Int64.ofInt_toInt dim) _
  unfold convertInput protoOutput
  split
  · exact ⟨rfl, rfl, hshape⟩
  · cases raw <;> exact ⟨rfl, rfl, hshape⟩

/-- A BYTES tensor is read back from its contents, any other from the raw entry it is given. -/
theorem content_convertInput_protoOutput (output : OutputTensor) (raw : Option (List UInt8)) :
    content (convertInput lib (protoOutput output) raw) = content output ↔
      (isBytesDatatype output.datatype = false → output.bytes = raw.getD []) := by
  obtain ⟨hname, hdatatype, hshape⟩ := convertInput_header lib output raw
  unfold content
  rw [hname, hdatatype, hshape]
  by_cases hbytes : isBytesDatatype output.datatype
  · simp [convertInput, protoOutput, fillBytesContents, hbytes]
  · cases raw with
    | none => simp [convertInput, protoOutput, contentsBytes, hbytes, eq_comm]
    | some raw => simp [convertInput, protoOutput, hbytes, eq_comm]

/-- A response read back tensor by tensor: the entry at a tensor's position is the one it is given. -/
theorem convertInferRequest_asRequest (exec_response : ExecutionResponse) (model_name model_version : String)
    (request_id : Option String) :
    (convertInferRequest lib
        (buildInferResponse exec_response model_name model_version request_id).asRequest).inputs =
      exec_response.outputs.zipIdx.map fun (output, position) =>
        convertInput lib (protoOutput output) (((fixedSize exec_response.outputs)[position]?).map (·.bytes)) := by
  simp [convertInferRequest, ModelInferResponse.asRequest, buildInferResponse_outputs, buildInferResponse_raw,
    List.zipIdx_map, List.map_map, Function.comp_def]

/-- A response read with the rule for requests gives every tensor back exactly when its raw entries line
up with the tensors. -/
theorem reread_response_iff (exec_response : ExecutionResponse) (model_name model_version : String)
    (request_id : Option String) :
    (convertInferRequest lib
        (buildInferResponse exec_response model_name model_version request_id).asRequest).inputs.map content =
      exec_response.outputs.map content ↔
    RawEntriesLineUp exec_response.outputs := by
  rw [convertInferRequest_asRequest, List.ext_getElem_iff]
  simp only [List.length_map, List.length_zipIdx, List.getElem_map, List.getElem_zipIdx, Nat.zero_add, true_and]
  refine forall_congr' fun position => ?_
  constructor
  · intro h hposition hfixed
    have hread := (content_convertInput_protoOutput lib _ _).mp (h hposition hposition) hfixed
    rwa [fixedSize_getElem? _ hposition.le] at hread
  · intro h hposition _
    refine (content_convertInput_protoOutput lib _ _).mpr fun hfixed => ?_
    rw [fixedSize_getElem? _ hposition.le]
    exact h hposition hfixed

/-- A string tensor and a byte tensor after it: the byte tensor's entry is the first, and is looked for
at the second place. -/
theorem string_before_bytes_not_reread :
    ¬∀ (lib : JsonLibrary) (exec_response : ExecutionResponse) (model_name model_version : String)
        (request_id : Option String),
      (convertInferRequest lib
          (buildInferResponse exec_response model_name model_version request_id).asRequest).inputs.map content =
        exec_response.outputs.map content := by
  intro h
  have hreread := h (JsonLibrary.onText "" .null)
    { outputs := [{ name := "text", datatype := "BYTES", shape := [1], string_data := ["hi"] },
        { name := "score", datatype := "UINT8", shape := [1], bytes := [7] }] } "model" "1" none
  revert hreread
  decide +kernel

/-- Tensors with no BYTES tensor before a fixed-size one line up with their raw entries. -/
theorem rawEntriesLineUp_of_fixed_first {outputs : List OutputTensor}
    (hfirst : ∀ position, ∀ hposition : position < outputs.length,
      isBytesDatatype outputs[position].datatype = false → skippedBefore outputs position = 0) :
    RawEntriesLineUp outputs := by
  intro position hposition hfixed
  have hhead : (fixedSize (outputs.drop position))[0]? = some outputs[position] := by
    rw [List.drop_eq_getElem_cons hposition, fixedSize, List.filter_cons_of_pos (by simp [hfixed])]
    rfl
  rw [hfirst position hposition hfixed, hhead]
  rfl

end neuriplo.grpc_v2
