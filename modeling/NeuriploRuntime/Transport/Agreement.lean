import NeuriploRuntime.Codec.Acceptance
import NeuriploRuntime.Codec.Integers
import NeuriploRuntime.Transport.InferRoutes

open neuriplo.tensor neuriplo.codec neuriplo.grpc_v2 stream

namespace neuriplo.transport

/-- A body that says what a request is, with a header length or without. What the
JSON library writes out it reads back. -/
inductive SaidOverHttp (lib : JsonLibrary) (body : List UInt8) (request : WireRequest) : Option Nat → Prop
  | binary {root : Json} {header_length : Nat} (hlength : header_length ≤ body.length)
      (hparse : lib.parse (body.take header_length) = some root)
      (hrequest : JsonRequest lib root (body.drop header_length) request) :
      SaidOverHttp lib body request (some header_length)
  | plain {root : Json} (hparse : lib.parse body = some root) (hdump : lib.parse (lib.dump root) = some root)
      (hrequest : JsonRequest lib root [] request) : SaidOverHttp lib body request none

inductive GrpcContents : Payload → InferTensorContents → Prop
  | strings (values : List String) : GrpcContents (.strings values) { bytes_contents := values }
  | booleans (values : List Bool) : GrpcContents (.booleans values) { bool_contents := values }
  | int (values : List Int32) : GrpcContents (.integers (values.map (·.toInt))) { int_contents := values }
  | int64 (values : List Int64) : GrpcContents (.integers (values.map (·.toInt))) { int64_contents := values }
  | uint (values : List UInt32) :
      GrpcContents (.integers (values.map fun value => (value.toNat : Int))) { uint_contents := values }
  | uint64 (values : List UInt64) :
      GrpcContents (.integers (values.map fun value => (value.toNat : Int))) { uint64_contents := values }
  | fp32 (values : List ℚ) : GrpcContents (.reals values) { fp32_contents := values }
  | fp64 (values : List ℚ) : GrpcContents (.reals values) { fp64_contents := values }

/-- A raw entry replaces an input's contents. Strings in front of a raw input are
beside an empty one. -/
inductive GrpcPayload (datatype : String) (contents : InferTensorContents) : Option (List UInt8) → Payload → Prop
  | raw (bytes : List UInt8) : GrpcPayload datatype contents (some bytes) (.raw bytes)
  | contents {payload : Payload} (hcontents : GrpcContents payload contents) :
      GrpcPayload datatype contents none payload
  | strings {values : List String} (hdatatype : isBytesDatatype datatype = true)
      (hcontents : GrpcContents (.strings values) contents) :
      GrpcPayload datatype contents (some []) (.strings values)

structure GrpcInput (raw : Option (List UInt8)) (proto_input : InferInputTensor) (input : TensorRequest) : Prop where
  name : proto_input.name = input.name
  datatype : proto_input.datatype = input.datatype
  shape : proto_input.shape = input.shape
  payload : GrpcPayload proto_input.datatype proto_input.contents raw input.payload

/-- A message that says what a request is. -/
structure SaidOverGrpc (message : ModelInferRequest) (request : WireRequest) : Prop where
  id : message.id = request.id.getD ""
  inputs : List.Forall₂ (fun proto_input input =>
    GrpcInput message.raw_input_contents[proto_input.2]? proto_input.1 input)
    message.inputs.zipIdx request.inputs
  outputs : message.outputs = request.outputs.getD []
  parameters : message.parameters = []

/-- Both transports hand over a request with the same inputs, or both answer with
an invalid argument. -/
inductive Agree : Except HttpError ExecutionRequest → Except Status ExecutionRequest → Prop
  | admitted {http grpc : ExecutionRequest} (hinputs : http.inputs = grpc.inputs) : Agree (.ok http) (.ok grpc)
  | refused {http : HttpError} {grpc : Status} (hhttp : http.code = "INVALID_ARGUMENT")
      (hgrpc : grpc.code = .invalidArgument) : Agree (.error http) (.error grpc)

variable (lib : JsonLibrary)

/-- The bytes of every integer are the same with and without a double in between. -/
def Carried (input : TensorRequest) : Prop :=
  ∀ values, input.payload = .integers values → isBytesDatatype input.datatype = false → ∀ value ∈ values,
    lib.elementBytes input.datatype (lib.toDouble value) = lib.integerBytes input.datatype value

/-- The bytes that the gRPC codec makes of a payload. -/
def convertedBytes (datatype : String) : Payload → List UInt8
  | .raw bytes => bytes
  | .integers values => lib.typedIntegers datatype values
  | .reals values => lib.typedReals datatype values
  | _ => []

/-- The tensor that it makes of an input. -/
def converted (input : TensorRequest) : InputTensor where
  name := input.name
  datatype := input.datatype
  shape := input.extents
  bytes := if isBytesDatatype input.datatype then [] else convertedBytes lib input.datatype input.payload
  string_data := if isBytesDatatype input.datatype then input.payload.text else []

variable {lib}

/-- The contents of a gRPC tensor are converted as the payload they say. -/
theorem contentsBytes_eq {payload : Payload} {contents : InferTensorContents}
    (hcontents : GrpcContents payload contents)
    (datatype : String) : contentsBytes lib datatype contents = convertedBytes lib datatype payload := by
  cases hcontents with
  | strings values => rfl
  | booleans values => rfl
  | int values => cases values <;> rfl
  | int64 values => cases values <;> rfl
  | uint values => cases values <;> rfl
  | uint64 values => cases values <;> rfl
  | fp32 values => cases values <;> rfl
  | fp64 values => cases values <;> rfl

theorem bytesContents_eq {payload : Payload} {contents : InferTensorContents}
    (hcontents : GrpcContents payload contents) :
    contents.bytes_contents = payload.text := by
  cases hcontents <;> rfl

/-- An input that comes over gRPC is converted from what it says. -/
theorem convertInput_eq {raw : Option (List UInt8)} {proto_input : InferInputTensor} {input : TensorRequest}
    (hinput : GrpcInput raw proto_input input)
    (hraw : ∀ bytes, input.payload = .raw bytes → isBytesDatatype input.datatype = false) :
    convertInput lib proto_input raw = converted lib input := by
  obtain ⟨hname, hdatatype, hshape, hpayload⟩ := hinput
  unfold convertInput converted
  rw [hdatatype] at hpayload ⊢
  rw [hname, hshape]
  generalize input.payload = payload at hpayload hraw ⊢
  cases hbytes : isBytesDatatype input.datatype with
  | true =>
    rw [if_pos rfl, if_pos rfl, if_pos rfl]
    cases hpayload with
    | raw bytes =>
      rw [hraw bytes rfl] at hbytes
      cases hbytes
    | contents hcontents =>
      rw [bytesContents_eq hcontents]
      rfl
    | strings hdatatype hcontents =>
      rw [bytesContents_eq hcontents]
      rfl
  | false =>
    rw [if_neg Bool.false_ne_true, if_neg Bool.false_ne_true, if_neg Bool.false_ne_true]
    cases hpayload with
    | raw bytes => rfl
    | contents hcontents =>
      dsimp only
      rw [contentsBytes_eq hcontents]
      rfl
    | strings hstrings hcontents =>
      rw [hbytes] at hstrings
      cases hstrings

/-- What is read from a JSON body and from a message is the same tensor exactly
when its integers survive as doubles. -/
theorem decoded_eq_converted_iff (input : TensorRequest) :
    input.decoded lib = converted lib input ↔ Carried lib input := by
  unfold TensorRequest.decoded converted Carried
  rw [InputTensor.mk.injEq]
  cases hbytes : isBytesDatatype input.datatype with
  | true => simp
  | false =>
    cases hpayload : input.payload with
    | integers values =>
      simp only [Bool.false_eq_true, if_false, true_and, and_true, Payload.rawBytes, Payload.doubles, convertedBytes,
        List.nil_append, typedIntegers_eq_iff, Payload.integers.injEq, forall_eq', forall_const]
    | raw bytes => simp [Payload.rawBytes, Payload.doubles, convertedBytes, JsonLibrary.typedReals]
    | strings values => simp [Payload.rawBytes, Payload.doubles, convertedBytes, JsonLibrary.typedReals]
    | booleans values => simp [Payload.rawBytes, Payload.doubles, convertedBytes, JsonLibrary.typedReals]
    | reals values => simp [Payload.rawBytes, Payload.doubles, convertedBytes]

/-- On the machine an input is the same over both transports exactly when its
integers have at most 53 significant bits. -/
theorem carried_native_iff {input : TensorRequest} {format : numeral.WordFormat} {values : List Int}
    (hinteger : withTensorElementType input.datatype = some (.integer format))
    (hpayload : input.payload = .integers values) (hvalues : ∀ value ∈ values, format.Holds value) :
    (∀ lib : JsonLibrary, Carried lib.native input) ↔
      ∀ value ∈ values, numeral.HasSignificand 53 value.natAbs := by
  simp only [Carried, hpayload, Payload.integers.injEq, not_bytes_of_integer hinteger, forall_eq', true_implies]
  constructor
  · intro hcarried value hmem
    exact (native_carries_iff hinteger (hvalues value hmem)).mp fun lib => hcarried lib value hmem
  · intro hsignificand lib value hmem
    exact (native_carries_iff hinteger (hvalues value hmem)).mpr (hsignificand value hmem) lib

/-- Raw bytes are admissible for datatypes of fixed size only. -/
theorem notBytes_of_raw {metadata : ModelMetadata} {input : TensorRequest} (hadmissible : Admissible metadata input)
    {bytes : List UInt8} (hpayload : input.payload = .raw bytes) : isBytesDatatype input.datatype = false := by
  obtain ⟨elements, -, hfits⟩ := hadmissible.payload
  rw [hpayload] at hfits
  exact hfits.1

/-- Over gRPC an accepted request is converted input by input. -/
theorem convertInferRequest_inputs {metadata : ModelMetadata} {message : ModelInferRequest} {request : WireRequest}
    (hsaid : SaidOverGrpc message request) (haccepted : Accepted metadata request) :
    (convertInferRequest lib message).inputs = request.inputs.map (converted lib) := by
  have hadmissible := haccepted.admissible
  have hinputs := hsaid.inputs
  unfold convertInferRequest
  dsimp only
  generalize message.inputs.zipIdx = protos at hinputs ⊢
  generalize request.inputs = inputs at hinputs hadmissible ⊢
  induction hinputs with
  | nil => rfl
  | @cons proto input protos inputs hfirst hrest ih =>
    obtain ⟨hadmissibleFirst, hadmissibleRest⟩ := List.forall_mem_cons.mp hadmissible
    rw [List.map_cons, List.map_cons, ih hadmissibleRest]
    exact congrArg (· :: inputs.map (converted lib))
      (convertInput_eq hfirst fun bytes hpayload => notBytes_of_raw hadmissibleFirst hpayload)

section Transports

variable {body : List UInt8} {header_length : Option Nat} {handle : InferSnapshot} {request : WireRequest}

/-- Over HTTP a request is admitted exactly when the metadata lets it in. -/
theorem decodeAndAdmit_iff (hsaid : SaidOverHttp lib body request header_length) {result : InferenceRequest} :
    decodeAndAdmit lib body header_length handle = .ok result ↔
      Accepted handle.metadata request ∧ result = request.decoded lib handle.metadata := by
  cases hsaid with
  | binary hlength hparse hrequest =>
    rw [(ReadOverHttp.binary hlength hparse).decodeAndAdmit_iff]
    exact parseRoot_iff hrequest
  | plain hparse hdump hrequest =>
    rw [(ReadOverHttp.plain hparse hdump).decodeAndAdmit_iff]
    exact parseRoot_iff hrequest

/-- gRPC hands over whatever it is sent. The transports agree exactly on the
requests that the metadata lets in, when the integers in them survive as
doubles. -/
theorem transports_agree_iff {message : ModelInferRequest} (model_name : String) (hready : handle.isReady = true)
    (hhttp : SaidOverHttp lib body request header_length) (hgrpc : SaidOverGrpc message request) :
    Agree (infer lib model_name (some handle) body header_length) (modelInfer lib (some handle) message) ↔
      Accepted handle.metadata request ∧ ∀ input ∈ request.inputs, Carried lib input := by
  rw [infer_of_isReady lib hready, modelInfer_of_isReady lib hready]
  have hinputs : Accepted handle.metadata request →
      ((request.decoded lib handle.metadata).inputs = (convertInferRequest lib message).inputs ↔
        ∀ input ∈ request.inputs, Carried lib input) := by
    intro haccepted
    rw [convertInferRequest_inputs hgrpc haccepted, WireRequest.decoded, List.map_inj_left]
    simp only [decoded_eq_converted_iff]
  constructor
  · intro hagree
    cases hadmitted : decodeAndAdmit lib body header_length handle with
    | error error =>
      rw [hadmitted] at hagree
      cases hagree
    | ok result =>
      obtain ⟨haccepted, rfl⟩ := (decodeAndAdmit_iff hhttp).mp hadmitted
      rw [hadmitted] at hagree
      cases hagree with
      | admitted hsame => exact ⟨haccepted, (hinputs haccepted).mp hsame⟩
  · rintro ⟨haccepted, hcarried⟩
    rw [(decodeAndAdmit_iff hhttp).mpr ⟨haccepted, rfl⟩]
    exact .admitted ((hinputs haccepted).mpr hcarried)

end Transports

/-- A ready model with one FP32 input of shape [1,3]. -/
def serving (input : String) : InferSnapshot where
  name := "demo"
  state := .ready
  metadata := { inputs := [{ name := input, datatype := "FP32", shape := [1, 3] }] }
  scheduler := some { isReady := true, isDraining := false }

def pointWireRequest : WireRequest where
  inputs := [{ name := "point", datatype := "FP32", shape := [1, 3], payload := .raw (List.replicate 12 0) }]

def pointMessage : ModelInferRequest where
  inputs := [{ name := "point", datatype := "FP32", shape := [1, 3] }]
  raw_input_contents := [List.replicate 12 0]

/-- The body over HTTP says the request. -/
theorem pointBody_said : SaidOverHttp (pointLibrary 12) (pointBody 12) pointWireRequest (some 98) := by
  have htext : (pointBody 12).take 98 = octets (pointHeader (toString 12)) := by decide +kernel
  have hparse : (pointLibrary 12).parse ((pointBody 12).take 98) = some (pointRoot 12) := by
    rw [htext]
    exact JsonLibrary.parse_onText _ _
  refine .binary (by decide +kernel) hparse ⟨rfl, rfl, ?_, rfl, rfl, by decide +kernel⟩
  refine ⟨_, rfl, .cons ⟨rfl, rfl, rfl, ?_, ?_⟩ .nil⟩
  · exact ⟨[.unsigned 1, .unsigned 3], rfl, by decide +kernel⟩
  · exact .raw rfl rfl (by decide +kernel)

/-- The message over gRPC says the request. -/
theorem pointMessage_said : SaidOverGrpc pointMessage pointWireRequest :=
  ⟨rfl, .cons ⟨rfl, rfl, rfl, .raw _⟩ .nil, rfl, rfl⟩

/-- One request over both transports. -/
theorem transports_agree_point :
    Agree (infer (pointLibrary 12) "demo" (some (serving "point")) (pointBody 12) (some 98))
      (modelInfer (pointLibrary 12) (some (serving "point")) pointMessage) := by
  refine (transports_agree_iff "demo" (by decide) pointBody_said pointMessage_said).mpr ⟨?_, ?_⟩
  · constructor
    · exact List.cons_ne_nil _ _
    · decide
    · intro input hmem
      rw [List.mem_singleton.mp hmem]
      refine ⟨⟨_, rfl, rfl, ?_⟩, 3, by decide +kernel, by decide +kernel, .inr (by decide +kernel)⟩
      exact .cons (by decide) (.cons (by decide) .nil)
    · decide
    · exact nofun
  · intro input hmem values hpayload
    rw [List.mem_singleton.mp hmem] at hpayload
    cases hpayload

/-- An input that the model does not have. -/
theorem unknown_input_divides :
    (serving "image").isReady = true ∧ SaidOverHttp (pointLibrary 12) (pointBody 12) pointWireRequest (some 98) ∧
      SaidOverGrpc pointMessage pointWireRequest ∧
      ¬ Agree (infer (pointLibrary 12) "demo" (some (serving "image")) (pointBody 12) (some 98))
        (modelInfer (pointLibrary 12) (some (serving "image")) pointMessage) := by
  refine ⟨by decide, pointBody_said, pointMessage_said, ?_⟩
  have hrefused : infer (pointLibrary 12) "demo" (some (serving "image")) (pointBody 12) (some 98) =
      .error { status := 400, code := "INVALID_ARGUMENT", message := "unknown input: point" } := by
    decide +kernel
  rw [hrefused, modelInfer_of_isReady _ (by decide)]
  intro hagree
  cases hagree

end neuriplo.transport
