import NeuriploRuntime.Codec.InferenceRequest
import NeuriploRuntime.Grpc.InferRequest
import NeuriploRuntime.Model.Snapshot

open neuriplo.tensor neuriplo.codec neuriplo.grpc_v2 neuriplo.model

namespace neuriplo.transport

/-- What a scheduler says of itself. -/
structure SchedulerStatus where
  isReady : Bool
  isDraining : Bool

/-- The snapshot a registry lookup returns. -/
abbrev InferSnapshot := Snapshot SchedulerStatus

def InferSnapshot.isReady (handle : InferSnapshot) : Bool :=
  handle.state = .ready && handle.scheduler.any (·.isReady)

variable (lib : JsonLibrary)

structure HttpError where
  status : Nat
  code : String
  message : String
deriving DecidableEq, Repr

def modelStateError (handle : InferSnapshot) : HttpError :=
  match handle.state with
  | .failed => { status := 503, code := "UNAVAILABLE", message := handle.load_error.getD "model failed to load" }
  | .unloaded => { status := 503, code := "UNAVAILABLE", message := "model has been unloaded" }
  | .loading => { status := 503, code := "UNAVAILABLE", message := "model is still loading" }
  | .unavailable => { status := 503, code := "UNAVAILABLE", message := "model is unavailable" }
  | _ => { status := 409, code := "MODEL_NOT_READY", message := "model is not ready: " ++ handle.name }

def validateInferModel (model_name : String) (found : Option InferSnapshot) : Except HttpError InferSnapshot :=
  match found with
  | none => .error { status := 404, code := "MODEL_NOT_FOUND", message := "model not found: " ++ model_name }
  | some handle =>
    if !handle.isReady then
      if handle.scheduler.any (·.isDraining) then
        .error { status := 503, code := "UNAVAILABLE", message := "model is draining" }
      else .error (modelStateError handle)
    else if handle.scheduler.isNone then
      .error { status := 503, code := "UNAVAILABLE", message := "model scheduler is unavailable" }
    else .ok handle

def decodeAndAdmit (body : List UInt8) (header_length : Option Nat) (handle : InferSnapshot) :
    Except HttpError InferenceRequest :=
  let parsed := match header_length with
    | some header_length => parseInferenceRequest lib body handle.metadata header_length
    | none => parseJsonInferenceRequest lib body handle.metadata
  match parsed with
  | .error message => .error { status := 400, code := "INVALID_ARGUMENT", message }
  | .ok request => .ok request

/-- The HTTP infer route as far as the request it hands to the scheduler. -/
def infer (model_name : String) (found : Option InferSnapshot) (body : List UInt8) (header_length : Option Nat) :
    Except HttpError ExecutionRequest :=
  match validateInferModel model_name found with
  | .error error => .error error
  | .ok handle => decodeAndAdmit lib body header_length handle

inductive StatusCode where
  | notFound
  | unavailable
  | invalidArgument
deriving DecidableEq, Repr

structure Status where
  code : StatusCode
  message : String

/-- `ModelInfer` as far as the request it hands to the scheduler. The conversion
never throws, so its handler of INVALID_ARGUMENT is never entered. -/
def modelInfer (found : Option InferSnapshot) (request : ModelInferRequest) : Except Status ExecutionRequest :=
  match found with
  | none => .error { code := .notFound, message := "model not found: " ++ request.model_name }
  | some handle =>
    if !handle.isReady then
      if handle.scheduler.any (·.isDraining) then .error { code := .unavailable, message := "model is draining" }
      else .error { code := .unavailable, message := "model is not ready" }
    else if handle.scheduler.isNone then
      .error { code := .unavailable, message := "model scheduler is unavailable" }
    else .ok (convertInferRequest lib request)

/-- A ready snapshot has a scheduler. -/
theorem InferSnapshot.scheduler_of_isReady {handle : InferSnapshot} (hready : handle.isReady = true) :
    handle.scheduler.isNone = false := by
  unfold InferSnapshot.isReady at hready
  cases hscheduler : handle.scheduler with
  | none => simp [hscheduler] at hready
  | some scheduler => rfl

/-- Over HTTP a ready model decodes and admits the body. -/
theorem infer_of_isReady {handle : InferSnapshot} (hready : handle.isReady = true) (model_name : String)
    (body : List UInt8) (header_length : Option Nat) :
    infer lib model_name (some handle) body header_length = decodeAndAdmit lib body header_length handle := by
  simp [infer, validateInferModel, hready, InferSnapshot.scheduler_of_isReady hready]

/-- Over gRPC a ready model converts the message. -/
theorem modelInfer_of_isReady {handle : InferSnapshot} (hready : handle.isReady = true) (request : ModelInferRequest) :
    modelInfer lib (some handle) request = .ok (convertInferRequest lib request) := by
  simp [modelInfer, hready, InferSnapshot.scheduler_of_isReady hready]

/-- What the HTTP route reads of a body: a JSON part, and binary data behind it
when there is a header length. What the JSON library writes out it reads back. -/
inductive ReadOverHttp (lib : JsonLibrary) (body : List UInt8) (root : Json) : Option Nat → List UInt8 → Prop
  | binary {header_length : Nat} (hlength : header_length ≤ body.length)
      (hparse : lib.parse (body.take header_length) = some root) :
      ReadOverHttp lib body root (some header_length) (body.drop header_length)
  | plain (hparse : lib.parse body = some root) (hdump : lib.parse (lib.dump root) = some root) :
      ReadOverHttp lib body root none []

/-- A body that was read is admitted exactly when its root is. -/
theorem ReadOverHttp.decodeAndAdmit_iff {lib : JsonLibrary} {body binary_blob : List UInt8} {root : Json}
    {header_length : Option Nat} (hread : ReadOverHttp lib body root header_length binary_blob) {handle : InferSnapshot}
    {result : InferenceRequest} :
    decodeAndAdmit lib body header_length handle = .ok result ↔
      parseRoot lib handle.metadata binary_blob root = .ok result := by
  have hadmits : ∀ parsed : Except String InferenceRequest,
      (match parsed with
      | .error message => Except.error ({ status := 400, code := "INVALID_ARGUMENT", message } : HttpError)
      | .ok request => Except.ok request) = Except.ok result ↔ parsed = .ok result := by
    intro parsed
    cases parsed with
    | error message => simp only [reduceCtorEq]
    | ok request => simp only [Except.ok.injEq]
  have hparsed {whole : List UInt8} {length : Nat} (hlength : length ≤ whole.length)
      (hparse : lib.parse (whole.take length) = some root) :
      parseInferenceRequest lib whole handle.metadata length =
        parseRoot lib handle.metadata (whole.drop length) root := by
    rw [parseInferenceRequest, if_neg (Nat.not_lt.mpr hlength), hparse]
  unfold decodeAndAdmit
  cases hread with
  | binary hlength hparse =>
    refine (hadmits _).trans ?_
    dsimp only
    rw [hparsed hlength hparse]
  | plain hparse hdump =>
    refine (hadmits _).trans ?_
    dsimp only
    rw [parseJsonInferenceRequest, hparse]
    dsimp only
    have hwhole : lib.parse ((lib.dump root).take (lib.dump root).length) = some root := by
      rw [List.take_length]
      exact hdump
    rw [hparsed (le_refl _) hwhole, List.drop_length]

/-- A request that the infer route hands over was read by the codec. -/
theorem ReadOverHttp.parseRoot_of_infer {lib : JsonLibrary} {body binary_blob : List UInt8} {root : Json}
    {header_length : Option Nat} (hread : ReadOverHttp lib body root header_length binary_blob) {model_name : String}
    {handle : InferSnapshot} {request : ExecutionRequest}
    (hinfer : infer lib model_name (some handle) body header_length = .ok request) :
    parseRoot lib handle.metadata binary_blob root = .ok request := by
  unfold infer at hinfer
  cases hvalid : validateInferModel model_name (some handle) with
  | error error =>
    rw [hvalid] at hinfer
    cases hinfer
  | ok found =>
    rw [hvalid] at hinfer
    have hfound : found = handle := by
      unfold validateInferModel at hvalid
      dsimp only at hvalid
      split_ifs at hvalid
      cases hvalid
      rfl
    rw [hfound] at hinfer
    exact hread.decodeAndAdmit_iff.mp hinfer

end neuriplo.transport
