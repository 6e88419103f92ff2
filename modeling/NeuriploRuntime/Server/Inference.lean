import NeuriploRuntime.Codec.Framing
import NeuriploRuntime.Http.Exchange
import NeuriploRuntime.Metrics.Answers
import NeuriploRuntime.Registry.State
import NeuriploRuntime.Server.Routes
import NeuriploRuntime.Transport.InferRoutes

open neuriplo.codec neuriplo.http neuriplo.metrics neuriplo.model neuriplo.registry neuriplo.scheduler neuriplo.tensor
open stream

namespace neuriplo.server.inference

/-- The registry as the steps of one inference find it. Between them other threads may change it. -/
structure Moments where
  versioned : ModelRegistry := {}
  found : ModelRegistry
  ready : ModelRegistry
  draining : ModelRegistry

/-- The JSON library with its floating-point numbers, the registry, and the schedulers. -/
structure Surroundings where
  lib : JsonLibrary
  floating : Nat → List UInt8 → Json
  moments : Moments
  submit : Scheduler → ExecutionRequest → SchedulerResult

def errorJson (code message : String) : Json :=
  .object [("error", .object [("code", .string code), ("message", .string message)])]

def error (lib : JsonLibrary) (status : Nat) (code message : String) : Response where
  status := status
  body := lib.dump (errorJson code message)

def headerLengthName : List UInt8 := octets "Inference-Header-Content-Length"

/-- `strtoull` over a whole text. A number with a minus sign is negated, and one that is too large is the
largest. -/
def strtoull (value : List UInt8) : Option Nat :=
  let text := (value.takeWhile (· ≠ 0)).dropWhile isSpace
  let negative := text.head? = some 45
  let digits := if text.head? = some 45 ∨ text.head? = some 43 then text.drop 1 else text
  if digits = [] ∨ ¬ digits.all isDigit then none
  else if 2 ^ 64 ≤ decimalValue digits then some (2 ^ 64 - 1)
  else if negative then some ((2 ^ 64 - decimalValue digits) % 2 ^ 64)
  else some (decimalValue digits)

def inferenceHeaderLength (request : HttpRequest) : Option Nat :=
  match request.headers.lookup headerLengthName with
  | none => none
  | some value => strtoull value

def inferenceResponseJson (surroundings : Surroundings) (model_name model_version : String) (request : InferenceRequest)
    (response : ExecutionResponse) : List UInt8 :=
  surroundings.lib.dump (responseHeader model_name model_version request
    (response.outputs.map (outputTensorJson surroundings.lib surroundings.floating)))

structure InferContext where
  request : HttpRequest
  model_name : String
  model_version : String
  handle : Option InferSnapshot := none
  parsed : InferenceRequest := {}
  scheduled : SchedulerResult := {}

/-- A stage with its response, if it has one. None at all where it follows a null pointer. -/
abbrev PipelineStage := InferContext → Option (InferContext × Option Response)

/-- The first response that a stage has. -/
def run : List PipelineStage → InferContext → Option Response
  | [], _ => some {}
  | stage :: stages, ctx =>
    match stage ctx with
    | none => none
    | some (_, some response) => some response
    | some (ctx, none) => run stages ctx

variable (surroundings : Surroundings)

/-- A snapshot with what its scheduler says of itself when it is asked. -/
def seen (handle : InferSnapshot) : transport.InferSnapshot where
  name := handle.name
  versions := handle.versions
  state := handle.state
  metadata := handle.metadata
  scheduler := handle.scheduler.map fun scheduler =>
    { isReady := !surroundings.moments.ready.draining.contains scheduler.id
      isDraining := surroundings.moments.draining.draining.contains scheduler.id }
  load_error := handle.load_error

def refuse (refused : transport.HttpError) : Response :=
  error surroundings.lib refused.status refused.code refused.message

def validateInferModel : PipelineStage := fun ctx =>
  let handle := surroundings.moments.found.findHandleVersion ctx.model_name ctx.model_version
  match transport.validateInferModel ctx.model_name (handle.map (seen surroundings)) with
  | .error refused => some ({ ctx with handle }, some (refuse surroundings refused))
  | .ok _ => some ({ ctx with handle }, none)

def decodeAndAdmit : PipelineStage := fun ctx =>
  match ctx.handle with
  | none => none
  | some handle =>
    match transport.decodeAndAdmit surroundings.lib ctx.request.body (inferenceHeaderLength ctx.request)
      (seen surroundings handle) with
    | .error refused => some (ctx, some (refuse surroundings refused))
    | .ok parsed => some ({ ctx with parsed }, none)

def executionRequest (parsed : InferenceRequest) : ExecutionRequest where
  id := parsed.id
  inputs := parsed.inputs
  requested_outputs := parsed.requested_outputs
  llm_params := parsed.llm_params

def scheduleInfer : PipelineStage := fun ctx =>
  match ctx.handle.bind (·.scheduler) with
  | none => none
  | some scheduler =>
    some ({ ctx with scheduled := surroundings.submit scheduler (executionRequest ctx.parsed) }, none)

/-- An answer as a response. Outputs are framed for a client that framed its request. -/
def encodeInferResponse (model_name model_version : String) (request : HttpRequest) (parsed : InferenceRequest) :
    Answer → Response
  | .error status code message => error surroundings.lib status.toNat code message
  | .response status response =>
    if (inferenceHeaderLength request).isSome then
      let framed := inferenceResponseBinary surroundings.lib model_name model_version parsed response
      { status := status.toNat
        content_type := octets "application/octet-stream"
        body := framed.body
        headers := [(headerLengthName, decimal framed.header_length)] }
    else
      { status := status.toNat
        body := inferenceResponseJson surroundings model_name model_version parsed response }

def encodeStage : PipelineStage := fun ctx =>
  some (ctx, some (encodeInferResponse surroundings ctx.model_name ctx.model_version ctx.request ctx.parsed
    (metrics.encodeInferResponse ctx.scheduled)))

def infer (model_name model_version : String) (request : HttpRequest) : Option Response :=
  run [validateInferModel surroundings, decodeAndAdmit surroundings, scheduleInfer surroundings,
    encodeStage surroundings] { request, model_name, model_version }

variable (others : routing.Target → HttpRequest → Except String Response)

/-- The part of `handle` that answers inferences and refuses routes. A null pointer would end the
process. -/
def handle (request : HttpRequest) : Except String Response :=
  match routing.handle request.method request.path with
  | .error refused => .ok (error surroundings.lib refused.status refused.code refused.message)
  | .ok (.infer name version) =>
    match decodeUtf8 name, decodeUtf8 version with
    | some model_name, some model_version =>
      (infer surroundings model_name model_version request).elim (.error "null pointer") .ok
    | _, _ => others (.infer name version) request
  | .ok (.inferDefault name) =>
    match decodeUtf8 name with
    | none => others (.inferDefault name) request
    | some model_name =>
      match surroundings.moments.versioned.defaultVersion model_name with
      | none => .ok (error surroundings.lib 404 "MODEL_NOT_FOUND" ("model not found: " ++ model_name))
      | some version => (infer surroundings model_name version request).elim (.error "null pointer") .ok
  | .ok target => others target request

/-- An error with its code, or outputs for the request that was accepted. -/
inductive Outcome where
  | failed (code message : String)
  | outputs (accepted : InferenceRequest) (response : ExecutionResponse)

def answered (accepted : InferenceRequest) : Answer → Outcome
  | .error _ code message => .failed code message
  | .response _ response => .outputs accepted response

def outcome (model_name model_version : String) (request : HttpRequest) : Outcome :=
  let found := surroundings.moments.found.findHandleVersion model_name model_version
  match transport.infer surroundings.lib model_name (found.map (seen surroundings)) request.body
      (inferenceHeaderLength request), found.bind (·.scheduler) with
  | .error refused, _ => .failed refused.code refused.message
  | .ok _, none => .failed "UNAVAILABLE" "model scheduler is unavailable"
  | .ok accepted, some scheduler =>
    answered accepted (metrics.encodeInferResponse (surroundings.submit scheduler (executionRequest accepted)))

/-- A result as the schedulers make it. -/
inductive Made : SchedulerResult → Prop
  | completed (enqueued_at execution_started execution_finished : Int) (batch_size : Nat)
      (response : ExecutionResponse) :
      Made (completedResult enqueued_at execution_started execution_finished batch_size response)
  | failed (scheduler_error : SchedulerError) (error_code error_message : String) :
      Made (makeSchedulerError scheduler_error error_code error_message)

/-- A scheduler does not succeed with a response that failed. -/
theorem Made.response_ok {result : SchedulerResult} (hmade : Made result) (hok : result.ok = true) :
    result.response.ok = true := by
  cases hmade with
  | completed enqueued_at execution_started execution_finished batch_size response =>
    unfold completedResult SchedulerResult.adopt at hok ⊢
    split_ifs at hok ⊢ with hresponse
    exact hresponse
  | failed scheduler_error error_code error_message => cases hok

/-- What a scheduler returns is answered with the status of its code. -/
theorem Made.answer {result : SchedulerResult} (hmade : Made result) :
    (∃ code message, metrics.encodeInferResponse result = .error (httpStatusForCode code) code message) ∨
      result.ok = true ∧ metrics.encodeInferResponse result = .response 200 result.response := by
  unfold metrics.encodeInferResponse
  cases hok : result.ok with
  | false => exact .inl ⟨_, _, rfl⟩
  | true =>
    right
    rw [hmade.response_ok hok]
    exact ⟨rfl, rfl⟩

/-- The response to an outcome. -/
def Outcome.response (model_name model_version : String) (request : HttpRequest) : Outcome → Response
  | .failed code message => error surroundings.lib (httpStatusForCode code).toNat code message
  | .outputs accepted response =>
    encodeInferResponse surroundings model_name model_version request accepted (.response 200 response)

section Infer

variable {surroundings : Surroundings} {model_name model_version : String} {request : HttpRequest}

/-- An answer of the scheduler is encoded as the handler encodes it. -/
theorem response_answered {result : SchedulerResult} (hmade : Made result) (accepted : InferenceRequest) :
    (answered accepted (metrics.encodeInferResponse result)).response surroundings model_name model_version request =
      encodeInferResponse surroundings model_name model_version request accepted (metrics.encodeInferResponse result) := by
  obtain ⟨code, message, hanswer⟩ | ⟨-, hanswer⟩ := hmade.answer
  · rw [hanswer]
    rfl
  · rw [hanswer]
    rfl

/-- A route refuses with the status of its code. -/
theorem response_refused {refused : transport.HttpError}
    (hrefused : (refused.status : Int) = httpStatusForCode refused.code) :
    (Outcome.failed refused.code refused.message).response surroundings model_name model_version request =
      refuse surroundings refused := by
  rw [Outcome.response, ← hrefused]
  rfl

/-- A model that cannot serve is refused with the status of its code. -/
theorem validateInferModel_status {handle : Option transport.InferSnapshot} {refused : transport.HttpError}
    (hvalidate : transport.validateInferModel model_name handle = .error refused) :
    (refused.status : Int) = httpStatusForCode refused.code := by
  unfold transport.validateInferModel at hvalidate
  split at hvalidate
  · cases hvalidate
    rfl
  · split_ifs at hvalidate
    · cases hvalidate
      rfl
    · cases hvalidate
      unfold transport.modelStateError
      split <;> rfl
    · cases hvalidate
      rfl

/-- A body that is not admitted is refused with the status of its code. -/
theorem decodeAndAdmit_status {lib : JsonLibrary} {body : List UInt8} {header_length : Option Nat}
    {handle : transport.InferSnapshot} {refused : transport.HttpError}
    (hdecode : transport.decodeAndAdmit lib body header_length handle = .error refused) :
    (refused.status : Int) = httpStatusForCode refused.code := by
  cases header_length with
  | none =>
    cases hparse : parseJsonInferenceRequest lib body handle.metadata <;>
      simp only [transport.decodeAndAdmit, hparse] at hdecode <;> cases hdecode
    rfl
  | some header_length =>
    cases hparse : parseInferenceRequest lib body handle.metadata header_length <;>
      simp only [transport.decodeAndAdmit, hparse] at hdecode <;> cases hdecode
    rfl

/-- A snapshot that passes is ready, and so it holds a scheduler. -/
theorem validateInferModel_ok {found : Option InferSnapshot} {valid : transport.InferSnapshot}
    (hvalidate : transport.validateInferModel model_name (found.map (seen surroundings)) = .ok valid) :
    ∃ handle scheduler, found = some handle ∧ valid = seen surroundings handle ∧ valid.isReady = true ∧
      handle.scheduler = some scheduler := by
  cases found with
  | none => cases hvalidate
  | some handle =>
    simp only [Option.map_some, transport.validateInferModel] at hvalidate
    split_ifs at hvalidate with hready hscheduler
    cases hvalidate
    rw [Bool.not_eq_true', Bool.not_eq_false] at hready
    cases hheld : handle.scheduler with
    | none => simp [transport.InferSnapshot.isReady, seen, hheld] at hready
    | some scheduler => exact ⟨handle, scheduler, rfl, rfl, hready, hheld⟩

/-- No stage follows a null pointer, and the response is that to the outcome. -/
theorem infer_eq (hmade : ∀ scheduler request, Made (surroundings.submit scheduler request)) :
    infer surroundings model_name model_version request =
      some ((outcome surroundings model_name model_version request).response surroundings model_name model_version
        request) := by
  simp only [infer, run, validateInferModel, outcome, transport.infer]
  generalize surroundings.moments.found.findHandleVersion model_name model_version = found
  cases hvalidate : transport.validateInferModel model_name (found.map (seen surroundings)) with
  | error refused => simp only [response_refused (validateInferModel_status hvalidate)]
  | ok valid =>
    obtain ⟨handle, scheduler, rfl, rfl, -, hscheduler⟩ := validateInferModel_ok hvalidate
    simp only [decodeAndAdmit]
    cases hdecode : transport.decodeAndAdmit surroundings.lib request.body (inferenceHeaderLength request)
      (seen surroundings handle) with
    | error refused => simp only [response_refused (decodeAndAdmit_status hdecode)]
    | ok accepted =>
      simp only [scheduleInfer, Option.bind_some, hscheduler, encodeStage]
      rw [response_answered (hmade scheduler (executionRequest accepted))]

end Infer

/-- What a client learns from a response. -/
inductive Reading where
  | outputs (tensors : List OutputTensor)
  | failed (status : Nat) (code message : String)
deriving DecidableEq, Repr

/-- The JSON of an outcome. -/
def Outcome.json (model_name model_version : String) : Outcome → Json
  | .failed code message => errorJson code message
  | .outputs accepted response =>
    responseHeader model_name model_version accepted (response.outputs.map writtenNode)

/-- What a client is to learn of an outcome. -/
def Outcome.reading : Outcome → Reading
  | .failed code message => .failed (httpStatusForCode code).toNat code message
  | .outputs _ response => .outputs (response.outputs.map carried)

/-- The outputs of an outcome can be written. -/
def Outcome.InMemory : Outcome → Prop
  | .failed _ _ => True
  | .outputs _ response => ∀ tensor ∈ response.outputs, codec.InMemory tensor

section Reading

variable {lib : JsonLibrary} {model_name model_version : String} {request : HttpRequest}

variable {surroundings : Surroundings}

end Reading

section Call

variable {surroundings : Surroundings} {others : routing.Target → HttpRequest → Except String Response}
  {model_name model_version : String} {request : HttpRequest}

end Call

end neuriplo.server.inference
