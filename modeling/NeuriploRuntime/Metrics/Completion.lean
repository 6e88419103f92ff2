import NeuriploRuntime.Metrics.Answers
import NeuriploRuntime.Metrics.Recording
import NeuriploRuntime.Transition.Log

open neuriplo.scheduler neuriplo.tensor stream

namespace neuriplo.metrics

inductive Transport where
  | http (method : String)
  | grpc
deriving DecidableEq, Repr

/-- The end of an inference request: what its scheduler returned. -/
structure Completion where
  transport : Transport
  model_name : String
  scheduled : SchedulerResult

def Completion.answer (completion : Completion) : Answer :=
  match completion.transport with
  | .http _ => encodeInferResponse completion.scheduled
  | .grpc => modelInferResponse completion.scheduled

def Transport.method : Transport → String
  | .http method => method
  | .grpc => "GRPC"

/-- What either transport records of a completion: the status that it answers with,
and what a request took that was executed. -/
def Completion.record (completion : Completion) : InferRecord :=
  if !completion.scheduled.ok then
    { model := octets completion.model_name
      method := octets completion.transport.method
      status_code := completion.answer.status
      queue_latency_ns := 0
      infer_latency_ns := 0
      total_latency_ns := 0 }
  else
    { model := octets completion.model_name
      method := octets completion.transport.method
      status_code := completion.answer.status
      queue_latency_ns := .ofInt completion.scheduled.queue_latency_ns
      infer_latency_ns := .ofInt completion.scheduled.execution_latency_ns
      total_latency_ns := .ofInt completion.scheduled.total_latency_ns
      batch_size := .ofNat completion.scheduled.batch_size }

/-- The codes that have an HTTP status of their own. -/
def httpCodes : List String :=
  ["INVALID_ARGUMENT", "MODEL_NOT_FOUND", "MODEL_NOT_READY", "QUEUE_FULL", "DEADLINE_EXCEEDED", "BACKEND_ERROR",
    "INTERNAL", "UNAVAILABLE", "NOT_FOUND", "METHOD_NOT_ALLOWED", "PAYLOAD_TOO_LARGE"]

/-- The results whose status says what they are: over HTTP, those without an error
code that falls back to 500; over gRPC, errors other than of the backend. -/
def Told (completion : Completion) : Prop :=
  match completion.transport with
  | .http _ =>
    if !completion.scheduled.ok then completion.scheduled.error_code ∈ "" :: httpCodes
    else if !completion.scheduled.response.ok then
      completion.scheduled.response.error_code ∈ ["", "INVALID_ARGUMENT", "BACKEND_ERROR", "INTERNAL"]
    else True
  | .grpc =>
    if !completion.scheduled.ok then completion.scheduled.error_code ∉ ["", "BACKEND_ERROR", "INTERNAL"]
    else if !completion.scheduled.response.ok then
      completion.scheduled.response.error_code ∉ ["", "BACKEND_ERROR", "INTERNAL"]
    else False

section Counts

variable (completions : List Completion) (model : String)

end Counts

end neuriplo.metrics
