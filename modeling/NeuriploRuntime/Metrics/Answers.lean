import NeuriploRuntime.Scheduler.Result

open neuriplo.scheduler neuriplo.tensor

namespace neuriplo.metrics

def httpStatusForCode (code : String) : Int :=
  if code = "INVALID_ARGUMENT" then 400
  else if code = "MODEL_NOT_FOUND" then 404
  else if code = "MODEL_NOT_READY" then 409
  else if code = "QUEUE_FULL" then 429
  else if code = "DEADLINE_EXCEEDED" then 504
  else if code = "BACKEND_ERROR" || code = "INTERNAL" then 500
  else if code = "UNAVAILABLE" then 503
  else if code = "NOT_FOUND" then 404
  else if code = "METHOD_NOT_ALLOWED" then 405
  else if code = "PAYLOAD_TOO_LARGE" then 413
  else 500

def isSuccessStatus (status_code : Int) : Bool := 200 ≤ status_code && status_code < 300

/-- The values of the gRPC status codes. -/
inductive StatusCode where
  | OK
  | INVALID_ARGUMENT
  | DEADLINE_EXCEEDED
  | NOT_FOUND
  | RESOURCE_EXHAUSTED
  | INTERNAL
  | UNAVAILABLE
deriving DecidableEq, Repr

def StatusCode.toInt : StatusCode → Int
  | .OK => 0
  | .INVALID_ARGUMENT => 3
  | .DEADLINE_EXCEEDED => 4
  | .NOT_FOUND => 5
  | .RESOURCE_EXHAUSTED => 8
  | .INTERNAL => 13
  | .UNAVAILABLE => 14

/-- The status that `gRpcErrorFromCode` answers with. -/
def gRpcCode (code : String) : StatusCode :=
  if code = "INVALID_ARGUMENT" then .INVALID_ARGUMENT
  else if code = "MODEL_NOT_FOUND" then .NOT_FOUND
  else if code = "MODEL_NOT_READY" then .UNAVAILABLE
  else if code = "QUEUE_FULL" then .RESOURCE_EXHAUSTED
  else if code = "DEADLINE_EXCEEDED" then .DEADLINE_EXCEEDED
  else if code = "BACKEND_ERROR" || code = "INTERNAL" then .INTERNAL
  else if code = "UNAVAILABLE" then .UNAVAILABLE
  else if code = "NOT_FOUND" then .NOT_FOUND
  else .INTERNAL

def gRpcStatusForCode (code : String) : Int := (gRpcCode code).toInt

def errorCodeFor : SchedulerError → String
  | .overloaded => "QUEUE_FULL"
  | .timeout => "DEADLINE_EXCEEDED"
  | .draining => "UNAVAILABLE"
  | .unavailable => "UNAVAILABLE"
  | .none => "INTERNAL"

def errorMessageFor : SchedulerError → String
  | .overloaded => "request queue is full"
  | .timeout => "request exceeded deadline"
  | .draining => "model is unavailable"
  | .unavailable => "model is unavailable"
  | .none => "internal error"

/-- What a client is answered with: outputs, or an error with its code. -/
inductive Answer where
  | response (status : Int) (response : ExecutionResponse)
  | error (status : Int) (code message : String)
deriving DecidableEq, Repr

def Answer.status : Answer → Int
  | .response status _ => status
  | .error status _ _ => status

/-- The response of the HTTP infer route to what the scheduler returned. -/
def encodeInferResponse (scheduled : SchedulerResult) : Answer :=
  if !scheduled.ok then
    let code := if scheduled.error_code.isEmpty then errorCodeFor scheduled.scheduler_error else scheduled.error_code
    let msg :=
      if scheduled.error_message.isEmpty then errorMessageFor scheduled.scheduler_error else scheduled.error_message
    .error (httpStatusForCode code) code msg
  else if !scheduled.response.ok then
    let status := if scheduled.response.error_code = "INVALID_ARGUMENT" then 400 else 500
    let code := if scheduled.response.error_code.isEmpty then "BACKEND_ERROR" else scheduled.response.error_code
    let message :=
      if scheduled.response.error_message.isEmpty then "backend inference failed"
      else scheduled.response.error_message
    .error status code message
  else .response 200 scheduled.response

/-- The end of `ModelInfer`, with the code its error was made from. -/
def modelInferResponse (scheduled : SchedulerResult) : Answer :=
  if !scheduled.ok then
    let code := if scheduled.error_code.isEmpty then "INTERNAL" else scheduled.error_code
    .error (gRpcStatusForCode code) code scheduled.error_message
  else if !scheduled.response.ok then
    let code := if scheduled.response.error_code.isEmpty then "BACKEND_ERROR" else scheduled.response.error_code
    .error (gRpcStatusForCode code) code scheduled.response.error_message
  else .response StatusCode.OK.toInt scheduled.response

end neuriplo.metrics
