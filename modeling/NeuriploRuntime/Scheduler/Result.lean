import NeuriploRuntime.Scheduler.Config
import NeuriploRuntime.Tensor.Bytes

open neuriplo.tensor

namespace neuriplo.scheduler

inductive SchedulerError where
  | none
  | overloaded
  | timeout
  | draining
  | unavailable
deriving DecidableEq, Repr

structure SchedulerResult where
  ok : Bool := true
  scheduler_error : SchedulerError := .none
  error_code : String := ""
  error_message : String := ""
  response : ExecutionResponse := {}
  queue_latency_ns : Int := 0
  execution_latency_ns : Int := 0
  total_latency_ns : Int := 0
  batch_size : Nat := 0
deriving DecidableEq, Repr

def SchedulerResult.adopt (result : SchedulerResult) (response : ExecutionResponse) : SchedulerResult :=
  if response.ok then { result with response }
  else { result with
    response
    ok := false
    error_code := response.error_code
    error_message := response.error_message }

def makeSchedulerError (scheduler_error : SchedulerError) (error_code error_message : String) : SchedulerResult where
  ok := false
  scheduler_error
  error_code
  error_message

def makeTimeoutResult : SchedulerResult :=
  makeSchedulerError .timeout "DEADLINE_EXCEEDED" "request exceeded deadline"

def makeDrainingResult : SchedulerResult :=
  makeSchedulerError .draining "UNAVAILABLE" "model is draining"

def makeOverloadedResult : SchedulerResult :=
  makeSchedulerError .overloaded "QUEUE_FULL" "request queue is full"

/-- What a scheduler answers after the executor has: the response with the
latencies around it. -/
def completedResult (enqueued_at execution_started execution_finished : Int) (batch_size : Nat)
    (response : ExecutionResponse) : SchedulerResult :=
  { queue_latency_ns := execution_started - enqueued_at
    execution_latency_ns := execution_finished - execution_started
    total_latency_ns := execution_finished - enqueued_at
    batch_size : SchedulerResult }.adopt response

/-- A completed request has no error of the scheduler. -/
theorem completedResult_scheduler_error (enqueued_at execution_started execution_finished : Int) (batch_size : Nat)
    (response : ExecutionResponse) :
    (completedResult enqueued_at execution_started execution_finished batch_size response).scheduler_error = .none := by
  unfold completedResult SchedulerResult.adopt
  split <;> rfl

/-- `enqueued_at + milliseconds(timeout_ms)`, in the nanoseconds of the steady
clock. -/
def deadlineAfter (enqueued_at timeout_ms : Int) : Int :=
  wrapInt64 (enqueued_at + wrapInt64 (timeout_ms * 1000000))

/-- A request a worker may see. Its cancel token is kept with the caller's. -/
structure PendingRequest where
  request : ExecutionRequest
  enqueued_at : Int
  deadline : Int
  promise : Option SchedulerResult := none
  cancelled : Bool := false

/-- What is left to do once a submitter has waited in vain. -/
inductive Expiry where
  | setToken
  | setCancelled
  | countTimedOut
  | answer
deriving DecidableEq, Repr

/-- The first executor with the fewest requests in flight. -/
def selectExecutorIndex (inflight : List Nat) : Nat := inflight.idxOf (inflight.min?.getD 0)

/-- The response made of what an executor threw. -/
def backendError (what : Option String) : ExecutionResponse where
  ok := false
  error_code := "BACKEND_ERROR"
  error_message := what.getD "executor inference failed"

/-- The counters of `SchedulerMetricsSnapshot` that the schedulers write. -/
structure SchedulerMetrics where
  requests_accepted : Nat := 0
  requests_rejected : Nat := 0
  requests_timed_out : Nat := 0
  requests_memory_pressure_rejected : Nat := 0
  queue_wait_ns_total : Int := 0
  execution_ns_total : Int := 0
  total_ns_total : Int := 0
  completed_requests : Nat := 0
  batches_formed : Nat := 0
  batched_requests_total : Nat := 0
  batch_formation_ns_total : Int := 0
  batch_execution_ns_total : Int := 0
deriving DecidableEq, Repr

end neuriplo.scheduler
