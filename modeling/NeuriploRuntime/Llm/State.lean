import Mathlib.Algebra.Order.Ring.Int
import Mathlib.Data.List.FinRange
import Mathlib.Logic.Function.Basic
import NeuriploRuntime.Scheduler.Result
import NeuriploRuntime.Transition.System

open neuriplo.scheduler neuriplo.tensor transition

namespace neuriplo.llm

/-- What an `LlmScheduler` is constructed with. The constructor throws without
executors or slots, and the number of slots is a `size_t`. -/
structure Setup where
  config : LlmSchedulerConfig
  countTokens : String → Nat
  executors : Nat
  hexecutors : 0 < executors
  hslots : 0 < config.kv_cache_slots
  hsize : config.kv_cache_slots < 2 ^ 64

def findBytesPrompt (request : ExecutionRequest) : Option InputTensor :=
  request.inputs.find? fun input => isBytesDatatype input.datatype

def promptText (request : ExecutionRequest) : String :=
  ((findBytesPrompt request).bind (·.string_data.head?)).getD ""

def effectiveMaxTokens (request : ExecutionRequest) (config : LlmSchedulerConfig) : Nat :=
  (request.llm_params.bind (·.max_tokens)).getD config.max_tokens

def validateLlmRequest (request : ExecutionRequest) (config : LlmSchedulerConfig) (estimated_tokens : Nat) :
    Option String :=
  match findBytesPrompt request with
  | none => some "LLM request requires a BYTES prompt input"
  | some prompt =>
    let max_tokens := effectiveMaxTokens request config
    if prompt.string_data.isEmpty then some "LLM prompt must not be empty"
    else if config.context_length < estimated_tokens then
      some ("prompt exceeds context length (estimated " ++ toString estimated_tokens ++ " tokens)")
    else if max_tokens = 0 || config.max_tokens < max_tokens then some "max_tokens exceeds configured limit"
    else if config.context_length < wrapSize (estimated_tokens + max_tokens) then
      some "prompt + max_tokens exceeds context length"
    else if (request.llm_params.bind (·.temperature)).any (· < 0) then
      some "temperature must be greater than or equal to 0"
    else if (request.llm_params.bind (·.top_p)).any fun top_p => top_p ≤ 0 || 1 < top_p then
      some "top_p must be in (0, 1]"
    else none

def makeInvalidArgumentResult (error_message : String) : SchedulerResult where
  ok := false
  error_code := "INVALID_ARGUMENT"
  error_message

def makeMemoryPressureResult : SchedulerResult :=
  makeSchedulerError .overloaded "QUEUE_FULL" "request rejected due to KV cache memory pressure"

def memory_per_token_bytes : Nat := 2

/-- The memory check of `submit`, for the number of decodes it read. -/
def memoryPressure (config : LlmSchedulerConfig) (active_decodes estimated_tokens : Nat) : Bool :=
  let estimated_context_bytes := wrapSize (estimated_tokens * memory_per_token_bytes)
  let active_context_bytes := wrapSize (active_decodes * estimated_context_bytes)
  0 < config.memory_budget_bytes &&
    config.memory_budget_bytes < wrapSize (active_context_bytes + estimated_context_bytes)

/-- Where a call of `submit` stands. -/
inductive SubmitPc where
  | idle
  | validating (request : ExecutionRequest)
  | checkingDraining (request : ExecutionRequest) (estimated_tokens : Nat)
  | checkingMemory (request : ExecutionRequest) (estimated_tokens : Nat)
  | dating (request : ExecutionRequest)
  | enqueuing (request : ExecutionRequest) (enqueued_at deadline : Int)
  | waiting
  | expiring (expiry : Expiry)
  | returned (result : SchedulerResult)

/-- The steps of `acquireDecodeSlot`. Every stage but `lock` and `parked` holds
`slots_mutex_`; `timedOut` is what the last wait reported. -/
inductive AcquireStage where
  | lock
  | predDraining (timedOut : Bool)
  | predActive (timedOut : Bool)
  | parked
  | readDraining
  | readActive
  | add
deriving DecidableEq, Repr

/-- The straight-line steps at the end of `processSingle`. -/
inductive WorkerOp where
  | setToken
  | decrementInflight (executor_index : Nat)
  | releaseDecodeSlot
  | settle (execution_started execution_finished : Int) (response : ExecutionResponse)
  | recordLatencies (execution_started execution_finished : Int)
  | countTimedOut
  | fulfillResult (result : SchedulerResult)
  | setValue (result : SchedulerResult)

/-- Where a worker stands, and with which request. It is `terminated`, with what
it leaves undone, when it sets a promise that has a value. -/
inductive WorkerPc where
  | popping
  | checkingCancelled (request : Nat)
  | checkingDeadline (request : Nat)
  | acquiring (request : Nat) (stage : AcquireStage)
  | recheckingDraining (request : Nat)
  | recheckingDeadline (request : Nat)
  | selecting (request : Nat)
  | starting (request executor_index : Nat)
  | executing (request executor_index : Nat) (execution_started : Int)
  | readingToken (request executor_index : Nat) (execution_started : Int) (response : ExecutionResponse)
  | executed (request executor_index : Nat) (execution_started : Int) (response : ExecutionResponse) (completed : Bool)
  | finishing (request : Nat) (ops : List WorkerOp)
  | exited
  | terminated (ops : List WorkerOp)

def WorkerPc.isExited : WorkerPc → Bool
  | .exited => true
  | _ => false

/-- Where a call of `beginDrain` stands, after its locked store. -/
inductive DrainPc where
  | idle
  | joining
  | rejecting
  | answering (pending : List Nat)
  | returned

/-- The scheduler and the threads at it. A request is named by the call of
`submit` it came with; waiting on `queue_cv_` is a step's guard, so its
notifications have nothing to do. -/
structure State (setup : Setup) where
  now : Int := 0
  queue_ : List Nat := []
  draining_ : Bool := false
  slots_mutex_ : Option (Fin setup.config.kv_cache_slots) := none
  active_decodes_ : Nat := 0
  inflight_ : List Nat := List.replicate setup.executors 0
  metrics_ : SchedulerMetrics := {}
  requests : Nat → Option PendingRequest := fun _ => none
  cancel_tokens : Nat → Bool := fun _ => false
  submits : Nat → SubmitPc := fun _ => .idle
  workers : Fin setup.config.kv_cache_slots → WorkerPc := fun _ => .popping
  drains : Nat → DrainPc := fun _ => .idle

end neuriplo.llm
