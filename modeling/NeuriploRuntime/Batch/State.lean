import Mathlib.Data.List.FinRange
import Mathlib.Logic.Function.Basic
import NeuriploRuntime.Batch.DynamicBatcher
import NeuriploRuntime.Scheduler.Result
import NeuriploRuntime.Transition.System

open neuriplo.scheduler neuriplo.tensor transition

namespace neuriplo.batch

/-- What a `ModelScheduler` is constructed with: the constructor throws without
executors, and there are one or more workers. -/
structure Setup where
  config : SchedulerConfig
  executors : Nat
  hexecutors : 0 < executors
  hinstances : 0 < config.instances

/-- Where a call of `submit` stands. -/
inductive SubmitPc where
  | idle
  | checkingDraining (request : ExecutionRequest)
  | dating (request : ExecutionRequest)
  | enqueuing (request : ExecutionRequest) (enqueued_at deadline : Int)
  | notifying
  | waiting
  | expiring (expiry : Expiry)
  | returned (result : SchedulerResult)

/-- The local variables of `formBatch`. -/
structure Formation where
  formation_started : Int
  formation_deadline : Int
  batch : List Nat
  merged_batch_dimension : Nat
deriving DecidableEq, Repr

/-- An iterator into `queue_`: its position, and the generation of the queue that
it was obtained in. -/
structure Iterator where
  position : Nat
  generation : Nat
deriving DecidableEq, Repr

/-- The straight-line steps of a worker, each with the request it is about. -/
inductive WorkerOp where
  | notifyOne
  | setToken (request : Nat)
  | countTimedOut (request : Nat)
  | fulfillResult (request : Nat) (result : SchedulerResult)
  | setValue (request : Nat) (result : SchedulerResult)
  | release (executor_index : Nat)
  | recordBatchExecution (execution_ns : Int)
  | checkCancelled (request : Nat) (execution_started execution_finished : Int) (response : ExecutionResponse)
  | settle (request : Nat) (execution_started execution_finished : Int) (batch_size : Nat)
      (response : ExecutionResponse)
  | recordLatencies (request : Nat) (execution_started execution_finished : Int)

/-- What is handed to an executor: one request, or several merged. -/
inductive Job where
  | single (request : Nat)
  | batched (active_batch : List Nat) (merged : MergedBatch)

def Job.members : Job → List Nat
  | .single request => [request]
  | .batched active_batch _ => active_batch

/-- Where a worker stands. The two loops of `processBatch` keep what they have
passed and what is left. A worker whose batch cannot be split is `throwing`. It is
`terminated` when an exception leaves its thread, of a promise that has a value
already or of the batch that was split: `std::terminate` ends the process there, so
that what the other threads do afterwards is no longer the code's. It is `undefined`
once it uses an iterator that is not valid. -/
inductive WorkerPc where
  | popping
  | popWaiting
  | forming (first : Nat)
  | deciding (formation : Formation)
  | locking (formation : Formation) (delay_elapsed : Bool)
  | formWaiting (formation : Formation) (wait_deadline : Int)
  | expiring (formation : Formation) (delay_elapsed : Bool) (iterator : Iterator) (ops : List WorkerOp)
  | rescanning (formation : Formation) (delay_elapsed : Bool) (iterator : Iterator)
  | joinNotifying (formation : Formation)
  | joined (formation : Formation)
  | formed (formation : Formation)
  | processing (batch : List Nat)
  | sweeping (now : Int) (swept rest : List Nat)
  | sweepExpiring (now : Int) (swept : List Nat) (request : Nat) (rest : List Nat) (ops : List WorkerOp)
  | collecting (rest active_batch : List Nat)
  | collectingDeadline (request : Nat) (rest active_batch : List Nat)
  | single (request : Nat)
  | singleDeadline (request : Nat)
  | selecting (job : Job)
  | starting (job : Job) (executor_index : Nat)
  | executing (job : Job) (executor_index : Nat) (execution_started : Int)
  | executed (job : Job) (executor_index : Nat) (execution_started : Int) (response : ExecutionResponse)
  | finishing (ops : List WorkerOp)
  | throwing (active_batch : List Nat) (ops : List WorkerOp)
  | exited
  | terminated (active_batch : List Nat)
  | undefined

def WorkerPc.isExited : WorkerPc → Bool
  | .exited => true
  | _ => false

def WorkerPc.isWaiting : WorkerPc → Bool
  | .popWaiting => true
  | .formWaiting _ _ => true
  | _ => false

/-- Where a call of `stopAccepting` or of `beginDrain` stands. -/
inductive DrainPc where
  | idle
  | notifying (join : Bool)
  | joining
  | rejecting
  | answering (pending : List Nat)
  | returned

/-- The scheduler and the threads at it. A request is named by the call of
`submit` it came with, and `generation` counts the changes of `queue_`. -/
structure State (setup : Setup) where
  now : Int := 0
  queue_ : List Nat := []
  generation : Nat := 0
  draining_ : Bool := false
  inflight_ : List Nat := List.replicate setup.executors 0
  metrics_ : SchedulerMetrics := {}
  requests : Nat → Option PendingRequest := fun _ => none
  cancel_tokens : Nat → Bool := fun _ => false
  submits : Nat → SubmitPc := fun _ => .idle
  workers : Fin setup.config.instances → WorkerPc := fun _ => .popping
  drains : Nat → DrainPc := fun _ => .idle

/-- What the pointers in `queue_` and in the batches lead to. -/
def State.pending {setup : Setup} (s : State setup) (request : Nat) : PendingRequest :=
  (s.requests request).getD { request := {}, enqueued_at := 0, deadline := 0 }

end neuriplo.batch
