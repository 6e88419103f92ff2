import NeuriploRuntime.Batch.Delivery
import NeuriploRuntime.Batch.Ledger

open neuriplo.scheduler neuriplo.tensor transition

namespace neuriplo.batch

variable {setup : Setup}

/-- The result of a request that was answered without an inference. -/
def Unexecuted (result : SchedulerResult) : Prop :=
  result = makeDrainingResult ∨ ∃ error, result = makeExecutorFailureResult error

/-- The result of a request that an executor has answered. -/
def Executed (result : SchedulerResult) : Prop :=
  ∃ enqueued_at execution_started execution_finished batch_size response, 0 < batch_size ∧
    result = completedResult enqueued_at execution_started execution_finished batch_size response

/-- The result is one that a counter counts. -/
def isCounted (result : SchedulerResult) : Bool :=
  result.scheduler_error = .timeout || 0 < result.batch_size

theorem completedResult_batch_size (enqueued_at execution_started execution_finished : Int) (batch_size : Nat)
    (response : ExecutionResponse) :
    (completedResult enqueued_at execution_started execution_finished batch_size response).batch_size = batch_size := by
  unfold completedResult SchedulerResult.adopt
  split <;> rfl

/-- The result of an execution is counted. -/
theorem Executed.isCounted {result : SchedulerResult} (hexecuted : Executed result) : isCounted result = true := by
  obtain ⟨_, _, _, batch_size, _, hpositive, rfl⟩ := hexecuted
  simp [batch.isCounted, completedResult_batch_size, hpositive]

/-- A result without an execution is not counted. -/
theorem Unexecuted.not_counted {result : SchedulerResult} (hunexecuted : Unexecuted result) :
    isCounted result = false := by
  obtain rfl | ⟨error, rfl⟩ := hunexecuted
  · rfl
  · rfl

/-- The result of an execution is no timeout. -/
theorem Executed.ne_timeout {result : SchedulerResult} (hexecuted : Executed result) : result ≠ makeTimeoutResult := by
  obtain ⟨_, _, _, batch_size, _, hpositive, rfl⟩ := hexecuted
  intro heq
  have hsize := congrArg SchedulerResult.batch_size heq
  rw [completedResult_batch_size] at hsize
  change batch_size = 0 at hsize
  omega

section Log

variable {log log' : List Entry} {request : Nat} {result : SchedulerResult}

/-- Neither the submitter nor a worker has counted the request. -/
def Uncounted (log : List Entry) (request : Nat) : Prop :=
  ⟨.timedOut, request⟩ ∉ log ∧ ⟨.completed, request⟩ ∉ log

/-- The result was counted, under its own name. -/
def CountedAs (log : List Entry) (request : Nat) (result : SchedulerResult) : Prop :=
  result = makeTimeoutResult ∧ ⟨.timedOut, request⟩ ∈ log ∨ Executed result ∧ ⟨.completed, request⟩ ∈ log

/-- The log agrees with the result of the request. -/
def Agrees (log : List Entry) (request : Nat) (result : SchedulerResult) : Prop :=
  CountedAs log request result ∨ Unexecuted result ∧ Uncounted log request

theorem CountedAs.isCounted (hcounted : CountedAs log request result) : isCounted result = true := by
  obtain ⟨rfl, -⟩ | ⟨hexecuted, -⟩ := hcounted
  · rfl
  · exact hexecuted.isCounted

/-- What was counted stays so while the log grows. -/
theorem CountedAs.mono (hcounted : CountedAs log request result) (hmono : ∀ entry ∈ log, entry ∈ log') :
    CountedAs log' request result := by
  obtain ⟨hresult, hmem⟩ | ⟨hexecuted, hmem⟩ := hcounted
  · exact .inl ⟨hresult, hmono _ hmem⟩
  · exact .inr ⟨hexecuted, hmono _ hmem⟩

/-- The two logs say the same about the request. -/
def SameEntries (log log' : List Entry) (request : Nat) : Prop :=
  ∀ counter, ⟨counter, request⟩ ∈ log' ↔ ⟨counter, request⟩ ∈ log

/-- A result agrees with logs that say the same of its request. -/
theorem SameEntries.agrees (hsame : SameEntries log log' request) (hagrees : Agrees log request result) :
    Agrees log' request result := by
  unfold Agrees CountedAs Uncounted at *
  rw [hsame, hsame]
  exact hagrees

/-- Logs that say the same of a request leave it uncounted alike. -/
theorem SameEntries.uncounted (hsame : SameEntries log log' request) (huncounted : Uncounted log request) :
    Uncounted log' request := by
  unfold Uncounted at *
  rw [hsame, hsame]
  exact huncounted

/-- An entry about another request says nothing of this one. -/
theorem sameEntries_cons {counter : Counter} {other : Nat} (hne : request ≠ other) :
    SameEntries log (⟨counter, other⟩ :: log) request := by
  intro kind
  simp [hne]

end Log

/-- The request that a worker has counted and is about to answer. -/
def settling : List WorkerOp → Option Nat
  | .fulfillResult request result :: _ => if isCounted result then some request else none
  | .setValue request result :: _ => if isCounted result then some request else none
  | _ => none

/-- The call of `submit` has not given its request up. -/
def SubmitPc.isAwaiting : SubmitPc → Bool
  | .notifying => true
  | .waiting => true
  | _ => false

def State.Awaits (s : State setup) (request : Nat) : Prop := (s.submits request).isAwaiting = true

/-- The straight-line steps that workers are given: a request is counted right
before it is answered, unless it was never executed. -/
inductive Orderly : List WorkerOp → Prop
  | nil : Orderly []
  | notifyOne {ops : List WorkerOp} (hops : Orderly ops) : Orderly (.notifyOne :: ops)
  | expire (request : Nat) {ops : List WorkerOp} (hops : Orderly ops) :
      Orderly (.setToken request :: .countTimedOut request :: .fulfillResult request makeTimeoutResult :: ops)
  | fail (request : Nat) (result : SchedulerResult) (hresult : Unexecuted result) {ops : List WorkerOp}
      (hops : Orderly ops) : Orderly (.fulfillResult request result :: ops)
  | release (executor_index : Nat) {ops : List WorkerOp} (hops : Orderly ops) :
      Orderly (.release executor_index :: ops)
  | recordBatchExecution (execution_ns : Int) {ops : List WorkerOp} (hops : Orderly ops) :
      Orderly (.recordBatchExecution execution_ns :: ops)
  | checkCancelled (request : Nat) (execution_started execution_finished : Int) (response : ExecutionResponse)
      {ops : List WorkerOp} (hops : Orderly ops) :
      Orderly (.checkCancelled request execution_started execution_finished response :: ops)
  | settle (request : Nat) (execution_started execution_finished : Int) (batch_size : Nat)
      (response : ExecutionResponse) (hsize : 0 < batch_size) {ops : List WorkerOp} (hops : Orderly ops) :
      Orderly (.settle request execution_started execution_finished batch_size response :: ops)
  | complete (request : Nat) (execution_started execution_finished : Int) (result : SchedulerResult)
      (hresult : Executed result) {ops : List WorkerOp} (hops : Orderly ops) :
      Orderly (.recordLatencies request execution_started execution_finished :: .fulfillResult request result :: ops)

/-- The steps a worker has left while it answers a request, with what was
counted so far. -/
inductive Underway (s : State setup) (log : List Entry) : List WorkerOp → Prop
  | orderly {ops : List WorkerOp} (hops : Orderly ops) : Underway s log ops
  | counting (request : Nat) {ops : List WorkerOp} (hops : Orderly ops) :
      Underway s log (.countTimedOut request :: .fulfillResult request makeTimeoutResult :: ops)
  | counted (request : Nat) (result : SchedulerResult) (hcounted : CountedAs log request result)
      (hawaits : s.Awaits request) {ops : List WorkerOp} (hops : Orderly ops) :
      Underway s log (.fulfillResult request result :: ops)
  | setting (request : Nat) (result : SchedulerResult)
      (hresult : CountedAs log request result ∧ s.Awaits request ∨ Unexecuted result) {ops : List WorkerOp}
      (hops : Orderly ops) : Underway s log (.setValue request result :: ops)

section Steps

variable {s s' : State setup} {log log' : List Entry} {worker : Fin setup.config.instances}

theorem settling_fulfillResult {request : Nat} {result : SchedulerResult} (hcounted : isCounted result = true)
    {ops : List WorkerOp} : settling (.fulfillResult request result :: ops) = some request := if_pos hcounted

theorem settling_setValue {request : Nat} {result : SchedulerResult} (hcounted : isCounted result = true)
    {ops : List WorkerOp} : settling (.setValue request result :: ops) = some request := if_pos hcounted

/-- A request that is settled is still to be answered. -/
theorem answers_of_settling {ops : List WorkerOp} {request : Nat} (hsettling : settling ops = some request) :
    request ∈ ops.filterMap (·.answers) := by
  unfold settling at hsettling
  split at hsettling
  · split at hsettling <;> cases hsettling
    exact List.mem_cons_self
  · split at hsettling <;> cases hsettling
    exact List.mem_cons_self
  · cases hsettling

/-- What is underway stays so while the log grows and what is settled is awaited. -/
theorem Underway.mono {ops : List WorkerOp} (hunderway : Underway s log ops) (hlog : ∀ entry ∈ log, entry ∈ log')
    (hawaits : ∀ request, settling ops = some request → s.Awaits request → s'.Awaits request) :
    Underway s' log' ops := by
  cases hunderway with
  | orderly hops => exact .orderly hops
  | counting request hops => exact .counting request hops
  | counted request result hcounted hawaited hops =>
    have hawaited' := hawaits request (settling_fulfillResult hcounted.isCounted) hawaited
    exact .counted request result (hcounted.mono hlog) hawaited' hops
  | setting request result hresult hops =>
    refine .setting request result ?_ hops
    refine hresult.imp_left ?_
    rintro ⟨hcounted, hawaited⟩
    exact ⟨hcounted.mono hlog, hawaits request (settling_setValue hcounted.isCounted) hawaited⟩

end Steps

end neuriplo.batch
