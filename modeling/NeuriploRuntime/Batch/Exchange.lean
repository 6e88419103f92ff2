import NeuriploRuntime.Batch.Step

open neuriplo.scheduler neuriplo.tensor transition

namespace neuriplo.batch

variable {setup : Setup}

theorem requestBatchSize_congr {call call' : ExecutionRequest} (hinputs : call'.inputs = call.inputs) :
    requestBatchSize call' = requestBatchSize call := by
  rw [requestBatchSize, requestBatchSize, hinputs]

theorem findInputByName_congr {call call' : ExecutionRequest} (hinputs : call'.inputs = call.inputs) (name : String) :
    findInputByName call' name = findInputByName call name := by
  rw [findInputByName, findInputByName, hinputs]

/-- Compatibility depends on the inputs and the requested outputs only. -/
theorem batchCompatibilityError_congr {left left' right right' : ExecutionRequest}
    (hleft : left'.inputs = left.inputs) (hright : right'.inputs = right.inputs)
    (hleftOutputs : left'.requested_outputs = left.requested_outputs)
    (hrightOutputs : right'.requested_outputs = right.requested_outputs) :
    batchCompatibilityError left' right' = batchCompatibilityError left right := by
  have hinput : inputCompatibilityError right' = inputCompatibilityError right := by
    funext input
    rw [inputCompatibilityError, inputCompatibilityError, findInputByName_congr hright]
  unfold batchCompatibilityError
  simp only [hleft, hright, hleftOutputs, hrightOutputs, hinput, findInputByName_congr hleft]

/-- Merging depends on the inputs only. -/
theorem mergeInputs_congr {call call' : Nat → ExecutionRequest}
    (hinputs : ∀ request, (call' request).inputs = (call request).inputs) (requests : List Nat) (batch_sizes : List Nat)
    (reference_inputs : List InputTensor) :
    mergeInputs (requests.map call') batch_sizes reference_inputs =
      mergeInputs (requests.map call) batch_sizes reference_inputs := by
  induction reference_inputs with
  | nil => rfl
  | cons reference_input reference_inputs ih =>
    simp only [mergeInputs, List.mapM_map, Function.comp_def, findInputByName_congr (hinputs _), ih]

/-- Merging looks at the inputs and the requested outputs only. -/
theorem mergeExecutionRequests_congr {call call' : Nat → ExecutionRequest}
    (hinputs : ∀ request, (call' request).inputs = (call request).inputs)
    (houtputs : ∀ request, (call' request).requested_outputs = (call request).requested_outputs) (requests : List Nat) :
    mergeExecutionRequests (requests.map call') = mergeExecutionRequests (requests.map call) := by
  cases requests with
  | nil => rfl
  | cons front others =>
    have herror : batchCompatibilityError (call' front) ∘ call' = batchCompatibilityError (call front) ∘ call := by
      funext other
      exact batchCompatibilityError_congr (hinputs front) (hinputs other) (houtputs front) (houtputs other)
    have hmerge := mergeInputs_congr hinputs (front :: others)
    simp only [List.map_cons] at hmerge
    simp only [mergeExecutionRequests, List.map_cons, List.any_cons, List.any_map, List.map_map, Function.comp_def,
      List.findSome?_map, hinputs, houtputs, requestBatchSize_congr (hinputs _), hmerge]
    simp only [Function.comp_def] at herror
    rw [herror]

/-- Splitting depends on the number of requests only. -/
theorem splitExecutionResponse_congr {requests requests' : List ExecutionRequest}
    (hlength : requests'.length = requests.length) (batched : ExecutionResponse) (batch_sizes : List Nat) :
    splitExecutionResponse batched batch_sizes requests' = splitExecutionResponse batched batch_sizes requests := by
  rw [splitExecutionResponse, splitExecutionResponse, List.map_const', List.map_const', hlength]

/-- Calls in the place of the ones that were made, for the same tensors. -/
structure Exchange where
  call : Nat → ExecutionRequest → ExecutionRequest
  inputs : ∀ request made, (call request made).inputs = made.inputs
  requested_outputs : ∀ request made, (call request made).requested_outputs = made.requested_outputs
  default : ∀ request, call request {} = {}

namespace Exchange

variable (exchange : Exchange)

def pending (request : Nat) (found : PendingRequest) : PendingRequest :=
  { found with request := exchange.call request found.request }

def submitPc (request : Nat) : SubmitPc → SubmitPc
  | .checkingDraining made => .checkingDraining (exchange.call request made)
  | .dating made => .dating (exchange.call request made)
  | .enqueuing made enqueued_at deadline => .enqueuing (exchange.call request made) enqueued_at deadline
  | pc => pc

def state (s : State setup) : State setup :=
  { s with
    requests := fun request => (s.requests request).map (exchange.pending request)
    submits := fun request => exchange.submitPc request (s.submits request) }

def event : Event setup → Event setup
  | .submit request made => .submit request (exchange.call request made)
  | event => event

section Pending

variable (request : Nat) (found : PendingRequest)

@[simp] theorem pending_inputs : (exchange.pending request found).request.inputs = found.request.inputs :=
  exchange.inputs request found.request

@[simp] theorem pending_requested_outputs :
    (exchange.pending request found).request.requested_outputs = found.request.requested_outputs :=
  exchange.requested_outputs request found.request

@[simp] theorem pending_enqueued_at : (exchange.pending request found).enqueued_at = found.enqueued_at := rfl

@[simp] theorem pending_deadline : (exchange.pending request found).deadline = found.deadline := rfl

@[simp] theorem pending_promise : (exchange.pending request found).promise = found.promise := rfl

@[simp] theorem pending_cancelled : (exchange.pending request found).cancelled = found.cancelled := rfl

end Pending

section State

variable (s : State setup)

@[simp] theorem pending_state (request : Nat) :
    (exchange.state s).pending request = exchange.pending request (s.pending request) := by
  unfold State.pending
  change ((s.requests request).map (exchange.pending request)).getD _ = _
  cases s.requests request with
  | none => simp only [Option.map_none, Option.getD_none, pending, exchange.default]
  | some found => rfl

/-- The exchange goes along with a step of `submit`. -/
theorem state_setSubmit (request : Nat) (pc : SubmitPc) :
    exchange.state (s.setSubmit request pc) =
      (exchange.state s).setSubmit request (exchange.submitPc request pc) := by
  have hsubmits : (fun other => exchange.submitPc other (Function.update s.submits request pc other)) =
      Function.update (fun other => exchange.submitPc other (s.submits other)) request
        (exchange.submitPc request pc) := by
    funext other
    by_cases hother : other = request
    · rw [hother, Function.update_self, Function.update_self]
    · rw [Function.update_of_ne hother, Function.update_of_ne hother]
  unfold state State.setSubmit
  rw [hsubmits]

theorem map_update (requests : Nat → Option PendingRequest) (request : Nat) (found : PendingRequest) :
    (fun other => (Function.update requests request (some found) other).map (exchange.pending other)) =
      Function.update (fun other => (requests other).map (exchange.pending other)) request
        (some (exchange.pending request found)) := by
  funext other
  by_cases hother : other = request
  · rw [hother, Function.update_self, Function.update_self, Option.map_some]
  · rw [Function.update_of_ne hother, Function.update_of_ne hother]

/-- The exchange goes along with a change of a request. -/
theorem state_setRequest (request : Nat) (found : PendingRequest) :
    exchange.state (s.setRequest request found) =
      (exchange.state s).setRequest request (exchange.pending request found) := by
  unfold state State.setRequest
  rw [map_update]

/-- The exchange leaves the batch sizes alone. -/
@[simp] theorem batchSize_state (request : Nat) : (exchange.state s).batchSize request = s.batchSize request := by
  rw [State.batchSize, State.batchSize, pending_state, requestBatchSize_congr (exchange.pending_inputs _ _)]

/-- The exchange leaves the scans alone. -/
@[simp] theorem scan_state (formation : Formation) (passed : List Nat) (made_progress : Bool) (rest : List Nat) :
    (exchange.state s).scan formation passed made_progress rest = s.scan formation passed made_progress rest := by
  induction rest generalizing passed made_progress with
  | nil => rfl
  | cons next rest ih =>
    have hcompatible (front : Nat) :
        areBatchCompatible (exchange.pending front (s.pending front)).request
          (exchange.pending next (s.pending next)).request =
            areBatchCompatible (s.pending front).request (s.pending next).request := by
      unfold areBatchCompatible
      rw [batchCompatibilityError_congr (exchange.pending_inputs _ _) (exchange.pending_inputs _ _)
        (exchange.pending_requested_outputs _ _) (exchange.pending_requested_outputs _ _)]
    have hnow : (exchange.state s).now = s.now := rfl
    simp only [State.scan, pending_state, pending_cancelled, pending_deadline, hcompatible, hnow, batchSize_state, ih]

/-- The exchange leaves the dispatch alone. -/
@[simp] theorem dispatch_state (active_batch : List Nat) :
    (exchange.state s).dispatch active_batch = s.dispatch active_batch := by
  have hmerge (requests : List Nat) :
      mergeExecutionRequests (requests.map fun request => ((exchange.state s).pending request).request) =
        mergeExecutionRequests (requests.map fun request => (s.pending request).request) := by
    apply mergeExecutionRequests_congr
    · intro request
      rw [pending_state, pending_inputs]
    · intro request
      rw [pending_state, pending_requested_outputs]
  match active_batch with
  | [] => rfl
  | [request] => rfl
  | first :: second :: rest =>
    simp only [State.dispatch]
    rw [hmerge]

/-- The exchange leaves alone what is done with a response. -/
@[simp] theorem settleJob_state (job : Job) (executor_index : Nat) (execution_started : Int)
    (response : ExecutionResponse) :
    (exchange.state s).settleJob job executor_index execution_started response =
      s.settleJob job executor_index execution_started response := by
  cases job with
  | single request => rfl
  | batched active_batch merged =>
    have hlength : (active_batch.map fun request => ((exchange.state s).pending request).request).length =
        (active_batch.map fun request => (s.pending request).request).length := by
      rw [List.length_map, List.length_map]
    simp only [State.settleJob]
    rw [splitExecutionResponse_congr hlength]
    rfl

/-- A scan goes along with the exchange. -/
theorem runScan_state (worker : Fin setup.config.instances) (formation : Formation) (delay_elapsed : Bool)
    (position : Nat) (made_progress : Bool) :
    (exchange.state s).runScan worker formation delay_elapsed position made_progress =
      exchange.state (s.runScan worker formation delay_elapsed position made_progress) := by
  have hwait (queue_ : List Nat) : (exchange.state s).waitDeadline formation queue_ =
      s.waitDeadline formation queue_ := by
    simp only [State.waitDeadline, pending_state, pending_cancelled, pending_deadline]
  have hqueue : (exchange.state s).queue_ = s.queue_ := rfl
  simp only [State.runScan, scan_state, batchSize_state, hwait, hqueue]
  rfl

/-- A straight-line step goes along with the exchange. -/
theorem perform_state (worker : Fin setup.config.instances) (next : List WorkerOp → WorkerPc) (ops : List WorkerOp)
    (op : WorkerOp) :
    (exchange.state s).perform worker next ops op = (s.perform worker next ops op).map exchange.state := by
  cases op with
  | fulfillResult request result =>
    simp only [State.perform, pending_state, pending_cancelled]
    rfl
  | setValue request result =>
    simp only [State.perform, pending_state, pending_promise]
    cases (s.pending request).promise with
    | none =>
      have hset := exchange.state_setRequest s request { s.pending request with promise := some result }
      simp only [Option.map_some, Option.some.injEq]
      change ((exchange.state s).setRequest request _).setWorker worker (next ops) =
        (exchange.state (s.setRequest request _)).setWorker worker (next ops)
      rw [hset]
      rfl
    | some answered => rfl
  | checkCancelled request execution_started execution_finished response =>
    simp only [State.perform, pending_state, pending_cancelled]
    rfl
  | settle request execution_started execution_finished batch_size response =>
    simp only [State.perform, pending_state, pending_deadline, pending_enqueued_at]
    rfl
  | recordLatencies request execution_started execution_finished =>
    simp only [State.perform, pending_state, pending_enqueued_at]
    rfl
  | _ => rfl

/-- A notification goes along with the exchange. -/
theorem notifyOne_state (woken : Option (Fin setup.config.instances)) :
    (exchange.state s).notifyOne woken = (s.notifyOne woken).map exchange.state := by
  have hworkers : (exchange.state s).workers = s.workers := rfl
  cases woken with
  | none =>
    simp only [State.notifyOne, hworkers]
    split <;> rfl
  | some worker =>
    simp only [State.notifyOne, hworkers]
    split <;> rfl

/-- A worker's step goes along with the exchange. -/
theorem runWorker_state (worker : Fin setup.config.instances) :
    (exchange.state s).runWorker worker = (s.runWorker worker).map exchange.state := by
  have hworkers : (exchange.state s).workers = s.workers := rfl
  unfold State.runWorker
  rw [hworkers]
  cases hpc : s.workers worker with
  | popping =>
    have hqueue : (exchange.state s).queue_ = s.queue_ := rfl
    simp only [State.popNextPending, hqueue]
    cases s.queue_ <;> rfl
  | forming first =>
    simp only [State.form, State.mergedBatchDimension, List.map_cons, List.map_nil, batchSize_state]
    rfl
  | locking formation delay_elapsed =>
    have hdraining : (exchange.state s).draining_ = s.draining_ := rfl
    simp only [hdraining, runScan_state]
    split <;> rfl
  | expiring formation delay_elapsed iterator ops =>
    cases ops with
    | nil => rfl
    | cons op ops => exact perform_state exchange s worker _ ops op
  | rescanning formation delay_elapsed iterator =>
    have hgeneration : (exchange.state s).generation = s.generation := rfl
    simp only [hgeneration, runScan_state]
    split <;> rfl
  | formed formation =>
    simp only [State.recordBatch]
    split <;> rfl
  | sweeping now swept rest =>
    cases rest with
    | nil => rfl
    | cons request rest =>
      simp only [pending_state, pending_cancelled, pending_deadline]
      split
      · rfl
      · split <;> rfl
  | sweepExpiring now swept request rest ops =>
    cases ops with
    | nil => rfl
    | cons op ops => exact perform_state exchange s worker _ ops op
  | collecting rest active_batch =>
    cases rest with
    | nil =>
      simp only [dispatch_state]
      rfl
    | cons request rest =>
      simp only [pending_state, pending_cancelled]
      rfl
  | collectingDeadline request rest active_batch =>
    simp only [pending_state, pending_deadline]
    rfl
  | single request =>
    simp only [pending_state, pending_cancelled]
    rfl
  | singleDeadline request =>
    simp only [pending_state, pending_deadline]
    rfl
  | executed job executor_index execution_started response =>
    simp only [settleJob_state]
    rfl
  | finishing ops | throwing active_batch ops =>
    cases ops with
    | nil => rfl
    | cons op ops => exact perform_state exchange s worker _ ops op
  | _ => rfl

/-- Queueing goes along with the exchange. -/
theorem enqueue_state (request : Nat) (made : ExecutionRequest) (enqueued_at deadline : Int) :
    (exchange.state s).enqueue request (exchange.call request made) enqueued_at deadline =
      exchange.state (s.enqueue request made enqueued_at deadline) := by
  have hdraining : (exchange.state s).draining_ = s.draining_ := rfl
  have hqueue : (exchange.state s).queue_ = s.queue_ := rfl
  unfold State.enqueue
  rw [hdraining, hqueue]
  split
  · rw [state_setSubmit]
    rfl
  · split
    · rw [state_setSubmit]
      rfl
    · rw [state_setSubmit]
      unfold state
      dsimp only
      rw [map_update]
      rfl

/-- A step of `submit` goes along with the exchange. -/
theorem runSubmit_state (request : Nat) :
    (exchange.state s).runSubmit request = (s.runSubmit request).map exchange.state := by
  have hsubmits : (exchange.state s).submits request = exchange.submitPc request (s.submits request) := rfl
  unfold State.runSubmit
  rw [hsubmits]
  cases hpc : s.submits request with
  | idle | notifying | returned => rfl
  | checkingDraining made =>
    simp only [submitPc, Option.map_some, state_setSubmit, Option.some.injEq]
    change (exchange.state s).setSubmit request (if s.draining_ then _ else _) = _
    split <;> rfl
  | dating made =>
    simp only [submitPc, Option.map_some, state_setSubmit]
    rfl
  | enqueuing made enqueued_at deadline => simp only [submitPc, Option.map_some, enqueue_state]
  | waiting =>
    simp only [submitPc, pending_state, pending_promise, pending_deadline]
    cases (s.pending request).promise with
    | some result => simp only [Option.map_some, state_setSubmit, submitPc]
    | none =>
      change (if (s.pending request).deadline ≤ s.now then _ else _) = _
      simp only
      split
      · simp only [Option.map_some, state_setSubmit, submitPc]
      · rfl
  | expiring expiry =>
    cases expiry with
    | setToken =>
      simp only [submitPc, Option.map_some, state_setSubmit]
      rfl
    | setCancelled =>
      simp only [submitPc, Option.map_some, state_setSubmit, state_setRequest, pending_state]
      rfl
    | countTimedOut =>
      simp only [submitPc, Option.map_some, state_setSubmit]
      rfl
    | answer => simp only [submitPc, Option.map_some, state_setSubmit]

/-- A step of a drain goes along with the exchange. -/
theorem runDrain_state (thread : Nat) :
    (exchange.state s).runDrain thread = (s.runDrain thread).map exchange.state := by
  have hdrains : (exchange.state s).drains = s.drains := rfl
  have hworkers : (exchange.state s).workers = s.workers := rfl
  unfold State.runDrain
  rw [hdrains, hworkers]
  cases hpc : s.drains thread with
  | joining =>
    simp only
    split <;> rfl
  | answering pending =>
    cases pending with
    | nil => rfl
    | cons request pending =>
      simp only [pending_state, pending_promise]
      cases (s.pending request).promise with
      | none =>
        simp only [Option.map_some, Option.some.injEq]
        change _ = (exchange.state (s.setRequest request _)).setDrain thread (.answering pending)
        rw [state_setRequest]
        rfl
      | some answered => rfl
  | _ => rfl

/-- The scheduler goes on in the same way whatever calls it is given for the same
tensors. -/
theorem step_state (event : Event setup) :
    (exchange.state s).step (exchange.event event) = (s.step event).map exchange.state := by
  have hworkers : (exchange.state s).workers = s.workers := rfl
  have hdrains : (exchange.state s).drains = s.drains := rfl
  cases event with
  | tick | cancel => rfl
  | submit request made =>
    have hsubmits : (exchange.state s).submits request = exchange.submitPc request (s.submits request) := rfl
    simp only [Exchange.event, State.step, hsubmits]
    cases hpc : s.submits request with
    | idle => simp only [submitPc, Option.map_some, state_setSubmit]
    | _ => rfl
  | submitter request => exact exchange.runSubmit_state s request
  | notifySubmitted request woken =>
    have hsubmits : (exchange.state s).submits request = exchange.submitPc request (s.submits request) := rfl
    simp only [Exchange.event, State.step, State.notifySubmitted, hsubmits]
    cases hpc : s.submits request with
    | notifying =>
      simp only [submitPc, notifyOne_state, Option.map_map]
      apply congrArg (Option.map · (s.notifyOne woken))
      funext t
      exact (exchange.state_setSubmit t request .waiting).symm
    | _ => rfl
  | worker worker => exact exchange.runWorker_state s worker
  | notifyErased worker woken =>
    simp only [Exchange.event, State.step, State.notifyErased, hworkers]
    split
    · simp only [notifyOne_state, Option.map_map]
      rfl
    · simp only [notifyOne_state, Option.map_map]
      rfl
    · rfl
  | wake worker =>
    simp only [Exchange.event, State.step, hworkers]
    split <;> rfl
  | infer worker outcome =>
    simp only [Exchange.event, State.step, State.infer, hworkers]
    split <;> rfl
  | undefined worker formation queue_ =>
    simp only [Exchange.event, State.step, hworkers]
    split <;> rfl
  | stopAccepting thread =>
    simp only [Exchange.event, State.step, hdrains]
    split <;> rfl
  | beginDrain thread =>
    simp only [Exchange.event, State.step, hdrains]
    split <;> rfl
  | drain thread => exact exchange.runDrain_state s thread

/-- A run goes along with the exchange. -/
theorem replay_state (events : List (Event setup)) :
    System.replay State.step (exchange.state s) (events.map exchange.event) =
      (System.replay State.step s events).map exchange.state :=
  System.replay_map (fun s event => exchange.step_state s event) events s

end State

/-- One call in the place of another, for one request. -/
def swap (request : Nat) (made other : ExecutionRequest) (hinputs : other.inputs = made.inputs)
    (houtputs : other.requested_outputs = made.requested_outputs) (hmade : made ≠ {}) : Exchange where
  call request' call := if request' = request ∧ call = made then other else call
  inputs request' call := by
    split
    · rename_i hcall
      rw [hinputs, hcall.2]
    · rfl
  requested_outputs request' call := by
    split
    · rename_i hcall
      rw [houtputs, hcall.2]
    · rfl
  default request' := by
    rw [if_neg]
    rintro ⟨-, hdefault⟩
    exact hmade hdefault.symm

end Exchange

end neuriplo.batch
