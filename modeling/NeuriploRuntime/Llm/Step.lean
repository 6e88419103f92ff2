import NeuriploRuntime.Llm.State

open neuriplo.scheduler neuriplo.tensor transition

namespace neuriplo.llm

variable {setup : Setup}

/-- `fetch_sub(1)` on a `size_t`. -/
def fetchSub (value : Nat) : Nat := wrapSize (value + (2 ^ 64 - 1))

/-- The end of a request whose deadline was found passed. -/
def expired : List WorkerOp := [.setToken, .countTimedOut, .fulfillResult makeTimeoutResult]

namespace State

def setSubmit (s : State setup) (request : Nat) (pc : SubmitPc) : State setup :=
  { s with submits := Function.update s.submits request pc }

def setWorker (s : State setup) (worker : Fin setup.config.kv_cache_slots) (pc : WorkerPc) : State setup :=
  { s with workers := Function.update s.workers worker pc }

def setDrain (s : State setup) (thread : Nat) (pc : DrainPc) : State setup :=
  { s with drains := Function.update s.drains thread pc }

def setRequest (s : State setup) (request : Nat) (pending : PendingRequest) : State setup :=
  { s with requests := Function.update s.requests request (some pending) }

def setToken (s : State setup) (request : Nat) : State setup :=
  { s with cancel_tokens := Function.update s.cancel_tokens request true }

def countTimedOut (s : State setup) : State setup :=
  { s with metrics_ := { s.metrics_ with requests_timed_out := s.metrics_.requests_timed_out + 1 } }

/-- The locked section of `submit`. -/
def enqueue (s : State setup) (request : Nat) (call : ExecutionRequest) (enqueued_at deadline : Int) : State setup :=
  if s.draining_ then s.setSubmit request (.returned makeDrainingResult)
  else if setup.config.max_queue_size ≤ s.queue_.length then
    { s with metrics_ := { s.metrics_ with requests_rejected := s.metrics_.requests_rejected + 1 } }.setSubmit request
      (.returned makeOverloadedResult)
  else
    { s with
      queue_ := s.queue_ ++ [request]
      metrics_ := { s.metrics_ with requests_accepted := s.metrics_.requests_accepted + 1 }
      requests := Function.update s.requests request
        (some { request := call, enqueued_at, deadline }) }.setSubmit request .waiting

/-- The next step of the call of `submit` that brought the request. -/
def runSubmit (s : State setup) (request : Nat) : Option (State setup) :=
  match s.submits request with
  | .validating call =>
    let estimated_tokens := setup.countTokens (promptText call)
    match validateLlmRequest call setup.config estimated_tokens with
    | some error => some (s.setSubmit request (.returned (makeInvalidArgumentResult error)))
    | none => some (s.setSubmit request (.checkingDraining call estimated_tokens))
  | .checkingDraining call estimated_tokens =>
    some (s.setSubmit request
      (if s.draining_ then .returned makeDrainingResult else .checkingMemory call estimated_tokens))
  | .checkingMemory call estimated_tokens =>
    if memoryPressure setup.config s.active_decodes_ estimated_tokens then
      some ({ s with metrics_ := { s.metrics_ with
        requests_memory_pressure_rejected := s.metrics_.requests_memory_pressure_rejected + 1 } }.setSubmit request
          (.returned makeMemoryPressureResult))
    else some (s.setSubmit request (.dating call))
  | .dating call =>
    some (s.setSubmit request (.enqueuing call s.now (deadlineAfter s.now setup.config.request_timeout_ms)))
  | .enqueuing call enqueued_at deadline => some (s.enqueue request call enqueued_at deadline)
  | .waiting =>
    match s.requests request with
    | none => none
    | some pending =>
      match pending.promise with
      | some result => some (s.setSubmit request (.returned result))
      | none => if pending.deadline ≤ s.now then some (s.setSubmit request (.expiring .setToken)) else none
  | .expiring .setToken => some ((s.setToken request).setSubmit request (.expiring .setCancelled))
  | .expiring .setCancelled =>
    match s.requests request with
    | none => none
    | some pending =>
      some ((s.setRequest request { pending with cancelled := true }).setSubmit request (.expiring .countTimedOut))
  | .expiring .countTimedOut => some (s.countTimedOut.setSubmit request (.expiring .answer))
  | .expiring .answer => some (s.setSubmit request (.returned makeTimeoutResult))
  | _ => none

/-- `acquireDecodeSlot` returns false, and `processSingle` answers a timeout. -/
def refuseSlot (s : State setup) (worker : Fin setup.config.kv_cache_slots) (request : Nat) : State setup :=
  { s with slots_mutex_ := none }.setWorker worker
    (.finishing request [.countTimedOut, .fulfillResult makeTimeoutResult])

def acquire (s : State setup) (worker : Fin setup.config.kv_cache_slots) (request : Nat) :
    AcquireStage → Option (State setup)
  | .lock =>
    if s.slots_mutex_ = none then
      some ({ s with slots_mutex_ := some worker }.setWorker worker (.acquiring request (.predDraining false)))
    else none
  | .predDraining timedOut =>
    some (s.setWorker worker
      (.acquiring request (if s.draining_ then .readDraining else .predActive timedOut)))
  | .predActive timedOut =>
    if s.active_decodes_ < setup.config.kv_cache_slots then
      some (s.setWorker worker (.acquiring request .readDraining))
    else if timedOut then some (s.refuseSlot worker request)
    else some ({ s with slots_mutex_ := none }.setWorker worker (.acquiring request .parked))
  | .parked =>
    match s.slots_mutex_, s.requests request with
    | none, some pending =>
      some ({ s with slots_mutex_ := some worker }.setWorker worker
        (.acquiring request (.predDraining (pending.deadline ≤ s.now))))
    | _, _ => none
  | .readDraining =>
    if s.draining_ then some (s.refuseSlot worker request)
    else some (s.setWorker worker (.acquiring request .readActive))
  | .readActive =>
    if setup.config.kv_cache_slots ≤ s.active_decodes_ then some (s.refuseSlot worker request)
    else some (s.setWorker worker (.acquiring request .add))
  | .add =>
    some ({ s with
      active_decodes_ := wrapSize (s.active_decodes_ + 1)
      slots_mutex_ := none }.setWorker worker (.recheckingDraining request))

/-- One of the straight-line steps, with `ops` left to do after it. -/
def perform (s : State setup) (worker : Fin setup.config.kv_cache_slots) (request : Nat) (pending : PendingRequest)
    (ops : List WorkerOp) : WorkerOp → State setup
  | .setToken => (s.setToken request).setWorker worker (.finishing request ops)
  | .decrementInflight executor_index =>
    { s with inflight_ := s.inflight_.modify executor_index (· - 1) }.setWorker worker (.finishing request ops)
  | .releaseDecodeSlot =>
    { s with active_decodes_ := fetchSub s.active_decodes_ }.setWorker worker (.finishing request ops)
  | .settle execution_started execution_finished response =>
    if pending.cancelled then s.setWorker worker (.finishing request ops)
    else if pending.deadline ≤ execution_finished then s.setWorker worker (.finishing request (expired ++ ops))
    else
      s.setWorker worker (.finishing request
        (.recordLatencies execution_started execution_finished ::
          .fulfillResult (completedResult pending.enqueued_at execution_started execution_finished 1 response) :: ops))
  | .recordLatencies execution_started execution_finished =>
    { s with metrics_ := { s.metrics_ with
      queue_wait_ns_total := s.metrics_.queue_wait_ns_total + (execution_started - pending.enqueued_at)
      execution_ns_total := s.metrics_.execution_ns_total + (execution_finished - execution_started)
      total_ns_total := s.metrics_.total_ns_total + (execution_finished - pending.enqueued_at)
      completed_requests := s.metrics_.completed_requests + 1 } }.setWorker worker (.finishing request ops)
  | .countTimedOut => s.countTimedOut.setWorker worker (.finishing request ops)
  | .fulfillResult result =>
    s.setWorker worker (.finishing request (if pending.cancelled then ops else .setValue result :: ops))
  | .setValue result =>
    match pending.promise with
    | none => (s.setRequest request { pending with promise := some result }).setWorker worker (.finishing request ops)
    | some _ => s.setWorker worker (.terminated ops)

/-- The next step of a worker that is not inside its executor. -/
def runWorker (s : State setup) (worker : Fin setup.config.kv_cache_slots) : Option (State setup) :=
  match s.workers worker with
  | .popping =>
    match s.queue_ with
    | request :: queue_ => some ({ s with queue_ }.setWorker worker (.checkingCancelled request))
    | [] => if s.draining_ then some (s.setWorker worker .exited) else none
  | .checkingCancelled request =>
    (s.requests request).map fun pending =>
      s.setWorker worker (if pending.cancelled then .popping else .checkingDeadline request)
  | .checkingDeadline request =>
    (s.requests request).map fun pending =>
      s.setWorker worker
        (if pending.deadline ≤ s.now then .finishing request expired else .acquiring request .lock)
  | .acquiring request stage => s.acquire worker request stage
  | .recheckingDraining request =>
    some (s.setWorker worker
      (if s.draining_ then .finishing request [.releaseDecodeSlot, .fulfillResult makeDrainingResult]
        else .recheckingDeadline request))
  | .recheckingDeadline request =>
    (s.requests request).map fun pending =>
      s.setWorker worker
        (if pending.deadline ≤ s.now then
          .finishing request [.setToken, .releaseDecodeSlot, .countTimedOut, .fulfillResult makeTimeoutResult]
        else .selecting request)
  | .selecting request =>
    let executor_index := selectExecutorIndex s.inflight_
    some ({ s with inflight_ := s.inflight_.modify executor_index (· + 1) }.setWorker worker
      (.starting request executor_index))
  | .starting request executor_index => some (s.setWorker worker (.executing request executor_index s.now))
  | .readingToken request executor_index execution_started response =>
    some (s.setWorker worker
      (.executed request executor_index execution_started response (!s.cancel_tokens request)))
  | .executed request executor_index execution_started response completed =>
    some (s.setWorker worker (.finishing request
      (.decrementInflight executor_index :: .releaseDecodeSlot ::
        if completed then [.settle execution_started s.now response] else expired)))
  | .finishing _ [] => some (s.setWorker worker .popping)
  | .finishing request (op :: ops) =>
    (s.requests request).map fun pending => s.perform worker request pending ops op
  | _ => none

/-- The executor returns or throws. -/
def infer (s : State setup) (worker : Fin setup.config.kv_cache_slots)
    (outcome : Except (Option String) ExecutionResponse) : Option (State setup) :=
  match s.workers worker with
  | .executing request executor_index execution_started =>
    match outcome with
    | .ok response => some (s.setWorker worker (.readingToken request executor_index execution_started response))
    | .error what =>
      some (s.setWorker worker (.executed request executor_index execution_started (backendError what) true))
  | _ => none

def runDrain (s : State setup) (thread : Nat) : Option (State setup) :=
  match s.drains thread with
  | .joining =>
    if (List.finRange setup.config.kv_cache_slots).all fun worker => (s.workers worker).isExited then
      some (s.setDrain thread .rejecting)
    else none
  | .rejecting => some ({ s with queue_ := [] }.setDrain thread (.answering s.queue_))
  | .answering [] => some (s.setDrain thread .returned)
  | .answering (request :: pending) =>
    (s.requests request).map fun found =>
      match found.promise with
      | none =>
        (s.setRequest request { found with promise := some makeDrainingResult }).setDrain thread (.answering pending)
      | some _ => s.setDrain thread .returned
  | _ => none

end State

/-- `cancel` is the transport setting a request's cancel token. -/
inductive Event (setup : Setup) where
  | tick (elapsed : Nat)
  | cancel (request : Nat)
  | submit (request : Nat) (call : ExecutionRequest)
  | submitter (request : Nat)
  | worker (worker : Fin setup.config.kv_cache_slots)
  | infer (worker : Fin setup.config.kv_cache_slots) (outcome : Except (Option String) ExecutionResponse)
  | stopAccepting
  | beginDrain (thread : Nat)
  | drain (thread : Nat)

def State.step (s : State setup) : Event setup → Option (State setup)
  | .tick elapsed => some { s with now := s.now + elapsed }
  | .cancel request => some (s.setToken request)
  | .submit request call =>
    match s.submits request with
    | .idle => some (s.setSubmit request (.validating call))
    | _ => none
  | .submitter request => s.runSubmit request
  | .worker worker => s.runWorker worker
  | .infer worker outcome => s.infer worker outcome
  | .stopAccepting => some { s with draining_ := true }
  | .beginDrain thread =>
    match s.drains thread with
    | .idle => some ({ s with draining_ := true }.setDrain thread .joining)
    | _ => none
  | .drain thread => s.runDrain thread

/-- The scheduler, from its construction at some moment of the steady clock. -/
def system (setup : Setup) (now : Int) : System (State setup) (Event setup) :=
  System.ofStep { now } State.step

end neuriplo.llm
