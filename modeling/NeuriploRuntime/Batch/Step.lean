import NeuriploRuntime.Batch.State

open neuriplo.scheduler neuriplo.tensor transition

namespace neuriplo.batch

variable {setup : Setup}

def makeExecutorFailureResult (message : String) : SchedulerResult :=
  SchedulerResult.adopt {} {
    ok := false
    error_code := "BACKEND_ERROR"
    error_message := if message.isEmpty then "executor inference failed" else message }

/-- The end of a request whose deadline was found passed. -/
def expire (request : Nat) : List WorkerOp :=
  [.setToken request, .countTimedOut request, .fulfillResult request makeTimeoutResult]

namespace State

def setSubmit (s : State setup) (request : Nat) (pc : SubmitPc) : State setup :=
  { s with submits := Function.update s.submits request pc }

def setWorker (s : State setup) (worker : Fin setup.config.instances) (pc : WorkerPc) : State setup :=
  { s with workers := Function.update s.workers worker pc }

def setDrain (s : State setup) (thread : Nat) (pc : DrainPc) : State setup :=
  { s with drains := Function.update s.drains thread pc }

def setRequest (s : State setup) (request : Nat) (pending : PendingRequest) : State setup :=
  { s with requests := Function.update s.requests request (some pending) }

def setToken (s : State setup) (request : Nat) : State setup :=
  { s with cancel_tokens := Function.update s.cancel_tokens request true }

def countTimedOut (s : State setup) : State setup :=
  { s with metrics_ := { s.metrics_ with requests_timed_out := s.metrics_.requests_timed_out + 1 } }

/-- A worker that waits on `queue_cv_` goes on. -/
def wakeWorker : WorkerPc → WorkerPc
  | .popWaiting => .popping
  | .formWaiting formation _ => .deciding formation
  | pc => pc

/-- `notify_one` wakes one of the waiting workers, if there is any. -/
def notifyOne (s : State setup) (woken : Option (Fin setup.config.instances)) : Option (State setup) :=
  match woken with
  | some worker =>
    if (s.workers worker).isWaiting then some (s.setWorker worker (wakeWorker (s.workers worker))) else none
  | none =>
    if (List.finRange setup.config.instances).all fun worker => !(s.workers worker).isWaiting then some s else none

/-- The locked section of `submit`. -/
def enqueue (s : State setup) (request : Nat) (call : ExecutionRequest) (enqueued_at deadline : Int) : State setup :=
  if s.draining_ then s.setSubmit request (.returned makeDrainingResult)
  else if setup.config.max_queue_size ≤ s.queue_.length then
    { s with metrics_ := { s.metrics_ with requests_rejected := s.metrics_.requests_rejected + 1 } }.setSubmit request
      (.returned makeOverloadedResult)
  else
    { s with
      queue_ := s.queue_ ++ [request]
      generation := s.generation + 1
      metrics_ := { s.metrics_ with requests_accepted := s.metrics_.requests_accepted + 1 }
      requests := Function.update s.requests request
        (some { request := call, enqueued_at, deadline }) }.setSubmit request .notifying

/-- The next step of the call of `submit` that brought the request. -/
def runSubmit (s : State setup) (request : Nat) : Option (State setup) :=
  match s.submits request with
  | .checkingDraining call =>
    some (s.setSubmit request (if s.draining_ then .returned makeDrainingResult else .dating call))
  | .dating call =>
    some (s.setSubmit request (.enqueuing call s.now (deadlineAfter s.now setup.config.request_timeout_ms)))
  | .enqueuing call enqueued_at deadline => some (s.enqueue request call enqueued_at deadline)
  | .waiting =>
    match (s.pending request).promise with
    | some result => some (s.setSubmit request (.returned result))
    | none => if (s.pending request).deadline ≤ s.now then some (s.setSubmit request (.expiring .setToken)) else none
  | .expiring .setToken => some ((s.setToken request).setSubmit request (.expiring .setCancelled))
  | .expiring .setCancelled =>
    some ((s.setRequest request { s.pending request with cancelled := true }).setSubmit request
      (.expiring .countTimedOut))
  | .expiring .countTimedOut => some (s.countTimedOut.setSubmit request (.expiring .answer))
  | .expiring .answer => some (s.setSubmit request (.returned makeTimeoutResult))
  | _ => none

/-- The notification of `submit`. -/
def notifySubmitted (s : State setup) (request : Nat) (woken : Option (Fin setup.config.instances)) :
    Option (State setup) :=
  match s.submits request with
  | .notifying => (s.notifyOne woken).map (·.setSubmit request .waiting)
  | _ => none

def batchSize (s : State setup) (request : Nat) : Nat := castSize (requestBatchSize (s.pending request).request)

def mergedBatchDimension (s : State setup) (batch : List Nat) : Nat := sumSizes (batch.map s.batchSize)

/-- Where a scan of the queue stops: at its end, at a request that has expired,
or at one that joins the batch. -/
inductive Scanned where
  | ended
  | expired (next position : Nat)
  | joined (next : Nat)

/-- The queue a scan leaves, whether it made progress, and where it stopped. -/
structure ScanResult where
  queue_ : List Nat
  made_progress : Bool
  scanned : Scanned

/-- The loop over `queue_` up to the next unlock: `passed` stays before the
iterator, the rest is still to come. -/
def scan (s : State setup) (formation : Formation) : List Nat → Bool → List Nat → ScanResult
  | passed, made_progress, [] => ⟨passed, made_progress, .ended⟩
  | passed, made_progress, next :: rest =>
    if (s.pending next).cancelled then scan s formation passed true rest
    else if (s.pending next).deadline ≤ s.now then ⟨passed ++ rest, true, .expired next passed.length⟩
    else if !areBatchCompatible (s.pending (formation.batch.headD next)).request (s.pending next).request then
      scan s formation (passed ++ [next]) made_progress rest
    else if setup.config.dynamic_batching.max_batch_size <
        wrapSize (formation.merged_batch_dimension + s.batchSize next) then
      scan s formation (passed ++ [next]) made_progress rest
    else ⟨passed ++ rest, true, .joined next⟩

/-- The earliest moment at which a queued request or the batch is due. -/
def waitDeadline (s : State setup) (formation : Formation) (queue_ : List Nat) : Int :=
  queue_.foldl (fun wait_deadline queued =>
    if (s.pending queued).cancelled then wait_deadline else min wait_deadline (s.pending queued).deadline)
    formation.formation_deadline

/-- A scan from a position on, and the worker's next step. Every erased element
is one change of the queue. -/
def runScan (s : State setup) (worker : Fin setup.config.instances) (formation : Formation) (delay_elapsed : Bool)
    (position : Nat) (made_progress : Bool) : State setup :=
  let result := s.scan formation (s.queue_.take position) made_progress (s.queue_.drop position)
  let generation := s.generation + (s.queue_.length - result.queue_.length)
  { s with queue_ := result.queue_, generation }.setWorker worker
    (match result.scanned with
    | .ended =>
      if result.made_progress then .deciding formation
      else if delay_elapsed then .formed formation
      else .formWaiting formation (s.waitDeadline formation result.queue_)
    | .expired next position =>
      .expiring formation delay_elapsed { position, generation } (.notifyOne :: expire next)
    | .joined next =>
      .joinNotifying { formation with
        batch := formation.batch ++ [next]
        merged_batch_dimension := wrapSize (formation.merged_batch_dimension + s.batchSize next) })

def shouldDispatch (formation : Formation) (config : DynamicBatchingConfig) (delay_elapsed : Bool) : Bool :=
  shouldDispatchBatchSize formation.merged_batch_dimension config delay_elapsed && 1 < formation.batch.length

/-- The start of `formBatch`. -/
def form (s : State setup) (first : Nat) : WorkerPc :=
  let batching := setup.config.dynamic_batching
  if !batching.enabled || batching.max_batch_size ≤ 1 then .processing [first]
  else .deciding {
    formation_started := s.now
    formation_deadline := wrapInt64 (s.now + wrapInt64 (batching.max_queue_delay_us * 1000))
    batch := [first]
    merged_batch_dimension := s.mergedBatchDimension [first] }

/-- The top of the loop in `formBatch`. -/
def decide (s : State setup) (formation : Formation) : WorkerPc :=
  let batching := setup.config.dynamic_batching
  let delay_elapsed : Bool := formation.formation_deadline ≤ s.now
  if shouldDispatch formation batching delay_elapsed then .formed formation
  else if batching.max_batch_size ≤ formation.merged_batch_dimension then .formed formation
  else .locking formation delay_elapsed

/-- `recordBatch` at the end of `formBatch`. -/
def recordBatch (s : State setup) (formation : Formation) : State setup :=
  if 1 < formation.batch.length then
    { s with metrics_ := { s.metrics_ with
      batches_formed := s.metrics_.batches_formed + 1
      batched_requests_total := s.metrics_.batched_requests_total + formation.batch.length
      batch_formation_ns_total := s.metrics_.batch_formation_ns_total + (s.now - formation.formation_started) } }
  else s

/-- What is done with the requests that are still active. -/
def dispatch (s : State setup) (active_batch : List Nat) : WorkerPc :=
  match active_batch with
  | [] => .popping
  | [request] => .single request
  | active_batch =>
    match mergeExecutionRequests (active_batch.map fun request => (s.pending request).request) with
    | .error error =>
      .finishing (active_batch.map fun request => .fulfillResult request (makeExecutorFailureResult error))
    | .ok merged => .selecting (.batched active_batch merged)

/-- What is left to do once an executor has returned. -/
def settleJob (s : State setup) (job : Job) (executor_index : Nat) (execution_started : Int)
    (response : ExecutionResponse) : WorkerPc :=
  match job with
  | .single request => .finishing [.release executor_index, .checkCancelled request execution_started s.now response]
  | .batched active_batch merged =>
    let source_requests := active_batch.map fun request => (s.pending request).request
    match splitExecutionResponse response merged.batch_sizes source_requests with
    | .ok split_responses =>
      .finishing (.release executor_index :: .recordBatchExecution (s.now - execution_started) ::
        List.zipWith (fun request => .settle request execution_started s.now active_batch.length)
          active_batch split_responses)
    | .error .thrown =>
      .throwing active_batch [.release executor_index, .recordBatchExecution (s.now - execution_started)]

/-- One of the straight-line steps, with `ops` left to do after it; `next` says
where the worker stands with what is left. -/
def perform (s : State setup) (worker : Fin setup.config.instances) (next : List WorkerOp → WorkerPc)
    (ops : List WorkerOp) : WorkerOp → Option (State setup)
  | .notifyOne => none
  | .setToken request => some ((s.setToken request).setWorker worker (next ops))
  | .countTimedOut _ => some (s.countTimedOut.setWorker worker (next ops))
  | .fulfillResult request result =>
    some (s.setWorker worker (next (if (s.pending request).cancelled then ops else .setValue request result :: ops)))
  | .setValue request result =>
    match (s.pending request).promise with
    | none =>
      some ((s.setRequest request { s.pending request with promise := some result }).setWorker worker (next ops))
    | some _ => some (s.setWorker worker (.terminated []))
  | .release executor_index =>
    some ({ s with inflight_ := s.inflight_.modify executor_index (· - 1) }.setWorker worker (next ops))
  | .recordBatchExecution execution_ns =>
    some ({ s with metrics_ := { s.metrics_ with
      batch_execution_ns_total := s.metrics_.batch_execution_ns_total + execution_ns } }.setWorker worker (next ops))
  | .checkCancelled request execution_started execution_finished response =>
    some (s.setWorker worker (next
      (if (s.pending request).cancelled then ops
        else .settle request execution_started execution_finished 1 response :: ops)))
  | .settle request execution_started execution_finished batch_size response =>
    some (s.setWorker worker (next
      (if (s.pending request).deadline ≤ execution_finished then expire request ++ ops
        else
          .recordLatencies request execution_started execution_finished ::
            .fulfillResult request (completedResult (s.pending request).enqueued_at execution_started
              execution_finished batch_size response) :: ops)))
  | .recordLatencies request execution_started execution_finished =>
    some ({ s with metrics_ := { s.metrics_ with
      queue_wait_ns_total := s.metrics_.queue_wait_ns_total + (execution_started - (s.pending request).enqueued_at)
      execution_ns_total := s.metrics_.execution_ns_total + (execution_finished - execution_started)
      total_ns_total := s.metrics_.total_ns_total + (execution_finished - (s.pending request).enqueued_at)
      completed_requests := s.metrics_.completed_requests + 1 } }.setWorker worker (next ops))

/-- The locked section of `popNextPending`. -/
def popNextPending (s : State setup) (worker : Fin setup.config.instances) : State setup :=
  match s.queue_ with
  | first :: queue_ => { s with queue_, generation := s.generation + 1 }.setWorker worker (.forming first)
  | [] => s.setWorker worker (if s.draining_ then .exited else .popWaiting)

/-- The next step of a worker that neither waits nor notifies nor is inside its
executor. -/
def runWorker (s : State setup) (worker : Fin setup.config.instances) : Option (State setup) :=
  match s.workers worker with
  | .popping => some (s.popNextPending worker)
  | .forming first => some (s.setWorker worker (s.form first))
  | .deciding formation => some (s.setWorker worker (s.decide formation))
  | .locking formation delay_elapsed =>
    if s.draining_ then some (s.setWorker worker (.formed formation))
    else some (s.runScan worker formation delay_elapsed 0 false)
  | .expiring formation delay_elapsed iterator [] =>
    some (s.setWorker worker (.rescanning formation delay_elapsed iterator))
  | .expiring formation delay_elapsed iterator (op :: ops) =>
    s.perform worker (.expiring formation delay_elapsed iterator) ops op
  | .rescanning formation delay_elapsed iterator =>
    if iterator.generation = s.generation then
      some (s.runScan worker formation delay_elapsed iterator.position true)
    else some (s.setWorker worker .undefined)
  | .joined formation =>
    some (s.setWorker worker
      (if shouldDispatch formation setup.config.dynamic_batching (formation.formation_deadline ≤ s.now) then
        .formed formation
      else .deciding formation))
  | .formed formation => some ((s.recordBatch formation).setWorker worker (.processing formation.batch))
  | .processing batch => some (s.setWorker worker (.sweeping s.now [] batch))
  | .sweeping _ swept [] => some (s.setWorker worker (.collecting swept []))
  | .sweeping now swept (request :: rest) =>
    if (s.pending request).cancelled then some (s.setWorker worker (.sweeping now (swept ++ [request]) rest))
    else if (s.pending request).deadline ≤ now then
      some (s.setWorker worker (.sweepExpiring now swept request rest (expire request)))
    else some (s.setWorker worker (.sweeping now (swept ++ [request]) rest))
  | .sweepExpiring now swept request rest [] => some (s.setWorker worker (.sweeping now (swept ++ [request]) rest))
  | .sweepExpiring now swept request rest (op :: ops) =>
    s.perform worker (.sweepExpiring now swept request rest) ops op
  | .collecting [] active_batch => some (s.setWorker worker (s.dispatch active_batch))
  | .collecting (request :: rest) active_batch =>
    some (s.setWorker worker
      (if (s.pending request).cancelled then .collecting rest active_batch
      else .collectingDeadline request rest active_batch))
  | .collectingDeadline request rest active_batch =>
    some (s.setWorker worker
      (if (s.pending request).deadline ≤ s.now then .collecting rest active_batch
      else .collecting rest (active_batch ++ [request])))
  | .single request =>
    some (s.setWorker worker (if (s.pending request).cancelled then .popping else .singleDeadline request))
  | .singleDeadline request =>
    some (s.setWorker worker
      (if (s.pending request).deadline ≤ s.now then .finishing (expire request) else .selecting (.single request)))
  | .selecting job =>
    let executor_index := selectExecutorIndex s.inflight_
    some ({ s with inflight_ := s.inflight_.modify executor_index (· + 1) }.setWorker worker
      (.starting job executor_index))
  | .starting job executor_index => some (s.setWorker worker (.executing job executor_index s.now))
  | .executed job executor_index execution_started response =>
    some (s.setWorker worker (s.settleJob job executor_index execution_started response))
  | .finishing [] => some (s.setWorker worker .popping)
  | .finishing (op :: ops) => s.perform worker .finishing ops op
  | .throwing active_batch [] => some (s.setWorker worker (.terminated active_batch))
  | .throwing active_batch (op :: ops) => s.perform worker (.throwing active_batch) ops op
  | _ => none

/-- The executor returns or throws. -/
def infer (s : State setup) (worker : Fin setup.config.instances)
    (outcome : Except (Option String) ExecutionResponse) : Option (State setup) :=
  match s.workers worker with
  | .executing job executor_index execution_started =>
    let response := match outcome with
      | .ok response => response
      | .error what => backendError what
    some (s.setWorker worker (.executed job executor_index execution_started response))
  | _ => none

/-- A worker's notification: of the room in the queue that it made. -/
def notifyErased (s : State setup) (worker : Fin setup.config.instances)
    (woken : Option (Fin setup.config.instances)) : Option (State setup) :=
  match s.workers worker with
  | .expiring formation delay_elapsed iterator (.notifyOne :: ops) =>
    (s.notifyOne woken).map (·.setWorker worker (.expiring formation delay_elapsed iterator ops))
  | .joinNotifying formation => (s.notifyOne woken).map (·.setWorker worker (.joined formation))
  | _ => none

def runDrain (s : State setup) (thread : Nat) : Option (State setup) :=
  match s.drains thread with
  | .notifying join =>
    some ({ s with workers := fun worker => wakeWorker (s.workers worker) }.setDrain thread
      (if join then .joining else .returned))
  | .joining =>
    if (List.finRange setup.config.instances).all fun worker => (s.workers worker).isExited then
      some (s.setDrain thread .rejecting)
    else none
  | .rejecting =>
    some ({ s with queue_ := [], generation := s.generation + 1 }.setDrain thread (.answering s.queue_))
  | .answering [] => some (s.setDrain thread .returned)
  | .answering (request :: pending) =>
    match (s.pending request).promise with
    | none =>
      some ((s.setRequest request { s.pending request with promise := some makeDrainingResult }).setDrain thread
        (.answering pending))
    | some _ => some (s.setDrain thread .returned)
  | _ => none

end State

/-- `wake` ends a worker's wait on `queue_cv_` by timeout or spuriously. After an
invalid iterator was used anything may follow; `undefined` takes the least of it,
that the worker goes on in `formBatch` with whatever it read and leaves whatever
it wrote in the queue. -/
inductive Event (setup : Setup) where
  | tick (elapsed : Nat)
  | cancel (request : Nat)
  | submit (request : Nat) (call : ExecutionRequest)
  | submitter (request : Nat)
  | notifySubmitted (request : Nat) (woken : Option (Fin setup.config.instances))
  | worker (worker : Fin setup.config.instances)
  | notifyErased (worker : Fin setup.config.instances) (woken : Option (Fin setup.config.instances))
  | wake (worker : Fin setup.config.instances)
  | infer (worker : Fin setup.config.instances) (outcome : Except (Option String) ExecutionResponse)
  | undefined (worker : Fin setup.config.instances) (formation : Formation) (queue_ : List Nat)
  | stopAccepting (thread : Nat)
  | beginDrain (thread : Nat)
  | drain (thread : Nat)

def State.step (s : State setup) : Event setup → Option (State setup)
  | .tick elapsed => some { s with now := s.now + elapsed }
  | .cancel request => some (s.setToken request)
  | .submit request call =>
    match s.submits request with
    | .idle => some (s.setSubmit request (.checkingDraining call))
    | _ => none
  | .submitter request => s.runSubmit request
  | .notifySubmitted request woken => s.notifySubmitted request woken
  | .worker worker => s.runWorker worker
  | .notifyErased worker woken => s.notifyErased worker woken
  | .wake worker =>
    if (s.workers worker).isWaiting then some (s.setWorker worker (wakeWorker (s.workers worker))) else none
  | .infer worker outcome => s.infer worker outcome
  | .undefined worker formation queue_ =>
    match s.workers worker with
    | .undefined => some ({ s with queue_, generation := s.generation + 1 }.setWorker worker (.deciding formation))
    | _ => none
  | .stopAccepting thread =>
    match s.drains thread with
    | .idle => some ({ s with draining_ := true }.setDrain thread (.notifying false))
    | _ => none
  | .beginDrain thread =>
    match s.drains thread with
    | .idle => some ({ s with draining_ := true }.setDrain thread (.notifying true))
    | _ => none
  | .drain thread => s.runDrain thread

/-- The scheduler, from its construction at some moment of the steady clock. -/
def system (setup : Setup) (now : Int) : System (State setup) (Event setup) :=
  System.ofStep { now } State.step

end neuriplo.batch
