import NeuriploRuntime.Llm.Step

open neuriplo.scheduler neuriplo.tensor transition

namespace neuriplo.llm

variable {setup : Setup}

/-- The steps of a worker that change nothing but where it stands, and answer
nothing. -/
inductive WorkerPc.Quiet : WorkerPc → WorkerPc → Prop
  | exited : Quiet .popping .exited
  | dropped (request : Nat) : Quiet (.checkingCancelled request) .popping
  | uncancelled (request : Nat) : Quiet (.checkingCancelled request) (.checkingDeadline request)
  | inTime (request : Nat) : Quiet (.checkingDeadline request) (.acquiring request .lock)
  | accepting (request : Nat) (timedOut : Bool) :
      Quiet (.acquiring request (.predDraining timedOut)) (.acquiring request (.predActive timedOut))
  | wokenDraining (request : Nat) (timedOut : Bool) :
      Quiet (.acquiring request (.predDraining timedOut)) (.acquiring request .readDraining)
  | woken (request : Nat) (timedOut : Bool) :
      Quiet (.acquiring request (.predActive timedOut)) (.acquiring request .readDraining)
  | undrained (request : Nat) : Quiet (.acquiring request .readDraining) (.acquiring request .readActive)
  | free (request : Nat) : Quiet (.acquiring request .readActive) (.acquiring request .add)
  | stillAccepting (request : Nat) : Quiet (.recheckingDraining request) (.recheckingDeadline request)
  | stillInTime (request : Nat) : Quiet (.recheckingDeadline request) (.selecting request)
  | started (request executor_index : Nat) (execution_started : Int) :
      Quiet (.starting request executor_index) (.executing request executor_index execution_started)
  | inferred (request executor_index : Nat) (execution_started : Int) (response : ExecutionResponse) :
      Quiet (.executing request executor_index execution_started)
        (.readingToken request executor_index execution_started response)
  | threw (request executor_index : Nat) (execution_started : Int) (response : ExecutionResponse) :
      Quiet (.executing request executor_index execution_started)
        (.executed request executor_index execution_started response true)
  | finished (request : Nat) : Quiet (.finishing request []) .popping

/-- All a worker's step can do, with what it read. -/
inductive State.Works (s : State setup) (worker : Fin setup.config.kv_cache_slots) : State setup → Prop
  | quiet (pc' : WorkerPc) (hquiet : (s.workers worker).Quiet pc') : Works s worker (s.setWorker worker pc')
  | popped (request : Nat) (queue_ : List Nat) (hpc : s.workers worker = .popping)
      (hqueue : s.queue_ = request :: queue_) :
      Works s worker ({ s with queue_ }.setWorker worker (.checkingCancelled request))
  | late (request : Nat) (pending : PendingRequest) (hpc : s.workers worker = .checkingDeadline request)
      (hpending : s.requests request = some pending) (hlate : pending.deadline ≤ s.now) :
      Works s worker (s.setWorker worker (.finishing request expired))
  | locked (request : Nat) (stage : AcquireStage) (timedOut : Bool)
      (hpc : s.workers worker = .acquiring request stage) (hfree : s.slots_mutex_ = none)
      (hstage : stage = .lock ∨ stage = .parked)
      (htimedOut : timedOut = true →
        ∃ pending, s.requests request = some pending ∧ pending.deadline ≤ s.now) :
      Works s worker
        ({ s with slots_mutex_ := some worker }.setWorker worker (.acquiring request (.predDraining timedOut)))
  | parked (request : Nat) (hpc : s.workers worker = .acquiring request (.predActive false)) :
      Works s worker ({ s with slots_mutex_ := none }.setWorker worker (.acquiring request .parked))
  | refused (request : Nat) (stage : AcquireStage) (hpc : s.workers worker = .acquiring request stage)
      (hreason : stage = .predActive true ∨ (stage = .readDraining ∧ s.draining_ = true) ∨
        (stage = .readActive ∧ setup.config.kv_cache_slots ≤ s.active_decodes_)) :
      Works s worker (s.refuseSlot worker request)
  | acquired (request : Nat) (hpc : s.workers worker = .acquiring request .add) :
      Works s worker ({ s with
        active_decodes_ := wrapSize (s.active_decodes_ + 1)
        slots_mutex_ := none }.setWorker worker (.recheckingDraining request))
  | drained (request : Nat) (hpc : s.workers worker = .recheckingDraining request) :
      Works s worker (s.setWorker worker
        (.finishing request [.releaseDecodeSlot, .fulfillResult makeDrainingResult]))
  | overdue (request : Nat) (pending : PendingRequest) (hpc : s.workers worker = .recheckingDeadline request)
      (hpending : s.requests request = some pending) (hlate : pending.deadline ≤ s.now) :
      Works s worker (s.setWorker worker (.finishing request
        [.setToken, .releaseDecodeSlot, .countTimedOut, .fulfillResult makeTimeoutResult]))
  | selected (request : Nat) (hpc : s.workers worker = .selecting request) :
      Works s worker ({ s with inflight_ := s.inflight_.modify (selectExecutorIndex s.inflight_) (· + 1) }.setWorker
        worker (.starting request (selectExecutorIndex s.inflight_)))
  | readToken (request executor_index : Nat) (execution_started : Int) (response : ExecutionResponse)
      (hpc : s.workers worker = .readingToken request executor_index execution_started response) :
      Works s worker (s.setWorker worker
        (.executed request executor_index execution_started response (!s.cancel_tokens request)))
  | executed (request executor_index : Nat) (execution_started : Int) (response : ExecutionResponse)
      (completed : Bool)
      (hpc : s.workers worker = .executed request executor_index execution_started response completed) :
      Works s worker (s.setWorker worker (.finishing request
        (.decrementInflight executor_index :: .releaseDecodeSlot ::
          if completed then [.settle execution_started s.now response] else expired)))
  | performed (request : Nat) (op : WorkerOp) (ops : List WorkerOp) (pending : PendingRequest)
      (hpc : s.workers worker = .finishing request (op :: ops)) (hpending : s.requests request = some pending) :
      Works s worker (s.perform worker request pending ops op)

/-- To acquire a slot is a worker's step. -/
theorem State.acquire_works {s s' : State setup} {worker : Fin setup.config.kv_cache_slots} {request : Nat}
    {stage : AcquireStage} (hpc : s.workers worker = .acquiring request stage)
    (hstep : s.acquire worker request stage = some s') : s.Works worker s' := by
  have hquiet {stage' : AcquireStage} (hquiet : WorkerPc.Quiet (.acquiring request stage) (.acquiring request stage')) :
      s.Works worker (s.setWorker worker (.acquiring request stage')) :=
    .quiet _ (by rw [hpc]; exact hquiet)
  cases stage with
  | lock =>
    simp only [acquire, Option.ite_none_right_eq_some, Option.some.injEq] at hstep
    obtain ⟨hfree, rfl⟩ := hstep
    exact .locked request _ false hpc hfree (.inl rfl) nofun
  | predDraining timedOut =>
    cases hstep
    split
    · exact hquiet (.wokenDraining request timedOut)
    · exact hquiet (.accepting request timedOut)
  | predActive timedOut =>
    simp only [acquire] at hstep
    split at hstep
    · cases hstep
      exact hquiet (.woken request timedOut)
    · cases timedOut with
      | true =>
        cases hstep
        exact .refused request _ hpc (.inl rfl)
      | false =>
        cases hstep
        exact .parked request hpc
  | parked =>
    simp only [acquire] at hstep
    split at hstep
    · rename_i pending hfree hpending
      cases hstep
      refine .locked request _ _ hpc hfree (.inr rfl) ?_
      intro htimedOut
      exact ⟨pending, hpending, of_decide_eq_true htimedOut⟩
    · cases hstep
  | readDraining =>
    simp only [acquire] at hstep
    split at hstep <;> cases hstep
    · exact .refused request _ hpc (.inr (.inl ⟨rfl, ‹_›⟩))
    · exact hquiet (.undrained request)
  | readActive =>
    simp only [acquire] at hstep
    split at hstep <;> cases hstep
    · exact .refused request _ hpc (.inr (.inr ⟨rfl, ‹_›⟩))
    · exact hquiet (.free request)
  | add =>
    cases hstep
    exact .acquired request hpc

/-- What a worker's step does, once for all. -/
theorem State.runWorker_works {s s' : State setup} {worker : Fin setup.config.kv_cache_slots}
    (hstep : s.runWorker worker = some s') : s.Works worker s' := by
  have hquiet {pc pc' : WorkerPc} (hpc : s.workers worker = pc) (hquiet : pc.Quiet pc') :
      s.Works worker (s.setWorker worker pc') :=
    .quiet _ (by rw [hpc]; exact hquiet)
  unfold runWorker at hstep
  cases hpc : s.workers worker with
  | popping =>
    simp only [hpc] at hstep
    split at hstep
    · cases hstep
      exact .popped _ _ hpc ‹_›
    · split at hstep <;> cases hstep
      exact hquiet hpc .exited
  | checkingCancelled request =>
    simp only [hpc] at hstep
    obtain ⟨pending, hpending, rfl⟩ := Option.map_eq_some_iff.mp hstep
    split
    · exact hquiet hpc (.dropped request)
    · exact hquiet hpc (.uncancelled request)
  | checkingDeadline request =>
    simp only [hpc] at hstep
    obtain ⟨pending, hpending, rfl⟩ := Option.map_eq_some_iff.mp hstep
    split
    · exact .late request pending hpc hpending ‹_›
    · exact hquiet hpc (.inTime request)
  | acquiring request stage =>
    simp only [hpc] at hstep
    exact s.acquire_works hpc hstep
  | recheckingDraining request =>
    simp only [hpc] at hstep
    cases hstep
    split
    · exact .drained request hpc
    · exact hquiet hpc (.stillAccepting request)
  | recheckingDeadline request =>
    simp only [hpc] at hstep
    obtain ⟨pending, hpending, rfl⟩ := Option.map_eq_some_iff.mp hstep
    split
    · exact .overdue request pending hpc hpending ‹_›
    · exact hquiet hpc (.stillInTime request)
  | selecting request =>
    simp only [hpc] at hstep
    cases hstep
    exact .selected request hpc
  | starting request executor_index =>
    simp only [hpc] at hstep
    cases hstep
    exact hquiet hpc (.started request executor_index s.now)
  | readingToken request executor_index execution_started response =>
    simp only [hpc] at hstep
    cases hstep
    exact .readToken request executor_index execution_started response hpc
  | executed request executor_index execution_started response completed =>
    simp only [hpc] at hstep
    cases hstep
    exact .executed request executor_index execution_started response completed hpc
  | finishing request ops =>
    cases ops with
    | nil =>
      simp only [hpc] at hstep
      cases hstep
      exact hquiet hpc (.finished request)
    | cons op ops =>
      simp only [hpc] at hstep
      obtain ⟨pending, hpending, rfl⟩ := Option.map_eq_some_iff.mp hstep
      exact .performed request op ops pending hpc hpending
  | executing | exited | terminated =>
    simp only [hpc] at hstep
    cases hstep

/-- The return of an executor is a worker's step. -/
theorem State.infer_works {s s' : State setup} {worker : Fin setup.config.kv_cache_slots}
    {outcome : Except (Option String) ExecutionResponse} (hstep : s.infer worker outcome = some s') :
    s.Works worker s' := by
  unfold infer at hstep
  split at hstep
  · rename_i request executor_index execution_started hpc
    split at hstep <;> cases hstep
    · exact .quiet _ (by rw [hpc]; exact .inferred request executor_index execution_started _)
    · exact .quiet _ (by rw [hpc]; exact .threw request executor_index execution_started _)
  · cases hstep

/-- The call has not put its request into the queue yet. -/
def SubmitPc.isEarly : SubmitPc → Bool
  | .idle => true
  | .validating _ => true
  | .checkingDraining _ _ => true
  | .checkingMemory _ _ => true
  | .dating _ => true
  | .enqueuing _ _ _ => true
  | _ => false

/-- All a step of `submit` can do: go on or be turned away before the request is
queued, queue it, return what was set, or give up after the deadline. -/
inductive State.Submits (s : State setup) (request : Nat) : State setup → Prop
  | early (pc' : SubmitPc) (metrics_ : SchedulerMetrics) (hpc : (s.submits request).isEarly = true)
      (hpc' : pc'.isEarly = true ∨ ∃ result, pc' = .returned result ∧ result.scheduler_error ≠ .timeout)
      (hmetrics : metrics_.requests_timed_out = s.metrics_.requests_timed_out) :
      Submits s request ({ s with metrics_ }.setSubmit request pc')
  | enqueued (call : ExecutionRequest) (enqueued_at deadline : Int)
      (hpc : s.submits request = .enqueuing call enqueued_at deadline) :
      Submits s request ({ s with
        queue_ := s.queue_ ++ [request]
        metrics_ := { s.metrics_ with requests_accepted := s.metrics_.requests_accepted + 1 }
        requests := Function.update s.requests request
          (some { request := call, enqueued_at, deadline }) }.setSubmit request .waiting)
  | answered (pending : PendingRequest) (result : SchedulerResult) (hpc : s.submits request = .waiting)
      (hpending : s.requests request = some pending) (hpromise : pending.promise = some result) :
      Submits s request (s.setSubmit request (.returned result))
  | late (pending : PendingRequest) (hpc : s.submits request = .waiting)
      (hpending : s.requests request = some pending) (hlate : pending.deadline ≤ s.now) :
      Submits s request (s.setSubmit request (.expiring .setToken))
  | tokenSet (hpc : s.submits request = .expiring .setToken) :
      Submits s request ((s.setToken request).setSubmit request (.expiring .setCancelled))
  | cancelled (pending : PendingRequest) (hpc : s.submits request = .expiring .setCancelled)
      (hpending : s.requests request = some pending) :
      Submits s request
        ((s.setRequest request { pending with cancelled := true }).setSubmit request (.expiring .countTimedOut))
  | counted (hpc : s.submits request = .expiring .countTimedOut) :
      Submits s request (s.countTimedOut.setSubmit request (.expiring .answer))
  | timedOut (hpc : s.submits request = .expiring .answer) :
      Submits s request (s.setSubmit request (.returned makeTimeoutResult))

/-- What a step of `submit` does, once for all. -/
theorem State.runSubmit_submits {s s' : State setup} {request : Nat} (hstep : s.runSubmit request = some s') :
    s.Submits request s' := by
  have hearly {pc pc' : SubmitPc} (hpc : s.submits request = pc) (hisEarly : pc.isEarly = true)
      (hpc' : pc'.isEarly = true ∨ ∃ result, pc' = .returned result ∧ result.scheduler_error ≠ .timeout) :
      s.Submits request (s.setSubmit request pc') :=
    .early pc' s.metrics_ (by rw [hpc, hisEarly]) hpc' rfl
  unfold runSubmit at hstep
  cases hpc : s.submits request with
  | idle | returned => simp [hpc] at hstep
  | validating call =>
    simp only [hpc] at hstep
    split at hstep <;> cases hstep
    · exact hearly hpc rfl (.inr ⟨_, rfl, nofun⟩)
    · exact hearly hpc rfl (.inl rfl)
  | checkingDraining call estimated_tokens =>
    simp only [hpc] at hstep
    cases hstep
    split
    · exact hearly hpc rfl (.inr ⟨_, rfl, nofun⟩)
    · exact hearly hpc rfl (.inl rfl)
  | checkingMemory call estimated_tokens =>
    simp only [hpc] at hstep
    split at hstep <;> cases hstep
    · exact .early _ _ (by rw [hpc]; rfl) (.inr ⟨_, rfl, nofun⟩) rfl
    · exact hearly hpc rfl (.inl rfl)
  | dating call =>
    simp only [hpc] at hstep
    cases hstep
    exact hearly hpc rfl (.inl rfl)
  | enqueuing call enqueued_at deadline =>
    simp only [hpc] at hstep
    cases hstep
    unfold enqueue
    split
    · exact hearly hpc rfl (.inr ⟨_, rfl, nofun⟩)
    · split
      · exact .early _ _ (by rw [hpc]; rfl) (.inr ⟨_, rfl, nofun⟩) rfl
      · exact .enqueued call enqueued_at deadline hpc
  | waiting =>
    simp only [hpc] at hstep
    cases hpending : s.requests request with
    | none => simp [hpending] at hstep
    | some pending =>
      simp only [hpending] at hstep
      cases hpromise : pending.promise with
      | some result =>
        simp only [hpromise] at hstep
        cases hstep
        exact .answered pending result hpc hpending hpromise
      | none =>
        simp only [hpromise, Option.ite_none_right_eq_some, Option.some.injEq] at hstep
        obtain ⟨hlate, rfl⟩ := hstep
        exact .late pending hpc hpending hlate
  | expiring expiry =>
    cases expiry with
    | setToken =>
      simp only [hpc] at hstep
      cases hstep
      exact .tokenSet hpc
    | setCancelled =>
      simp only [hpc] at hstep
      cases hpending : s.requests request with
      | none => simp [hpending] at hstep
      | some pending =>
        simp only [hpending] at hstep
        cases hstep
        exact .cancelled pending hpc hpending
    | countTimedOut =>
      simp only [hpc] at hstep
      cases hstep
      exact .counted hpc
    | answer =>
      simp only [hpc] at hstep
      cases hstep
      exact .timedOut hpc

/-- All a step of `beginDrain` can do after its store. -/
inductive State.Drains (s : State setup) (thread : Nat) : State setup → Prop
  | moved (queue_ : List Nat) (pc' : DrainPc) : Drains s thread ({ s with queue_ }.setDrain thread pc')
  | answered (request : Nat) (found : PendingRequest) (pc' : DrainPc)
      (hfound : s.requests request = some found) (hpromise : found.promise = none) :
      Drains s thread
        ((s.setRequest request { found with promise := some makeDrainingResult }).setDrain thread pc')

/-- What a step of a drain does, once for all. -/
theorem State.runDrain_drains {s s' : State setup} {thread : Nat} (hstep : s.runDrain thread = some s') :
    s.Drains thread s' := by
  unfold runDrain at hstep
  split at hstep
  · split at hstep <;> cases hstep
    exact .moved s.queue_ _
  · cases hstep
    exact .moved [] _
  · cases hstep
    exact .moved s.queue_ _
  · rename_i request pending hpc
    obtain ⟨found, hfound, rfl⟩ := Option.map_eq_some_iff.mp hstep
    split
    · exact .answered request found _ hfound ‹_›
    · exact .moved s.queue_ _
  · cases hstep

/-- No event but a worker's touches the workers, the decode slots or the executors. -/
theorem State.step_frame {s s' : State setup} {event : Event setup} (hstep : s.step event = some s') :
    (∃ worker, s.Works worker s' ∧ (s.runWorker worker = some s' ∨ ∃ outcome, s.infer worker outcome = some s')) ∨
      (s'.workers = s.workers ∧ s'.active_decodes_ = s.active_decodes_ ∧ s'.inflight_ = s.inflight_) := by
  cases event with
  | tick | cancel | stopAccepting =>
    cases hstep
    exact .inr ⟨rfl, rfl, rfl⟩
  | submit request call =>
    simp only [step] at hstep
    split at hstep <;> cases hstep
    exact .inr ⟨rfl, rfl, rfl⟩
  | submitter request =>
    cases State.runSubmit_submits hstep <;> exact .inr ⟨rfl, rfl, rfl⟩
  | worker worker => exact .inl ⟨worker, State.runWorker_works hstep, .inl hstep⟩
  | infer worker outcome => exact .inl ⟨worker, State.infer_works hstep, .inr ⟨outcome, hstep⟩⟩
  | beginDrain thread =>
    simp only [step] at hstep
    split at hstep <;> cases hstep
    exact .inr ⟨rfl, rfl, rfl⟩
  | drain thread => cases State.runDrain_drains hstep <;> exact .inr ⟨rfl, rfl, rfl⟩

end neuriplo.llm
