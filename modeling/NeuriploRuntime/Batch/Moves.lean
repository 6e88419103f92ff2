import NeuriploRuntime.Batch.Step

open neuriplo.scheduler neuriplo.tensor transition

namespace neuriplo.batch

variable {setup : Setup}

@[simp] theorem State.setWorker_self (s : State setup) (worker : Fin setup.config.instances) (pc : WorkerPc) :
    (s.setWorker worker pc).workers worker = pc := Function.update_self ..

theorem State.setWorker_of_ne (s : State setup) {worker other : Fin setup.config.instances} (hother : other ≠ worker)
    (pc : WorkerPc) : (s.setWorker worker pc).workers other = s.workers other := Function.update_of_ne hother ..

/-- The steps of a worker that change nothing but where it stands, and neither
take nor drop nor answer a request. -/
inductive WorkerPc.Quiet : WorkerPc → WorkerPc → Prop
  | waiting : Quiet .popping .popWaiting
  | popWoken : Quiet .popWaiting .popping
  | formWoken (formation : Formation) (wait_deadline : Int) :
      Quiet (.formWaiting formation wait_deadline) (.deciding formation)
  | alone (first : Nat) : Quiet (.forming first) (.processing [first])
  | forming (first : Nat) (formation : Formation) (hbatch : formation.batch = [first]) :
      Quiet (.forming first) (.deciding formation)
  | complete (formation : Formation) : Quiet (.deciding formation) (.formed formation)
  | incomplete (formation : Formation) (delay_elapsed : Bool) :
      Quiet (.deciding formation) (.locking formation delay_elapsed)
  | draining (formation : Formation) (delay_elapsed : Bool) :
      Quiet (.locking formation delay_elapsed) (.formed formation)
  | expired (formation : Formation) (delay_elapsed : Bool) (iterator : Iterator) :
      Quiet (.expiring formation delay_elapsed iterator []) (.rescanning formation delay_elapsed iterator)
  | expiredNotified (formation : Formation) (delay_elapsed : Bool) (iterator : Iterator) (ops : List WorkerOp) :
      Quiet (.expiring formation delay_elapsed iterator (.notifyOne :: ops))
        (.expiring formation delay_elapsed iterator ops)
  | joinNotified (formation : Formation) : Quiet (.joinNotifying formation) (.joined formation)
  | joinedComplete (formation : Formation) : Quiet (.joined formation) (.formed formation)
  | joinedIncomplete (formation : Formation) : Quiet (.joined formation) (.deciding formation)
  | swept (now : Int) (swept : List Nat) : Quiet (.sweeping now swept []) (.collecting swept [])
  | passed (now : Int) (swept : List Nat) (request : Nat) (rest : List Nat) :
      Quiet (.sweeping now swept (request :: rest)) (.sweeping now (swept ++ [request]) rest)
  | sweptExpired (now : Int) (swept : List Nat) (request : Nat) (rest : List Nat) :
      Quiet (.sweepExpiring now swept request rest []) (.sweeping now (swept ++ [request]) rest)
  | uncancelled (request : Nat) (rest active_batch : List Nat) :
      Quiet (.collecting (request :: rest) active_batch) (.collectingDeadline request rest active_batch)
  | none : Quiet (.collecting [] []) .popping
  | one (request : Nat) : Quiet (.collecting [] [request]) (.single request)
  | several (active_batch : List Nat) (merged : MergedBatch) :
      Quiet (.collecting [] active_batch) (.selecting (.batched active_batch merged))
  | singleUncancelled (request : Nat) : Quiet (.single request) (.singleDeadline request)
  | singleInTime (request : Nat) : Quiet (.singleDeadline request) (.selecting (.single request))
  | started (job : Job) (executor_index : Nat) (execution_started : Int) :
      Quiet (.starting job executor_index) (.executing job executor_index execution_started)
  | inferred (job : Job) (executor_index : Nat) (execution_started : Int) (response : ExecutionResponse) :
      Quiet (.executing job executor_index execution_started)
        (.executed job executor_index execution_started response)
  | finished : Quiet (.finishing []) .popping
  | threw (active_batch : List Nat) : Quiet (.throwing active_batch []) (.terminated active_batch)

/-- Where a worker stands with straight-line steps left to do. -/
inductive WorkerPc.Performs : WorkerPc → (List WorkerOp → WorkerPc) → List WorkerOp → Prop
  | expiring (formation : Formation) (delay_elapsed : Bool) (iterator : Iterator) (ops : List WorkerOp) :
      Performs (.expiring formation delay_elapsed iterator ops) (.expiring formation delay_elapsed iterator) ops
  | sweepExpiring (now : Int) (swept : List Nat) (request : Nat) (rest : List Nat) (ops : List WorkerOp) :
      Performs (.sweepExpiring now swept request rest ops) (.sweepExpiring now swept request rest) ops
  | finishing (ops : List WorkerOp) : Performs (.finishing ops) .finishing ops
  | throwing (active_batch : List Nat) (ops : List WorkerOp) :
      Performs (.throwing active_batch ops) (.throwing active_batch) ops

/-- All a worker's step can do, with what it read. -/
inductive State.Works (s : State setup) (worker : Fin setup.config.instances) : State setup → Prop
  | quiet (pc' : WorkerPc) (hquiet : (s.workers worker).Quiet pc') : Works s worker (s.setWorker worker pc')
  | popped (first : Nat) (queue_ : List Nat) (hpc : s.workers worker = .popping)
      (hqueue : s.queue_ = first :: queue_) :
      Works s worker ({ s with queue_, generation := s.generation + 1 }.setWorker worker (.forming first))
  | exited (hpc : s.workers worker = .popping) (hqueue : s.queue_ = []) (hdraining : s.draining_ = true) :
      Works s worker (s.setWorker worker .exited)
  | scanned (formation : Formation) (delay_elapsed : Bool) (position : Nat) (made_progress : Bool)
      (hpc : s.workers worker = .locking formation delay_elapsed ∨
        ∃ iterator, s.workers worker = .rescanning formation delay_elapsed iterator) :
      Works s worker (s.runScan worker formation delay_elapsed position made_progress)
  | stale (formation : Formation) (delay_elapsed : Bool) (iterator : Iterator)
      (hpc : s.workers worker = .rescanning formation delay_elapsed iterator)
      (hstale : iterator.generation ≠ s.generation) : Works s worker (s.setWorker worker .undefined)
  | formed (formation : Formation) (metrics_ : SchedulerMetrics) (hpc : s.workers worker = .formed formation) :
      Works s worker ({ s with metrics_ }.setWorker worker (.processing formation.batch))
  | processing (batch : List Nat) (hpc : s.workers worker = .processing batch) :
      Works s worker (s.setWorker worker (.sweeping s.now [] batch))
  | overdue (now : Int) (swept : List Nat) (request : Nat) (rest : List Nat)
      (hpc : s.workers worker = .sweeping now swept (request :: rest))
      (hlate : (s.pending request).deadline ≤ now) :
      Works s worker (s.setWorker worker (.sweepExpiring now swept request rest (expire request)))
  | dropped (request : Nat) (rest active_batch : List Nat)
      (hpc : s.workers worker = .collecting (request :: rest) active_batch)
      (hcancelled : (s.pending request).cancelled = true) :
      Works s worker (s.setWorker worker (.collecting rest active_batch))
  | late (request : Nat) (rest active_batch : List Nat)
      (hpc : s.workers worker = .collectingDeadline request rest active_batch)
      (hlate : (s.pending request).deadline ≤ s.now) :
      Works s worker (s.setWorker worker (.collecting rest active_batch))
  | active (request : Nat) (rest active_batch : List Nat)
      (hpc : s.workers worker = .collectingDeadline request rest active_batch)
      (hinTime : ¬ (s.pending request).deadline ≤ s.now) :
      Works s worker (s.setWorker worker (.collecting rest (active_batch ++ [request])))
  | unmerged (active_batch : List Nat) (error : String) (hpc : s.workers worker = .collecting [] active_batch) :
      Works s worker (s.setWorker worker
        (.finishing (active_batch.map fun request => .fulfillResult request (makeExecutorFailureResult error))))
  | singleDropped (request : Nat) (hpc : s.workers worker = .single request)
      (hcancelled : (s.pending request).cancelled = true) : Works s worker (s.setWorker worker .popping)
  | singleLate (request : Nat) (hpc : s.workers worker = .singleDeadline request) :
      Works s worker (s.setWorker worker (.finishing (expire request)))
  | selected (job : Job) (hpc : s.workers worker = .selecting job) :
      Works s worker ({ s with inflight_ := s.inflight_.modify (selectExecutorIndex s.inflight_) (· + 1) }.setWorker
        worker (.starting job (selectExecutorIndex s.inflight_)))
  | executed (job : Job) (executor_index : Nat) (execution_started : Int) (response : ExecutionResponse)
      (ops : List WorkerOp) (hpc : s.workers worker = .executed job executor_index execution_started response)
      (hsettle : s.settleJob job executor_index execution_started response = .finishing ops) :
      Works s worker (s.setWorker worker (.finishing ops))
  | unsplit (job : Job) (executor_index : Nat) (execution_started : Int) (response : ExecutionResponse)
      (ops : List WorkerOp) (hpc : s.workers worker = .executed job executor_index execution_started response)
      (hsettle : s.settleJob job executor_index execution_started response = .throwing job.members ops) :
      Works s worker (s.setWorker worker (.throwing job.members ops))
  | performed {s' : State setup} (next : List WorkerOp → WorkerPc) (op : WorkerOp) (ops : List WorkerOp)
      (hpc : (s.workers worker).Performs next (op :: ops)) (hperform : s.perform worker next ops op = some s') :
      Works s worker s'

/-- A dispatch is a worker's step. -/
theorem State.dispatch_works {s : State setup} {worker : Fin setup.config.instances} {active_batch : List Nat}
    (hpc : s.workers worker = .collecting [] active_batch) :
    s.Works worker (s.setWorker worker (s.dispatch active_batch)) := by
  have hquiet {pc' : WorkerPc} (hquiet : WorkerPc.Quiet (.collecting [] active_batch) pc') :
      s.Works worker (s.setWorker worker pc') :=
    .quiet _ (by rw [hpc]; exact hquiet)
  unfold dispatch
  split
  · exact hquiet .none
  · exact hquiet (.one _)
  · split
    · exact .unmerged active_batch _ hpc
    · exact hquiet (.several active_batch _)

/-- Once an executor has returned, its worker finishes the job or throws. -/
theorem State.settleJob_cases (s : State setup) (job : Job) (executor_index : Nat) (execution_started : Int)
    (response : ExecutionResponse) :
    (∃ ops, s.settleJob job executor_index execution_started response = .finishing ops) ∨
      ∃ ops, s.settleJob job executor_index execution_started response = .throwing job.members ops := by
  unfold settleJob
  split
  · exact .inl ⟨_, rfl⟩
  · dsimp only
    split
    · exact .inl ⟨_, rfl⟩
    · exact .inr ⟨_, rfl⟩

/-- What a worker's step does, once for all. -/
theorem State.runWorker_works {s s' : State setup} {worker : Fin setup.config.instances}
    (hstep : s.runWorker worker = some s') : s.Works worker s' := by
  have hquiet {pc pc' : WorkerPc} (hpc : s.workers worker = pc) (hquiet : pc.Quiet pc') :
      s.Works worker (s.setWorker worker pc') :=
    .quiet _ (by rw [hpc]; exact hquiet)
  unfold runWorker at hstep
  split at hstep
  case h_1 hpc =>
    cases hstep
    unfold popNextPending
    split
    · exact .popped _ _ hpc ‹_›
    · split
      · exact .exited hpc ‹_› ‹_›
      · exact hquiet hpc .waiting
  case h_2 first hpc =>
    cases hstep
    simp only [form]
    split
    · exact hquiet hpc (.alone first)
    · exact hquiet hpc (.forming first _ rfl)
  case h_3 formation hpc =>
    cases hstep
    simp only [decide]
    split
    · exact hquiet hpc (.complete formation)
    · split
      · exact hquiet hpc (.complete formation)
      · exact hquiet hpc (.incomplete formation _)
  case h_4 formation delay_elapsed hpc =>
    split at hstep <;> cases hstep
    · exact hquiet hpc (.draining formation delay_elapsed)
    · exact .scanned formation delay_elapsed 0 false (.inl hpc)
  case h_5 formation delay_elapsed iterator hpc =>
    cases hstep
    exact hquiet hpc (.expired formation delay_elapsed iterator)
  case h_6 formation delay_elapsed iterator op ops hpc =>
    refine .performed _ op ops ?_ hstep
    rw [hpc]
    exact .expiring ..
  case h_7 formation delay_elapsed iterator hpc =>
    split at hstep <;> cases hstep
    · exact .scanned formation delay_elapsed iterator.position true (.inr ⟨iterator, hpc⟩)
    · exact .stale formation delay_elapsed iterator hpc ‹_›
  case h_8 formation hpc =>
    cases hstep
    split
    · exact hquiet hpc (.joinedComplete formation)
    · exact hquiet hpc (.joinedIncomplete formation)
  case h_9 formation hpc =>
    cases hstep
    unfold recordBatch
    split
    · exact .formed formation _ hpc
    · exact .formed formation s.metrics_ hpc
  case h_10 batch hpc =>
    cases hstep
    exact .processing batch hpc
  case h_11 now swept hpc =>
    cases hstep
    exact hquiet hpc (.swept now swept)
  case h_12 now swept request rest hpc =>
    split at hstep
    · cases hstep
      exact hquiet hpc (.passed now swept request rest)
    · split at hstep <;> cases hstep
      · exact .overdue now swept request rest hpc ‹_›
      · exact hquiet hpc (.passed now swept request rest)
  case h_13 now swept request rest hpc =>
    cases hstep
    exact hquiet hpc (.sweptExpired now swept request rest)
  case h_14 now swept request rest op ops hpc =>
    refine .performed _ op ops ?_ hstep
    rw [hpc]
    exact .sweepExpiring ..
  case h_15 active_batch hpc =>
    cases hstep
    exact s.dispatch_works hpc
  case h_16 request rest active_batch hpc =>
    cases hstep
    split
    · exact .dropped request rest active_batch hpc ‹_›
    · exact hquiet hpc (.uncancelled request rest active_batch)
  case h_17 request rest active_batch hpc =>
    cases hstep
    split
    · exact .late request rest active_batch hpc ‹_›
    · exact .active request rest active_batch hpc ‹_›
  case h_18 request hpc =>
    cases hstep
    split
    · exact .singleDropped request hpc ‹_›
    · exact hquiet hpc (.singleUncancelled request)
  case h_19 request hpc =>
    cases hstep
    split
    · exact .singleLate request hpc
    · exact hquiet hpc (.singleInTime request)
  case h_20 job hpc =>
    cases hstep
    exact .selected job hpc
  case h_21 job executor_index hpc =>
    cases hstep
    exact hquiet hpc (.started job executor_index s.now)
  case h_22 job executor_index execution_started response hpc =>
    cases hstep
    obtain ⟨ops, hsettle⟩ | ⟨ops, hsettle⟩ := s.settleJob_cases job executor_index execution_started response
    · rw [hsettle]
      exact .executed job executor_index execution_started response ops hpc hsettle
    · rw [hsettle]
      exact .unsplit job executor_index execution_started response ops hpc hsettle
  case h_23 hpc =>
    cases hstep
    exact hquiet hpc .finished
  case h_24 op ops hpc =>
    refine .performed _ op ops ?_ hstep
    rw [hpc]
    exact .finishing ..
  case h_25 active_batch hpc =>
    cases hstep
    exact hquiet hpc (.threw active_batch)
  case h_26 active_batch op ops hpc =>
    refine .performed _ op ops ?_ hstep
    rw [hpc]
    exact .throwing ..
  case h_27 => cases hstep

/-- The executors are left alone, and the workers but for wake-ups. -/
structure State.Leaves (s s' : State setup) : Prop where
  workers : ∀ worker, s'.workers worker = s.workers worker ∨ s'.workers worker = State.wakeWorker (s.workers worker)
  inflight : s'.inflight_ = s.inflight_

/-- A step that leaves the workers and the executors alone. -/
theorem State.Leaves.of_same {s s' : State setup} (hworkers : s'.workers = s.workers)
    (hinflight : s'.inflight_ = s.inflight_) : s.Leaves s' :=
  ⟨fun _ => .inl (by rw [hworkers]), hinflight⟩

/-- To wake a worker leaves everything else alone. -/
theorem State.setWorker_leaves (s : State setup) (woken : Fin setup.config.instances) :
    s.Leaves (s.setWorker woken (State.wakeWorker (s.workers woken))) := by
  refine ⟨?_, rfl⟩
  intro worker
  by_cases hworker : worker = woken
  · subst hworker
    exact .inr (Function.update_self ..)
  · exact .inl (Function.update_of_ne hworker ..)

/-- A notification wakes at most one worker, and leaves everything else alone. -/
theorem State.notifyOne_leaves {s s' : State setup} {woken : Option (Fin setup.config.instances)}
    (hnotify : s.notifyOne woken = some s') : s.Leaves s' := by
  unfold State.notifyOne at hnotify
  split at hnotify
  · split at hnotify <;> cases hnotify
    exact s.setWorker_leaves _
  · split at hnotify <;> cases hnotify
    exact .of_same rfl rfl

/-- A notification changes nothing but who waits. -/
theorem State.notifyOne_eq {s s' : State setup} {woken : Option (Fin setup.config.instances)}
    (hnotify : s.notifyOne woken = some s') : s' = { s with workers := s'.workers } := by
  unfold State.notifyOne at hnotify
  split at hnotify
  · split at hnotify <;> cases hnotify
    rfl
  · split at hnotify <;> cases hnotify
    rfl

/-- A notification leaves everybody who does not wait as they are. -/
theorem State.notifyOne_workers {s s' : State setup} {worker : Fin setup.config.instances}
    {woken : Option (Fin setup.config.instances)} (hnotify : s.notifyOne woken = some s')
    (hawake : (s.workers worker).isWaiting = false) :
    s'.workers worker = s.workers worker ∧ s'.generation = s.generation ∧ s'.submits = s.submits := by
  unfold State.notifyOne at hnotify
  split at hnotify
  · rename_i other
    split at hnotify <;> cases hnotify
    rename_i hwaiting
    refine ⟨Function.update_of_ne ?_ .., rfl, rfl⟩
    rintro rfl
    rw [hawake] at hwaiting
    cases hwaiting
  · split at hnotify <;> cases hnotify
    exact ⟨rfl, rfl, rfl⟩

/-- A worker that notifies wakes somebody else up and goes on. -/
theorem State.notifyErased_quiet {s s' : State setup} {worker : Fin setup.config.instances}
    {woken : Option (Fin setup.config.instances)} (hstep : s.notifyErased worker woken = some s') :
    ∃ t pc', s.notifyOne woken = some t ∧ (t.workers worker).Quiet pc' ∧ s' = t.setWorker worker pc' := by
  have hquiet {pc pc' : WorkerPc} (hpc : s.workers worker = pc) (hawake : pc.isWaiting = false)
      (hquiet : pc.Quiet pc') (hmap : (s.notifyOne woken).map (·.setWorker worker pc') = some s') :
      ∃ t pc', s.notifyOne woken = some t ∧ (t.workers worker).Quiet pc' ∧ s' = t.setWorker worker pc' := by
    obtain ⟨t, hnotify, rfl⟩ := Option.map_eq_some_iff.mp hmap
    subst hpc
    refine ⟨t, pc', hnotify, ?_, rfl⟩
    rw [(State.notifyOne_workers hnotify hawake).1]
    exact hquiet
  unfold State.notifyErased at hstep
  split at hstep
  · exact hquiet ‹_› rfl (.expiredNotified ..) hstep
  · exact hquiet ‹_› rfl (.joinNotified ..) hstep
  · cases hstep

/-- Where a notification after an erased request leaves the worker itself. -/
theorem State.notifyErased_self {s s' : State setup} {worker : Fin setup.config.instances}
    {woken : Option (Fin setup.config.instances)} (hstep : s.notifyErased worker woken = some s') :
    (∃ formation delay_elapsed iterator ops,
      s.workers worker = .expiring formation delay_elapsed iterator (.notifyOne :: ops) ∧
        s'.workers worker = .expiring formation delay_elapsed iterator ops) ∨
      ∃ formation, s.workers worker = .joinNotifying formation ∧ s'.workers worker = .joined formation := by
  unfold State.notifyErased at hstep
  split at hstep
  · next formation delay_elapsed iterator ops hpc =>
    obtain ⟨t, -, rfl⟩ := Option.map_eq_some_iff.mp hstep
    exact .inl ⟨formation, delay_elapsed, iterator, ops, hpc, State.setWorker_self ..⟩
  · next formation hpc =>
    obtain ⟨t, -, rfl⟩ := Option.map_eq_some_iff.mp hstep
    exact .inr ⟨formation, hpc, State.setWorker_self ..⟩
  · cases hstep

/-- The return of an executor is a quiet step. -/
theorem State.infer_quiet {s s' : State setup} {worker : Fin setup.config.instances}
    {outcome : Except (Option String) ExecutionResponse} (hstep : s.infer worker outcome = some s') :
    ∃ pc', (s.workers worker).Quiet pc' ∧ s' = s.setWorker worker pc' := by
  unfold State.infer at hstep
  split at hstep <;> cases hstep
  rename_i hpc
  refine ⟨_, ?_, rfl⟩
  rw [hpc]
  exact .inferred ..

/-- The worker that an event is a step of. -/
def Event.actor : Event setup → Option (Fin setup.config.instances)
  | .worker acting => some acting
  | .notifyErased acting _ => some acting
  | .infer acting _ => some acting
  | .undefined acting _ _ => some acting
  | _ => none

/-- No event but a worker's touches the executors, or a worker that does not
wait. -/
theorem State.step_leaves {s s' : State setup} {event : Event setup} (hstep : s.step event = some s')
    (hactor : event.actor = none) : s.Leaves s' := by
  cases event with
  | tick | cancel =>
    cases hstep
    exact .of_same rfl rfl
  | submit request call =>
    simp only [State.step] at hstep
    split at hstep <;> cases hstep
    exact .of_same rfl rfl
  | submitter request =>
    simp only [State.step, State.runSubmit] at hstep
    split at hstep
    case h_3 =>
      cases hstep
      unfold State.enqueue
      split
      · exact .of_same rfl rfl
      · split <;> exact .of_same rfl rfl
    case h_4 =>
      split at hstep
      · cases hstep
        exact .of_same rfl rfl
      · split at hstep <;> cases hstep
        exact .of_same rfl rfl
    all_goals
      cases hstep
      try exact .of_same rfl rfl
  | notifySubmitted request woken =>
    simp only [State.step, State.notifySubmitted] at hstep
    split at hstep
    · obtain ⟨t, hnotify, rfl⟩ := Option.map_eq_some_iff.mp hstep
      obtain ⟨hworkers, hinflight⟩ := State.notifyOne_leaves hnotify
      exact ⟨hworkers, hinflight⟩
    · cases hstep
  | wake worker =>
    simp only [State.step] at hstep
    split at hstep <;> cases hstep
    exact s.setWorker_leaves worker
  | stopAccepting thread | beginDrain thread =>
    simp only [State.step] at hstep
    split at hstep <;> cases hstep
    exact .of_same rfl rfl
  | drain thread =>
    simp only [State.step, State.runDrain] at hstep
    split at hstep
    case h_1 =>
      cases hstep
      exact ⟨fun _ => .inr rfl, rfl⟩
    case h_2 =>
      split at hstep <;> cases hstep
      exact .of_same rfl rfl
    case h_5 =>
      split at hstep <;> cases hstep <;> exact .of_same rfl rfl
    all_goals
      cases hstep
      try exact .of_same rfl rfl
  | worker | notifyErased | infer | undefined => cases hactor

/-- What a step is for the workers: wake-ups, and then at most one worker's own. -/
theorem State.step_frame {s s' : State setup} {event : Event setup} (hstep : s.step event = some s') :
    ∃ t, s.Leaves t ∧ (t = s' ∨ (∃ worker, t.Works worker s') ∨
      ∃ worker formation, t.workers worker = .undefined ∧ s'.inflight_ = t.inflight_ ∧
        s'.workers = Function.update t.workers worker (.deciding formation)) := by
  cases event with
  | worker worker => exact ⟨s, .of_same rfl rfl, .inr (.inl ⟨worker, State.runWorker_works hstep⟩)⟩
  | notifyErased worker woken =>
    obtain ⟨t, pc', hnotify, hquiet, rfl⟩ := State.notifyErased_quiet hstep
    exact ⟨t, State.notifyOne_leaves hnotify, .inr (.inl ⟨worker, .quiet pc' hquiet⟩)⟩
  | infer worker outcome =>
    obtain ⟨pc', hquiet, rfl⟩ := State.infer_quiet hstep
    exact ⟨s, .of_same rfl rfl, .inr (.inl ⟨worker, .quiet pc' hquiet⟩)⟩
  | undefined worker formation queue_ =>
    simp only [State.step] at hstep
    split at hstep <;> cases hstep
    exact ⟨s, .of_same rfl rfl, .inr (.inr ⟨worker, formation, ‹_›, rfl, rfl⟩)⟩
  | _ => exact ⟨s', State.step_leaves hstep rfl, .inl rfl⟩

end neuriplo.batch
