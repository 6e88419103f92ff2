import NeuriploRuntime.Llm.Attended

open neuriplo.scheduler neuriplo.tensor transition

namespace neuriplo.llm

variable {setup : Setup}

section Steps

variable {s s' : State setup} {worker : Fin setup.config.kv_cache_slots}

/-- The request that a worker may still hand to an executor. -/
def WorkerPc.unexecuted : WorkerPc → Option Nat
  | .checkingCancelled request => some request
  | .checkingDeadline request => some request
  | .acquiring request _ => some request
  | .recheckingDraining request => some request
  | .recheckingDeadline request => some request
  | .selecting request => some request
  | .starting request _ => some request
  | _ => none

/-- What may still be handed out is in the worker's hands. -/
theorem WorkerPc.owned_of_unexecuted {pc : WorkerPc} {request : Nat} (hunexecuted : pc.unexecuted = some request) :
    pc.owned = some request := by
  cases pc <;> first | exact hunexecuted | cases hunexecuted

theorem WorkerPc.Quiet.unexecuted {pc pc' : WorkerPc} (hquiet : pc.Quiet pc') :
    pc'.unexecuted = pc.unexecuted ∨ pc'.unexecuted = none := by
  cases hquiet with
  | dropped | started => exact .inr rfl
  | _ => exact .inl rfl

/-- A worker that ends with a request goes on to, unless it is terminated. -/
theorem State.perform_finishing {request : Nat} {op : WorkerOp} {ops : List WorkerOp} {pending : PendingRequest} :
    ∃ ops', (s.perform worker request pending ops op).workers worker = .finishing request ops' ∨
      (s.perform worker request pending ops op).workers worker = .terminated ops' := by
  have hfinishing (t : State setup) (ops' : List WorkerOp) :
      ∃ ops'', (t.setWorker worker (.finishing request ops')).workers worker = .finishing request ops'' ∨
        (t.setWorker worker (.finishing request ops')).workers worker = .terminated ops'' :=
    ⟨ops', .inl (State.setWorker_self ..)⟩
  cases op with
  | settle =>
    simp only [State.perform]
    split
    · exact hfinishing _ _
    · split <;> exact hfinishing _ _
  | setValue =>
    simp only [State.perform]
    split
    · exact hfinishing _ _
    · exact ⟨ops, .inr (State.setWorker_self ..)⟩
  | _ => exact hfinishing _ _

/-- A worker gets a request to hand out from the queue only. -/
theorem State.Works.unexecuted (hworks : s.Works worker s') {request : Nat}
    (hunexecuted : (s'.workers worker).unexecuted = some request) :
    (s.workers worker).unexecuted = some request ∨ request ∈ s.queue_ := by
  cases hworks with
  | quiet pc' hquiet =>
    rw [State.setWorker_self] at hunexecuted
    obtain hsame | hnone := hquiet.unexecuted
    · exact .inl (hsame ▸ hunexecuted)
    · rw [hnone] at hunexecuted
      cases hunexecuted
  | popped first queue_ hpc hqueue =>
    rw [State.setWorker_self] at hunexecuted
    cases hunexecuted
    exact .inr (by rw [hqueue]; exact List.mem_cons_self)
  | performed set op ops pending hpc =>
    obtain ⟨ops', hfinishing | hterminated⟩ := @State.perform_finishing _ s worker set op ops pending
    · rw [hfinishing] at hunexecuted
      cases hunexecuted
    · rw [hterminated] at hunexecuted
      cases hunexecuted
  | refused first stage hpc =>
    rw [State.refuseSlot, State.setWorker_self] at hunexecuted
    cases hunexecuted
  | locked first stage timedOut hpc | parked first hpc | acquired first hpc | selected first hpc =>
    rw [State.setWorker_self] at hunexecuted
    rw [hpc]
    exact .inl hunexecuted
  | _ =>
    rw [State.setWorker_self] at hunexecuted
    cases hunexecuted

/-- The request can no longer be handed to an executor. -/
structure State.HandedOut (s : State setup) (request : Nat) : Prop where
  accepted : s.requests request ≠ none
  queue : request ∉ s.queue_
  workers : ∀ worker, (s.workers worker).unexecuted ≠ some request

/-- A worker's step does not hand a request out again. -/
theorem State.HandedOut.work {request : Nat} (hhanded : s.HandedOut request) (hworks : s.Works worker s') :
    s'.HandedOut request := by
  obtain ⟨pc', hhandles⟩ := hworks.handles
  refine ⟨fun hnone => hhanded.accepted ((hworks.keeps request).accepted.mp hnone), ?_, ?_⟩
  · intro hmem
    obtain ⟨hqueue, -⟩ | ⟨first, -, hqueue, -⟩ := hhandles.owned
    · exact hhanded.queue (hqueue ▸ hmem)
    · apply hhanded.queue
      rw [hqueue]
      exact List.mem_cons_of_mem first hmem
  · intro other hunexecuted
    by_cases hother : other = worker
    · subst hother
      obtain hwas | hqueued := hworks.unexecuted hunexecuted
      · exact hhanded.workers other hwas
      · exact hhanded.queue hqueued
    · rw [hhandles.workers, Function.update_of_ne hother] at hunexecuted
      exact hhanded.workers other hunexecuted

/-- No step hands a request out again. -/
theorem State.Attended.handedOut_step (hattended : s.Attended) (hshut : s.Shut) {request : Nat}
    (hhanded : s.HandedOut request) {event : Event setup} (hstep : s.step event = some s') :
    s'.HandedOut request := by
  have haccepted : s'.requests request ≠ none := by
    intro hnone
    exact hhanded.accepted ((hattended.step_keeps hstep hhanded.accepted).accepted.mp hnone)
  have hmove (hqueue : s'.queue_ = s.queue_) (hworkers : s'.workers = s.workers) : s'.HandedOut request :=
    ⟨haccepted, by rw [hqueue]; exact hhanded.queue, by rw [hworkers]; exact hhanded.workers⟩
  cases event with
  | tick | cancel | stopAccepting =>
    cases hstep
    exact hmove rfl rfl
  | submit submitted call =>
    simp only [State.step] at hstep
    split at hstep <;> cases hstep
    exact hmove rfl rfl
  | submitter submitted =>
    have hcall := hattended.submits submitted
    cases State.runSubmit_submits hstep with
    | enqueued call enqueued_at deadline hpc =>
      rw [hpc] at hcall
      refine ⟨haccepted, ?_, hhanded.workers⟩
      intro hmem
      obtain hqueued | hlast := List.mem_append.mp hmem
      · exact hhanded.queue hqueued
      · rw [List.mem_singleton.mp hlast] at hhanded
        exact hhanded.accepted hcall
    | _ => exact hmove rfl rfl
  | worker worker => exact hhanded.work (State.runWorker_works hstep)
  | infer worker outcome => exact hhanded.work (State.infer_works hstep)
  | beginDrain thread =>
    simp only [State.step] at hstep
    split at hstep <;> cases hstep
    exact hmove rfl rfl
  | drain thread =>
    obtain ⟨-, -, hqueue, hworkers, -⟩ := hshut.drain_leaves hstep
    exact hmove hqueue hworkers

end Steps

/-- What is inside an executor is not handed out again. -/
theorem State.handedOut_of_executes {setup : Setup} {s : State setup} (hattended : s.Attended) (hplaced : s.Placed)
    {request : Nat} (hexecutes : s.Executes request) : s.HandedOut request := by
  obtain ⟨worker, executor_index, execution_started, hpc⟩ := hexecutes
  have howned : (s.workers worker).owned = some request := by
    rw [hpc]
    rfl
  obtain ⟨hqueue, hunique⟩ := hplaced worker request howned
  refine ⟨?_, hqueue, ?_⟩
  · obtain ⟨pending, hpending, -⟩ := hattended.owned worker request howned
    rw [hpending]
    simp
  · intro other hunexecuted
    have hother := hunique other (WorkerPc.owned_of_unexecuted hunexecuted)
    subst hother
    rw [hpc] at hunexecuted
    cases hunexecuted

inductive Place (setup : Setup) where
  | queue
  | worker (worker : Fin setup.config.kv_cache_slots)
  | answered
  | abandoned

/-- Where an accepted request is: in the queue, in a worker's hands, answered, or
in nobody's hands without an answer. -/
def State.IsAt {setup : Setup} (s : State setup) (request : Nat) : Place setup → Prop
  | .queue => request ∈ s.queue_
  | .worker worker => (s.workers worker).owned = some request
  | .answered => ¬ s.Open request
  | .abandoned => s.Open request ∧ request ∉ s.queue_ ∧ ∀ worker, (s.workers worker).owned ≠ some request

/-- A request is in one place. -/
theorem State.Attended.place_unique {setup : Setup} {s : State setup} (hattended : s.Attended) (hplaced : s.Placed)
    (request : Nat) : ∃! place, s.IsAt request place := by
  by_cases hopen : s.Open request
  · by_cases hqueued : request ∈ s.queue_
    · refine ⟨.queue, hqueued, ?_⟩
      intro place hplace
      cases place with
      | queue => rfl
      | worker worker => exact absurd hqueued (hplaced worker request hplace).1
      | answered => exact absurd hopen hplace
      | abandoned => exact absurd hqueued hplace.2.1
    · by_cases howned : ∃ worker, (s.workers worker).owned = some request
      · obtain ⟨worker, howned⟩ := howned
        refine ⟨.worker worker, howned, ?_⟩
        intro place hplace
        cases place with
        | queue => exact absurd hplace hqueued
        | worker other => rw [(hplaced worker request howned).2 other hplace]
        | answered => exact absurd hopen hplace
        | abandoned => exact absurd howned (hplace.2.2 worker)
      · refine ⟨.abandoned, ⟨hopen, hqueued, fun worker hworker => howned ⟨worker, hworker⟩⟩, ?_⟩
        intro place hplace
        cases place with
        | queue => exact absurd hplace hqueued
        | worker worker => exact absurd ⟨worker, hplace⟩ howned
        | answered => exact absurd hopen hplace
        | abandoned => rfl
  · refine ⟨.answered, hopen, ?_⟩
    intro place hplace
    cases place with
    | queue => exact absurd (hattended.queued request hplace) hopen
    | worker worker => exact absurd (hattended.owned worker request hplace) hopen
    | answered => rfl
    | abandoned => exact absurd hplace.1 hopen

/-- Every accepted request is in one place at any time. Its promise is set once
and stays, and setting it never fails; it is handed to an executor once; it is
abandoned only by a submitter whose deadline has passed. The submitter returns
what was set, or that timeout, and a drain leaves no request behind. -/
theorem requests_answered {setup : Setup} {start : Int} {history : List (State setup)} {s : State setup}
    (hrun : (system setup start).Run history s) (request : Nat) (haccepted : s.requests request ≠ none) :
    (∃! place, s.IsAt request place) ∧
    (∀ moment ∈ history, ∀ result, moment.Set request result → s.Set request result) ∧
    ((∀ worker ops, s.workers worker ≠ .terminated ops) ∧
      ∀ thread pending, s.drains thread = .answering pending → pending = []) ∧
    (∀ moment ∈ history, moment.Executes request →
      ∀ worker executor_index, s.workers worker ≠ .starting request executor_index) ∧
    (s.IsAt request .abandoned → s.GivenUp request ∧ s.Late request) ∧
    (∀ result, s.submits request = .returned result →
      s.Set request result ∨ (result = makeTimeoutResult ∧ s.GivenUp request ∧ s.Late request)) ∧
    ∀ thread, s.drains thread = .returned → s.IsAt request .answered ∨ s.IsAt request .abandoned := by
  have hreach := hrun.reachable
  have hattended := attended_reachable hreach
  have hplaced := placed_reachable hreach
  have hshut := shut_reachable hreach
  refine ⟨hattended.place_unique hplaced request, ?_, ⟨fun worker => (hattended.single worker).alive, ?_⟩, ?_, ?_, ?_,
    ?_⟩
  · intro moment hmem result
    refine @System.Run.stable _ _ (system setup start) (·.Set request result) ?_ history s hrun moment hmem
    intro s event s' hreach hset hstep
    have haccepted : s.requests request ≠ none := by
      obtain ⟨pending, hpending, -⟩ := hset
      rw [hpending]
      simp
    exact ((attended_reachable hreach).step_keeps hstep haccepted).set hset
  · intro thread pending hanswering
    have hwas := hshut.drains thread
    rw [hanswering] at hwas
    exact hwas.2
  · intro moment hmem hexecutes worker executor_index hstarting
    have hreach' := hrun.reachable_of_mem hmem
    have hmoment := State.handedOut_of_executes (attended_reachable hreach') (placed_reachable hreach') hexecutes
    have hhanded : s.HandedOut request := by
      refine @System.Run.stable _ _ (system setup start) (·.HandedOut request) ?_ history s hrun moment hmem hmoment
      intro s event s' hreach hhanded hstep
      exact (attended_reachable hreach).handedOut_step (shut_reachable hreach) hhanded hstep
    apply hhanded.workers worker
    rw [hstarting]
    rfl
  · rintro ⟨hopen, hqueue, hnobody⟩
    have hgiven := (hattended.lost request haccepted hqueue hnobody).resolve_left (not_not.mpr hopen)
    exact ⟨hgiven, hattended.late request hgiven⟩
  · intro result hreturned
    have hcall := hattended.submits request
    rw [hreturned] at hcall
    obtain hnone | hset | ⟨hresult, hgiven⟩ := hcall
    · exact absurd hnone haccepted
    · exact .inl hset
    · exact .inr ⟨hresult, hgiven, hattended.late request hgiven⟩
  · intro thread hreturned
    have hexited := hshut.drains thread
    rw [hreturned] at hexited
    by_cases hopen : s.Open request
    · refine .inr ⟨hopen, ?_, ?_⟩
      · rw [(hshut.closed hexited).2]
        exact List.not_mem_nil
      · intro worker howned
        rw [hexited worker] at howned
        cases howned
    · exact .inl hopen

/-- The request that was executed and answered. -/
theorem requests_answered_served :
    ∃ history s, System.trace State.step [] { now := 0 } served = some (history, s) ∧
      s.Set 0 (completedResult 0 0 0 1 {}) ∧ ∃! place, s.IsAt 0 place := by
  have hreplay : ∃ history s pending, System.trace State.step [] { now := 0 } served = some (history, s) ∧
      s.submits 0 = .returned (completedResult 0 0 0 1 {}) ∧ s.requests 0 = some pending := ⟨_, _, _, rfl, rfl, rfl⟩
  obtain ⟨history, s, pending, htrace, hreturned, hpending⟩ := hreplay
  have hrun : (system singleSlot 0).Run history s := System.run_of_trace htrace
  obtain ⟨hplace, -, -, -, -, hanswer, -⟩ := requests_answered hrun 0 (by rw [hpending]; simp)
  refine ⟨history, s, htrace, ?_, hplace⟩
  obtain hset | ⟨hresult, -⟩ := hanswer _ hreturned
  · exact hset
  · cases hresult

end neuriplo.llm
