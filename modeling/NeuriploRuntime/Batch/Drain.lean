import NeuriploRuntime.Batch.Progress

open neuriplo.scheduler neuriplo.tensor transition

namespace neuriplo.batch

variable {setup : Setup}

/-- In every run with valid iterators the workers' steps are brief. -/
theorem brief_reachable {start : Int} {s : State setup} (hreach : (scanning setup start).Reachable s) :
    ∀ worker, (s.workers worker).Brief := by
  refine @System.Reachable.invariant _ _ (scanning setup start) (fun s => ∀ worker, (s.workers worker).Brief) ?_ ?_ s
    hreach
  · rintro s rfl worker
    trivial
  · intro s event s' hreach hbrief hstep
    exact (sound_reachable hreach).step_brief hbrief hstep.1

/-- In every run with valid iterators a draining model's workers are roused. -/
theorem roused_reachable {start : Int} {s : State setup} (hreach : (scanning setup start).Reachable s) : s.Roused := by
  refine @System.Reachable.invariant _ _ (scanning setup start) State.Roused ?_ ?_ s hreach
  · rintro s rfl
    exact ⟨fun _ hbegun => absurd rfl hbegun, by rintro ⟨⟩⟩
  · intro s event s' hreach hroused hstep
    exact hroused.step (sound_reachable hreach) hstep.1

/-- In every run with valid iterators a worker exits when nothing is left. -/
theorem spent_reachable {start : Int} {s : State setup} (hreach : (scanning setup start).Reachable s) : s.Spent := by
  refine @System.Reachable.invariant _ _ (scanning setup start) State.Spent ?_ ?_ s hreach
  · rintro s rfl worker hexited
    cases hexited
  · intro s event s' hreach hspent hstep
    exact hspent.step (sound_reachable hreach) hstep.1

/-- `beginDrain` was called and has not returned. -/
def DrainPc.Drains : DrainPc → Prop
  | .notifying join => join = true
  | .joining => True
  | .rejecting => True
  | .answering _ => True
  | _ => False

/-- A model with a drain under way drains. -/
theorem State.Roused.draining {s : State setup} {thread : Nat} (hroused : s.Roused)
    (hbegun : (s.drains thread).Drains) : s.draining_ = true := by
  apply hroused.begun thread
  intro hidle
  rw [hidle] at hbegun
  exact hbegun

/-- A drain ends, when no worker goes on with an iterator that the queue has left behind and none cuts a slice backward.
From any moment of a call of `beginDrain` on the workers take no more than a bounded number of steps, whatever the other
threads do and whichever batches they form; until all have exited one of them can go on, is inside
an executor, or is about to be notified; then nothing is queued, and every call can go on until it returns. -/
theorem draining_ends {start : Int} {s t : State setup} (hreach : (steady setup start).Reachable s) {thread : Nat}
    (hbegun : (s.drains thread).Drains) {steps : List (Taken (State setup) (Event setup))}
    (hstretch : (steady setup start).Stretch (fun _ => True) s steps t) :
    steps.countP (·.event.isWorkers) ≤ 30 * (s.queue_.length + setup.config.instances + s.held) ∧
    (t.AllExited ∨ (∃ worker, t.CanMove worker) ∨ ∃ thread join, t.drains thread = .notifying join) ∧
    (t.AllExited → t.queue_ = [] ∧ ∀ thread, t.drains thread = .idle ∨ t.drains thread = .returned ∨
      ∃ t', t.step (.drain thread) = some t') := by
  have hscanning := scanning_of_steady hreach
  have hreach' := hstretch.reachable hreach
  have hscanning' := scanning_of_steady hreach'
  have hkept (s : State setup) (event : Event setup) (s' : State setup) (hreach : (steady setup start).Reachable s)
      (hdraining : s.draining_ = true) (hstep : (steady setup start).step s event s') : s'.draining_ = true :=
    (sound_reachable (scanning_of_steady hreach)).step_draining hdraining hstep.1
  have halong := hstretch.along hkept hreach ((roused_reachable hscanning).draining hbegun)
  refine ⟨?_, ?_, ?_⟩
  · have hcount := halong.countP_le State.rank (·.event.isWorkers) ?_ hreach
    · have hrank := (sound_reachable hscanning).rank_le (brief_reachable hscanning)
      omega
    · intro s event s' hreach hstay hstep
      exact (sound_reachable (scanning_of_steady hreach)).step_rank hstay.2 (steady_scanning hstep.2) hstep.1
  · by_cases hexited : t.AllExited
    · exact .inl hexited
    · obtain ⟨worker, hrunning⟩ := not_forall.mp hexited
      cases hwaiting : (t.workers worker).isWaiting with
      | false =>
        have hbrief := brief_reachable hscanning' worker
        have hsettles := settles_reachable hreach' worker
        exact .inr (.inl ⟨worker, (sound_reachable hscanning').canMove hbrief hsettles hrunning hwaiting⟩)
      | true => exact .inr (.inr ((roused_reachable hscanning').notified halong.ends.2 worker hwaiting))
  · intro hexited
    refine ⟨(spent_reachable hscanning' ⟨0, setup.hinstances⟩ (hexited _)).2, ?_⟩
    intro thread
    simp only [State.step, State.runDrain]
    cases hpc : t.drains thread with
    | idle => exact .inl rfl
    | returned => exact .inr (.inl rfl)
    | joining =>
      have hall : ((List.finRange setup.config.instances).all fun worker => (t.workers worker).isExited) = true := by
        apply List.all_eq_true.mpr
        intro worker _
        rw [hexited worker]
        rfl
      exact .inr (.inr ⟨_, if_pos hall⟩)
    | notifying join => exact .inr (.inr ⟨_, rfl⟩)
    | rejecting => exact .inr (.inr ⟨_, rfl⟩)
    | answering pending =>
      cases pending with
      | nil => exact .inr (.inr ⟨_, rfl⟩)
      | cons request pending =>
        refine .inr (.inr (Option.isSome_iff_exists.mp ?_))
        simp only
        split <;> exact Option.isSome_some

/-- A request is queued when the model starts to drain. -/
def drainingRun : List (Event plainSetup) :=
  [.submit 0 {}, .submitter 0, .submitter 0, .submitter 0, .notifySubmitted 0 none, .beginDrain 0]

/-- The worker answers it and exits. -/
def drainedRun : List (Event plainSetup) :=
  .drain 0 :: List.replicate 12 (.worker plainWorker) ++ [.infer plainWorker (.ok {})] ++
    List.replicate 9 (.worker plainWorker)

/-- A drain with one request in the queue. -/
theorem draining_ends_drainedRun :
    ∃ s t, System.replay (System.guarded steadySteps State.step) { now := 0 } drainingRun = some s ∧
      System.replay (System.guarded steadySteps State.step) s drainedRun = some t ∧
      drainedRun.countP (·.isWorkers) ≤ 30 * (1 + plainSetup.config.instances + 0) ∧ t.queue_ = [] ∧
      ∃ t', t.step (.drain 0) = some t' := by
  have hreplay : ∃ s t, System.replay (System.guarded steadySteps State.step) { now := 0 } drainingRun = some s ∧
      System.replay (System.guarded steadySteps State.step) s drainedRun = some t ∧ s.drains 0 = .notifying true ∧
        s.queue_ = [0] ∧ s.workers plainWorker = .popping ∧ t.workers plainWorker = .exited ∧ t.drains 0 = .joining :=
    ⟨_, _, rfl, rfl, rfl, rfl, rfl, rfl, rfl⟩
  obtain ⟨s, t, hrun, hrun', hbegun, hqueue, hpopping, hexited, hjoining⟩ := hreplay
  have honly (worker : Fin plainSetup.config.instances) : worker = plainWorker :=
    @Subsingleton.elim (Fin 1) _ worker plainWorker
  have hreach : (steady plainSetup 0).Reachable s := by
    obtain ⟨history, hhistory⟩ := System.reachable_of_replay hrun
    exact ⟨history, hhistory.of_guarded⟩
  obtain ⟨steps, hstretch, hevents⟩ := System.stretch_of_replay { now := 0 } hrun'
  have hheld : s.held = 0 := by
    apply tally_eq_zero.mpr
    intro worker
    rw [honly worker, hpopping]
    rfl
  have hdrains : (s.drains 0).Drains := by
    rw [hbegun]
    exact rfl
  obtain ⟨hbound, -, hreturns⟩ := draining_ends hreach hdrains hstretch.of_guarded
  obtain ⟨hempty, hstep⟩ := hreturns fun worker => (honly worker).symm ▸ hexited
  refine ⟨s, t, hrun, hrun', ?_, hempty, ?_⟩
  · rw [hqueue, hheld] at hbound
    rw [← hevents, List.countP_map]
    exact hbound
  · obtain hpc | hpc | hstep := hstep 0
    · rw [hjoining] at hpc
      cases hpc
    · rw [hjoining] at hpc
      cases hpc
    · exact hstep

end neuriplo.batch
