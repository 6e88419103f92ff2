import NeuriploRuntime.Batch.Brief

open neuriplo.scheduler neuriplo.tensor transition

namespace neuriplo.batch

variable {setup : Setup}

section Steps

variable {s s' : State setup} {worker : Fin setup.config.instances}

/-- Away from the waits a quiet step leads into none. -/
theorem WorkerPc.Quiet.isWaiting {pc pc' : WorkerPc} (hquiet : pc.Quiet pc') (hlooks : pc.looks = false) :
    pc'.isWaiting = false := by
  cases hquiet with
  | waiting => cases hlooks
  | _ => rfl

theorem WorkerPc.Performs.isWaiting {pc : WorkerPc} {next : List WorkerOp → WorkerPc} {ops : List WorkerOp}
    (hperforms : pc.Performs next ops) (left : List WorkerOp) : (next left).isWaiting = false := by
  cases hperforms <;> rfl

/-- Away from the waits a worker's step leads into none. -/
theorem State.Works.isWaiting (hworks : s.Works worker s') (hlooks : (s.workers worker).looks = false) :
    (s'.workers worker).isWaiting = false := by
  cases hworks with
  | quiet pc' hquiet =>
    rw [setWorker_self]
    exact hquiet.isWaiting hlooks
  | scanned formation delay_elapsed position made_progress hpc =>
    obtain hpc | ⟨iterator, hpc⟩ := hpc <;>
    · rw [hpc] at hlooks
      cases hlooks
  | performed next op ops hperforms hperform =>
    obtain ⟨-, hterminated | ⟨left, hleft, -⟩⟩ := State.perform_opsLeft hperform
    · rw [hterminated]
      rfl
    · rw [hleft]
      exact hperforms.isWaiting left
  | _ =>
    rw [setWorker_self]
    rfl

/-- No worker of a draining model starts to wait. -/
theorem State.runWorker_isWaiting (hdraining : s.draining_ = true) (hstep : s.runWorker worker = some s') :
    (s'.workers worker).isWaiting = false := by
  cases hlooks : (s.workers worker).looks with
  | false => exact (State.runWorker_works hstep).isWaiting hlooks
  | true =>
    cases hpc : s.workers worker with
    | popping =>
      simp only [runWorker, hpc, Option.some.injEq] at hstep
      subst hstep
      unfold popNextPending
      split
      · rw [setWorker_self]
        rfl
      · rw [if_pos hdraining, setWorker_self]
        rfl
    | locking formation delay_elapsed =>
      simp only [runWorker, hpc, hdraining, if_true, Option.some.injEq] at hstep
      subst hstep
      rw [setWorker_self]
      rfl
    | rescanning formation delay_elapsed iterator =>
      simp only [runWorker, hpc] at hstep
      split at hstep <;> cases hstep
      · have hprogress := s.scan_progress formation (s.queue_.take iterator.position) (s.queue_.drop iterator.position)
        rw [runScan, setWorker_self]
        split
        · rw [if_pos hprogress]
          rfl
        · rfl
        · rfl
      · rw [setWorker_self]
        rfl
    | _ =>
      rw [hpc] at hlooks
      cases hlooks

theorem isWaiting_wakeWorker (pc : WorkerPc) : (State.wakeWorker pc).isWaiting = false := by
  cases pc <;> rfl

/-- In a draining model a worker that waits has waited before. -/
theorem State.Sound.step_isWaiting (hsound : s.Sound) (hdraining : s.draining_ = true) {event : Event setup}
    (hstep : s.step event = some s') (hwaiting : (s'.workers worker).isWaiting = true) :
    s'.workers worker = s.workers worker := by
  have hawake (hnot : (s'.workers worker).isWaiting = false) : s'.workers worker = s.workers worker := by
    rw [hnot] at hwaiting
    cases hwaiting
  by_cases hactor : event.actor = some worker
  · apply hawake
    cases event with
    | worker acting =>
      obtain rfl : acting = worker := Option.some.inj hactor
      exact State.runWorker_isWaiting hdraining hstep
    | notifyErased acting woken =>
      obtain rfl : acting = worker := Option.some.inj hactor
      obtain ⟨formation, delay_elapsed, iterator, ops, -, hpc⟩ | ⟨formation, -, hpc⟩ := State.notifyErased_self hstep <;>
      · rw [hpc]
        rfl
    | infer acting outcome =>
      obtain rfl : acting = worker := Option.some.inj hactor
      simp only [State.step, State.infer] at hstep
      split at hstep <;> cases hstep
      rw [State.setWorker_self]
      rfl
    | undefined acting formation queue_ =>
      rw [hsound.step_undefined] at hstep
      cases hstep
    | _ => cases hactor
  · obtain hsame | hwoken := hsound.step_others hstep hactor
    · exact hsame
    · apply hawake
      rw [hwoken]
      exact isWaiting_wakeWorker _

/-- Whatever is not a step of `stopAccepting` or of `beginDrain` leaves the drains alone. -/
theorem State.Sound.step_drains (hsound : s.Sound) {event : Event setup} (hstep : s.step event = some s') :
    (s'.drains = s.drains ∧ s'.draining_ = s.draining_) ∨
      (∃ thread join, s'.draining_ = true ∧ s'.drains = Function.update s.drains thread (.notifying join)) ∨
      ∃ thread, s.runDrain thread = some s' := by
  cases event with
  | tick | cancel =>
    cases hstep
    exact .inl ⟨rfl, rfl⟩
  | submit request call =>
    simp only [State.step] at hstep
    split at hstep <;> cases hstep
    exact .inl ⟨rfl, rfl⟩
  | submitter request =>
    left
    simp only [State.step, State.runSubmit] at hstep
    split at hstep
    case h_3 =>
      cases hstep
      unfold State.enqueue
      split
      · exact ⟨rfl, rfl⟩
      · split <;> exact ⟨rfl, rfl⟩
    case h_4 =>
      split at hstep
      · cases hstep
        exact ⟨rfl, rfl⟩
      · split at hstep <;> cases hstep
        exact ⟨rfl, rfl⟩
    all_goals
      cases hstep
      try exact ⟨rfl, rfl⟩
  | notifySubmitted request woken =>
    simp only [State.step, State.notifySubmitted] at hstep
    split at hstep
    · obtain ⟨t, hnotify, rfl⟩ := Option.map_eq_some_iff.mp hstep
      rw [State.notifyOne_eq hnotify]
      exact .inl ⟨rfl, rfl⟩
    · cases hstep
  | worker worker =>
    have hframe := (State.runWorker_works hstep).frame (hsound.workers worker)
    exact .inl ⟨hframe.drains, hframe.draining⟩
  | notifyErased worker woken =>
    obtain ⟨t, pc', hnotify, -, rfl⟩ := State.notifyErased_quiet hstep
    rw [State.notifyOne_eq hnotify]
    exact .inl ⟨rfl, rfl⟩
  | wake worker =>
    simp only [State.step] at hstep
    split at hstep <;> cases hstep
    exact .inl ⟨rfl, rfl⟩
  | infer worker outcome =>
    obtain ⟨pc', -, rfl⟩ := State.infer_quiet hstep
    exact .inl ⟨rfl, rfl⟩
  | undefined worker formation queue_ =>
    rw [hsound.step_undefined] at hstep
    cases hstep
  | stopAccepting thread | beginDrain thread =>
    simp only [State.step] at hstep
    split at hstep <;> cases hstep
    exact .inr (.inl ⟨thread, _, rfl, rfl⟩)
  | drain thread => exact .inr (.inr ⟨thread, hstep⟩)

/-- A model with a drain under way drains, and its workers wait at most until they are notified. -/
structure State.Roused (s : State setup) : Prop where
  begun : ∀ thread, s.drains thread ≠ .idle → s.draining_ = true
  notified : s.draining_ = true → ∀ worker, (s.workers worker).isWaiting = true →
    ∃ thread join, s.drains thread = .notifying join

/-- A step of a drain keeps the workers roused. -/
theorem State.Roused.runDrain (hroused : s.Roused) {thread : Nat} (hstep : s.runDrain thread = some s') :
    s'.Roused := by
  have hdraining {pc : DrainPc} (hpc : s.drains thread = pc) (hbegun : pc ≠ .idle) : s.draining_ = true :=
    hroused.begun thread (hpc ▸ hbegun)
  have hmoved {t : State setup} {pc pc' : DrainPc} (hpc : s.drains thread = pc) (hbegun : pc ≠ .idle)
      (hnotified : ∀ join, pc ≠ .notifying join) (hworkers : t.workers = s.workers) (hsame : t.draining_ = s.draining_)
      (hdrains : t.drains = Function.update s.drains thread pc') : t.Roused := by
    constructor
    · exact fun _ _ => hsame.trans (hdraining hpc hbegun)
    · intro _ worker hwaiting
      rw [hworkers] at hwaiting
      obtain ⟨other, join, hother⟩ := hroused.notified (hdraining hpc hbegun) worker hwaiting
      refine ⟨other, join, ?_⟩
      rw [hdrains, Function.update_of_ne]
      · exact hother
      · rintro rfl
        exact hnotified join (hpc.symm.trans hother)
  unfold State.runDrain at hstep
  split at hstep
  · next join hpc =>
    cases hstep
    constructor
    · exact fun _ _ => hdraining hpc (by rintro ⟨⟩)
    · intro _ worker hwaiting
      have hawake := isWaiting_wakeWorker (s.workers worker)
      exact absurd hwaiting (Bool.eq_false_iff.mp hawake)
  · next hpc =>
    split at hstep <;> cases hstep
    exact hmoved hpc (by rintro ⟨⟩) (by rintro _ ⟨⟩) rfl rfl rfl
  · next hpc =>
    cases hstep
    exact hmoved hpc (by rintro ⟨⟩) (by rintro _ ⟨⟩) rfl rfl rfl
  · next hpc =>
    cases hstep
    exact hmoved hpc (by rintro ⟨⟩) (by rintro _ ⟨⟩) rfl rfl rfl
  · next request pending hpc =>
    split at hstep <;> cases hstep <;> exact hmoved hpc (by rintro ⟨⟩) (by rintro _ ⟨⟩) rfl rfl rfl
  · cases hstep

/-- Every step keeps the workers roused. -/
theorem State.Roused.step (hroused : s.Roused) (hsound : s.Sound) {event : Event setup}
    (hstep : s.step event = some s') : s'.Roused := by
  obtain ⟨hdrains, hsame⟩ | ⟨thread, join, hdraining, hdrains⟩ | ⟨thread, hrun⟩ := hsound.step_drains hstep
  · constructor
    · intro thread hbegun
      rw [hdrains] at hbegun
      exact hsame.trans (hroused.begun thread hbegun)
    · intro hdraining worker hwaiting
      rw [hsame] at hdraining
      rw [hsound.step_isWaiting hdraining hstep hwaiting] at hwaiting
      obtain ⟨thread, join, hnotifying⟩ := hroused.notified hdraining worker hwaiting
      exact ⟨thread, join, by rw [hdrains, hnotifying]⟩
  · exact ⟨fun _ _ => hdraining, fun _ _ _ => ⟨thread, join, by rw [hdrains, Function.update_self]⟩⟩
  · exact hroused.runDrain hrun

end Steps

end neuriplo.batch
