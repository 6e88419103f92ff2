import NeuriploRuntime.Batch.Rousing
import NeuriploRuntime.Batch.Settling

open neuriplo.scheduler neuriplo.tensor transition

namespace neuriplo.batch

variable {setup : Setup}

section Steps

variable {s s' : State setup} {worker : Fin setup.config.instances}

/-- A draining model goes on draining. -/
theorem State.Sound.step_draining (hsound : s.Sound) (hdraining : s.draining_ = true) {event : Event setup}
    (hstep : s.step event = some s') : s'.draining_ = true := by
  obtain ⟨-, hsame⟩ | ⟨-, -, hdraining, -⟩ | ⟨thread, hrun⟩ := hsound.step_drains hstep
  · exact hsame.trans hdraining
  · exact hdraining
  · unfold State.runDrain at hrun
    split at hrun
    case h_2 =>
      split at hrun <;> cases hrun
      exact hdraining
    case h_5 => split at hrun <;> cases hrun <;> exact hdraining
    all_goals
      cases hrun
      try exact hdraining

/-- What is still queued once a worker has exited. -/
theorem State.Works.exits (hworks : s.Works worker s') (hexited : s'.workers worker = .exited) :
    s'.draining_ = true ∧ s'.queue_ = [] := by
  cases hworks with
  | exited hpc hqueue hdraining => exact ⟨hdraining, hqueue⟩
  | quiet pc' hquiet =>
    rw [setWorker_self] at hexited
    subst hexited
    generalize s.workers worker = pc at hquiet
    cases hquiet
  | scanned formation delay_elapsed position made_progress =>
    rw [runScan, setWorker_self] at hexited
    split at hexited
    · split at hexited
      · cases hexited
      · split at hexited <;> cases hexited
    · cases hexited
    · cases hexited
  | performed next op ops hperforms hperform =>
    obtain ⟨-, hterminated | ⟨left, hleft, -⟩⟩ := State.perform_opsLeft hperform
    · rw [hterminated] at hexited
      cases hexited
    · have hrunning : next left ≠ .exited := by
        generalize s.workers worker = pc at hperforms
        cases hperforms <;> rintro ⟨⟩
      exact absurd (hleft.symm.trans hexited) hrunning
  | _ =>
    rw [setWorker_self] at hexited
    cases hexited

/-- A draining model's empty queue stays empty. -/
theorem State.Sound.step_queue (hsound : s.Sound) (hdraining : s.draining_ = true) (hqueue : s.queue_ = [])
    {event : Event setup} (hstep : s.step event = some s') : s'.queue_ = [] := by
  have hshorter (hle : s'.queue_.length ≤ s.queue_.length) : s'.queue_ = [] := by
    rw [hqueue] at hle
    exact List.eq_nil_of_length_eq_zero (Nat.le_zero.mp hle)
  cases event with
  | worker worker =>
    have hframe := (State.runWorker_works hstep).frame (hsound.workers worker)
    apply List.eq_nil_iff_forall_not_mem.mpr
    intro request hmem
    have hwas := hframe.queue request hmem
    rw [hqueue] at hwas
    cases hwas
  | submitter request => rw [State.runSubmit_queue hdraining hstep, hqueue]
  | drain thread => exact hshorter (State.runDrain_queue hstep)
  | undefined worker formation queue_ =>
    rw [hsound.step_undefined] at hstep
    cases hstep
  | notifySubmitted request woken =>
    simp only [State.step, State.notifySubmitted] at hstep
    split at hstep
    · obtain ⟨t, hnotify, rfl⟩ := Option.map_eq_some_iff.mp hstep
      rw [State.notifyOne_eq hnotify]
      exact hqueue
    · cases hstep
  | notifyErased worker woken =>
    obtain ⟨t, pc', hnotify, -, rfl⟩ := State.notifyErased_quiet hstep
    rw [State.notifyOne_eq hnotify]
    exact hqueue
  | infer worker outcome =>
    obtain ⟨pc', -, rfl⟩ := State.infer_quiet hstep
    exact hqueue
  | tick | cancel =>
    cases hstep
    exact hqueue
  | submit | wake | stopAccepting | beginDrain =>
    simp only [State.step] at hstep
    split at hstep <;> cases hstep
    exact hqueue

/-- A worker exits when the model drains and nothing is queued. -/
def State.Spent (s : State setup) : Prop :=
  ∀ worker, s.workers worker = .exited → s.draining_ = true ∧ s.queue_ = []

/-- Every step lets a worker exit only when nothing is left. -/
theorem State.Spent.step (hspent : s.Spent) (hsound : s.Sound) {event : Event setup} (hstep : s.step event = some s') :
    s'.Spent := by
  intro worker hexited
  have hkept (hwas : s.workers worker = .exited) : s'.draining_ = true ∧ s'.queue_ = [] := by
    obtain ⟨hdraining, hqueue⟩ := hspent worker hwas
    exact ⟨hsound.step_draining hdraining hstep, hsound.step_queue hdraining hqueue hstep⟩
  by_cases hactor : event.actor = some worker
  · cases event with
    | worker acting =>
      obtain rfl : acting = worker := Option.some.inj hactor
      exact (State.runWorker_works hstep).exits hexited
    | notifyErased acting woken =>
      obtain rfl : acting = worker := Option.some.inj hactor
      obtain ⟨formation, delay_elapsed, iterator, ops, -, hpc⟩ | ⟨formation, -, hpc⟩ :=
          State.notifyErased_self hstep <;>
      · rw [hpc] at hexited
        cases hexited
    | infer acting outcome =>
      obtain rfl : acting = worker := Option.some.inj hactor
      simp only [State.step, State.infer] at hstep
      split at hstep <;> cases hstep
      rw [State.setWorker_self] at hexited
      cases hexited
    | undefined acting formation queue_ =>
      rw [hsound.step_undefined] at hstep
      cases hstep
    | _ => cases hactor
  · obtain hsame | hwoken := hsound.step_others hstep hactor
    · exact hkept (hsame.symm.trans hexited)
    · apply hkept
      rw [hwoken] at hexited
      cases hpc : s.workers worker with
      | exited => rfl
      | _ =>
        rw [hpc] at hexited
        cases hexited

def State.AllExited (s : State setup) : Prop := ∀ worker, s.workers worker = .exited

/-- The worker can take a step of its own, or is inside an executor. -/
def State.CanMove (s : State setup) (worker : Fin setup.config.instances) : Prop :=
  (∃ s', s.step (.worker worker) = some s') ∨ (∃ woken s', s.step (.notifyErased worker woken) = some s') ∨
    ∃ job executor_index execution_started, s.workers worker = .executing job executor_index execution_started

/-- Only an exited worker and one that waits cannot go on. -/
theorem State.Sound.canMove (hsound : s.Sound) (hbrief : (s.workers worker).Brief)
    (hsettles : (s.workers worker).Settles) (hrunning : s.workers worker ≠ .exited)
    (hawake : (s.workers worker).isWaiting = false) : s.CanMove worker := by
  have hmoves (hsome : (s.runWorker worker).isSome = true) : s.CanMove worker :=
    .inl (Option.isSome_iff_exists.mp hsome)
  have hnotifies (hsome : ∀ woken t, s.notifyOne woken = some t → (s.notifyErased worker woken).isSome = true) :
      s.CanMove worker := by
    obtain ⟨woken, t, hnotify⟩ := s.exists_notifyOne
    exact .inr (.inl ⟨woken, Option.isSome_iff_exists.mp (hsome woken t hnotify)⟩)
  have hperforms {next : List WorkerOp → WorkerPc} {ops : List WorkerOp} {op : WorkerOp} (hop : op ≠ .notifyOne) :
      (s.perform worker next ops op).isSome = true := by
    obtain ⟨t, hperform⟩ := @State.perform_isSome _ s worker next op ops hop
    rw [hperform, Option.isSome_some]
  have halive := hsound.workers worker
  cases hpc : s.workers worker with
  | exited => exact absurd hpc hrunning
  | popWaiting | formWaiting =>
    rw [hpc] at hawake
    cases hawake
  | terminated | throwing =>
    rw [hpc] at hsettles
    exact hsettles.elim
  | undefined =>
    rw [hpc] at halive
    exact halive.elim
  | executing job executor_index execution_started =>
    exact .inr (.inr ⟨job, executor_index, execution_started, hpc⟩)
  | joinNotifying formation =>
    apply hnotifies
    intro woken t hnotify
    simp only [notifyErased, hpc, hnotify, Option.map_some, Option.isSome_some]
  | expiring formation delay_elapsed iterator ops =>
    cases ops with
    | nil => exact hmoves (by simp only [runWorker, hpc, Option.isSome_some])
    | cons op ops =>
      by_cases hop : op = .notifyOne
      · subst hop
        apply hnotifies
        intro woken t hnotify
        simp only [notifyErased, hpc, hnotify, Option.map_some, Option.isSome_some]
      · apply hmoves
        simp only [runWorker, hpc]
        exact hperforms hop
  | sweepExpiring now swept request rest ops =>
    rw [hpc] at hbrief
    cases ops with
    | nil => exact hmoves (by simp only [runWorker, hpc, Option.isSome_some])
    | cons op ops =>
      apply hmoves
      simp only [runWorker, hpc]
      exact hperforms (hbrief.silent op List.mem_cons_self)
  | finishing ops =>
    rw [hpc] at hbrief
    cases ops with
    | nil => exact hmoves (by simp only [runWorker, hpc, Option.isSome_some])
    | cons op ops =>
      apply hmoves
      simp only [runWorker, hpc]
      exact hperforms (hbrief.silent op List.mem_cons_self)
  | sweeping now swept rest =>
    apply hmoves
    cases rest with
    | nil => simp only [runWorker, hpc, Option.isSome_some]
    | cons request rest =>
      simp only [runWorker, hpc]
      split
      · exact Option.isSome_some
      · split <;> exact Option.isSome_some
  | collecting rest active_batch => exact hmoves (by cases rest <;> simp only [runWorker, hpc, Option.isSome_some])
  | locking formation delay_elapsed =>
    apply hmoves
    simp only [runWorker, hpc]
    split <;> exact Option.isSome_some
  | rescanning formation delay_elapsed iterator =>
    apply hmoves
    simp only [runWorker, hpc]
    split <;> exact Option.isSome_some
  | _ => exact hmoves (by simp only [runWorker, hpc, Option.isSome_some])

end Steps

end neuriplo.batch
