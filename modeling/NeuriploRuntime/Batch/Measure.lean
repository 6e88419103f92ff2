import NeuriploRuntime.Batch.Rank

open neuriplo.scheduler neuriplo.tensor transition

namespace neuriplo.batch

variable {setup : Setup}

section Steps

variable {s s' : State setup} {worker : Fin setup.config.instances}

/-- A worker's step that pays for what it queues lowers the rank. -/
theorem State.rank_lt_of_worker {pc' : WorkerPc} (hworkers : s'.workers = Function.update s.workers worker pc')
    (hpays : (s'.workers worker).rank + 30 * s'.queue_.length < (s.workers worker).rank + 30 * s.queue_.length) :
    s'.rank < s.rank := by
  have hranks : (fun other => (s'.workers other).rank) =
      Function.update (fun other => (s.workers other).rank) worker pc'.rank := by
    have hcomp := Function.comp_update WorkerPc.rank s.workers worker pc'
    rw [← hworkers] at hcomp
    exact hcomp
  have htally := tally_update (fun other => (s.workers other).rank) worker pc'.rank
  rw [hworkers, Function.update_self] at hpays
  unfold State.rank
  rw [hranks]
  omega

/-- A step that leaves the workers alone does not raise the rank. -/
theorem State.Leaves.rank (hleaves : s.Leaves s') (hqueue : s'.queue_.length ≤ s.queue_.length) :
    s'.rank ≤ s.rank := by
  have htally : (tally fun worker => (s'.workers worker).rank) ≤ tally fun worker => (s.workers worker).rank := by
    apply tally_mono
    intro worker
    obtain hsame | hwoken := hleaves.workers worker
    · rw [hsame]
    · rw [hwoken]
      exact rank_wakeWorker _
  unfold State.rank
  omega

/-- The steps of the workers, and of the executors they are in. -/
def Event.isWorkers : Event setup → Bool
  | .worker _ => true
  | .notifyErased _ _ => true
  | .wake _ => true
  | .infer _ _ => true
  | _ => false

/-- A quiet step lowers the rank. -/
theorem State.rank_lt_of_quiet {pc' : WorkerPc} (hquiet : (s.workers worker).Quiet pc')
    (hlooks : (s.workers worker).looks = false) : (s.setWorker worker pc').rank < s.rank := by
  have hworkers : (s.setWorker worker pc').workers = Function.update s.workers worker pc' := rfl
  apply State.rank_lt_of_worker hworkers
  rw [setWorker_self]
  exact Nat.add_lt_add_right (hquiet.rank hlooks) _

/-- A notification about erased requests lowers the rank. -/
theorem State.notifyErased_rank {woken : Option (Fin setup.config.instances)}
    (hstep : s.notifyErased worker woken = some s') : s'.rank < s.rank := by
  have hnotified {t : State setup} {pc pc' : WorkerPc} (hpc : s.workers worker = pc) (hawake : pc.isWaiting = false)
      (hquiet : pc.Quiet pc') (hlooks : pc.looks = false) (hnotify : s.notifyOne woken = some t) :
      (t.setWorker worker pc').rank < s.rank := by
    have hsame := (State.notifyOne_workers hnotify (hpc ▸ hawake)).1.trans hpc
    have hqueue : t.queue_ = s.queue_ := by rw [State.notifyOne_eq hnotify]
    refine (State.rank_lt_of_quiet (hsame ▸ hquiet) (hsame ▸ hlooks)).trans_le ?_
    exact (State.notifyOne_leaves hnotify).rank (Nat.le_of_eq (congrArg List.length hqueue))
  unfold notifyErased at hstep
  split at hstep
  · next hpc =>
    obtain ⟨t, hnotify, rfl⟩ := Option.map_eq_some_iff.mp hstep
    exact hnotified hpc rfl (.expiredNotified ..) rfl hnotify
  · next hpc =>
    obtain ⟨t, hnotify, rfl⟩ := Option.map_eq_some_iff.mp hstep
    exact hnotified hpc rfl (.joinNotified ..) rfl hnotify
  · cases hstep

/-- The return of an executor lowers the rank. -/
theorem State.infer_rank {outcome : Except (Option String) ExecutionResponse}
    (hstep : s.infer worker outcome = some s') : s'.rank < s.rank := by
  unfold infer at hstep
  split at hstep <;> cases hstep
  rename_i hpc
  apply State.rank_lt_of_quiet
  · rw [hpc]
    exact .inferred ..
  · rw [hpc]
    rfl

/-- A worker that wakes up lowers the rank. -/
theorem State.wake_rank (hwaiting : (s.workers worker).isWaiting = true) :
    (s.setWorker worker (State.wakeWorker (s.workers worker))).rank < s.rank := by
  cases hpc : s.workers worker with
  | popWaiting =>
    apply State.rank_lt_of_quiet
    · rw [hpc]
      exact .popWoken
    · rw [hpc]
      rfl
  | formWaiting formation wait_deadline =>
    apply State.rank_lt_of_quiet
    · rw [hpc]
      exact .formWoken ..
    · rw [hpc]
      rfl
  | _ =>
    rw [hpc] at hwaiting
    cases hwaiting

/-- A draining model takes no request any more. -/
theorem State.runSubmit_queue (hdraining : s.draining_ = true) {request : Nat}
    (hstep : s.runSubmit request = some s') : s'.queue_ = s.queue_ := by
  unfold runSubmit at hstep
  split at hstep
  case h_3 =>
    cases hstep
    rw [enqueue, if_pos hdraining]
    rfl
  case h_4 =>
    split at hstep
    · cases hstep
      rfl
    · split at hstep <;> cases hstep
      rfl
  all_goals
    cases hstep
    try rfl

theorem State.runDrain_queue {thread : Nat} (hstep : s.runDrain thread = some s') :
    s'.queue_.length ≤ s.queue_.length := by
  unfold runDrain at hstep
  split at hstep
  case h_2 =>
    split at hstep <;> cases hstep
    exact le_refl _
  case h_3 =>
    cases hstep
    exact Nat.zero_le _
  case h_5 =>
    split at hstep <;> cases hstep <;> exact le_refl _
  all_goals
    cases hstep
    try exact le_refl _

/-- While the model drains the workers have less to do with each of their steps, and nobody gives them more. -/
theorem State.Sound.step_rank (hsound : s.Sound) (hdraining : s.draining_ = true) {event : Event setup}
    (hfresh : scansFresh s event = true) (hstep : s.step event = some s') :
    (if event.isWorkers then 1 else 0) + s'.rank ≤ s.rank := by
  have hown (hless : s'.rank < s.rank) : 1 + s'.rank ≤ s.rank := by omega
  have hothers (hnot : event.isWorkers = false) (hactor : event.actor = none)
      (hqueue : s'.queue_.length ≤ s.queue_.length) : (if event.isWorkers then 1 else 0) + s'.rank ≤ s.rank := by
    rw [hnot, if_neg Bool.false_ne_true, Nat.zero_add]
    exact (State.step_leaves hstep hactor).rank hqueue
  cases event with
  | worker worker =>
    obtain ⟨pc', hworkers⟩ := ((State.runWorker_works hstep).frame (hsound.workers worker)).workers
    apply hown
    exact State.rank_lt_of_worker hworkers (State.runWorker_rank hdraining hfresh hstep)
  | notifyErased worker woken => exact hown (State.notifyErased_rank hstep)
  | infer worker outcome => exact hown (State.infer_rank hstep)
  | wake worker =>
    apply hown
    simp only [State.step] at hstep
    split at hstep <;> cases hstep
    exact State.wake_rank ‹_›
  | undefined worker formation queue_ =>
    rw [hsound.step_undefined] at hstep
    cases hstep
  | submitter request => exact hothers rfl rfl (Nat.le_of_eq (congrArg _ (State.runSubmit_queue hdraining hstep)))
  | drain thread => exact hothers rfl rfl (State.runDrain_queue hstep)
  | tick | cancel =>
    apply hothers rfl rfl
    cases hstep
    exact le_refl _
  | submit | stopAccepting | beginDrain =>
    apply hothers rfl rfl
    simp only [State.step] at hstep
    split at hstep <;> cases hstep
    exact le_refl _
  | notifySubmitted request woken =>
    apply hothers rfl rfl
    simp only [State.step, State.notifySubmitted] at hstep
    split at hstep
    · obtain ⟨t, hnotify, rfl⟩ := Option.map_eq_some_iff.mp hstep
      rw [State.notifyOne_eq hnotify]
      exact le_refl _
    · cases hstep

end Steps

end neuriplo.batch
