import NeuriploRuntime.Batch.Attention
import NeuriploRuntime.Batch.Scanning

open neuriplo.scheduler neuriplo.tensor transition

namespace neuriplo.batch

variable {setup : Setup} {s s' : State setup} {log : List (Glance setup)} {worker : Fin setup.config.instances}

/-- The worker's next step brings it past the queue without a request: its batch is
complete, or there is none for it in the queue. -/
def overlooks (s : State setup) (worker : Fin setup.config.instances) : Bool :=
  match s.workers worker with
  | .deciding formation => (s.decide formation).isFormed
  | .locking formation _ => !(s.scan formation [] false s.queue_).made_progress
  | _ => false

/-- A worker that was woken up inside `formBatch` does not pass over the queue
while requests are queued and a worker is parked in `popNextPending`. -/
def attends (s : State setup) (log : List (Glance setup)) : Event setup → Bool
  | .worker worker =>
    !(owes log worker && overlooks s worker && !s.draining_ && !s.queue_.isEmpty &&
      (List.finRange setup.config.instances).any fun other => (s.workers other).isParked)
  | _ => true

/-- A scan leaves no more than it finds, and less if it makes progress. -/
theorem State.scan_length (s : State setup) (formation : Formation) (passed rest : List Nat) (made_progress : Bool) :
    (s.scan formation passed made_progress rest).queue_.length ≤ passed.length + rest.length ∧
      (made_progress = false → (s.scan formation passed made_progress rest).made_progress = true →
        (s.scan formation passed made_progress rest).queue_.length < passed.length + rest.length) := by
  induction rest generalizing passed made_progress with
  | nil =>
    refine ⟨le_refl _, ?_⟩
    rintro rfl hprogress
    cases hprogress
  | cons next rest ih =>
    rw [State.scan]
    split_ifs
    · obtain ⟨hle, -⟩ := ih passed true
      rw [List.length_cons]
      exact ⟨by omega, fun _ _ => by omega⟩
    · simp only [List.length_append, List.length_cons]
      exact ⟨by omega, fun _ _ => by omega⟩
    · obtain ⟨hle, hlt⟩ := ih (passed ++ [next]) made_progress
      simp only [List.length_append, List.length_cons, List.length_nil] at hle hlt ⊢
      refine ⟨by omega, fun hnone hprogress => ?_⟩
      have hless := hlt hnone hprogress
      omega
    · obtain ⟨hle, hlt⟩ := ih (passed ++ [next]) made_progress
      simp only [List.length_append, List.length_cons, List.length_nil] at hle hlt ⊢
      refine ⟨by omega, fun hnone hprogress => ?_⟩
      have hless := hlt hnone hprogress
      omega
    · simp only [List.length_append, List.length_cons]
      exact ⟨by omega, fun _ _ => by omega⟩

/-- A notification of `submit` that wakes a worker up makes it look at the queue,
wherever it waited. -/
theorem State.Attended.notifySubmitted (hattended : s.Attended log) (howing : s.Owing log) {request : Nat}
    {woken : Option (Fin setup.config.instances)} (hstep : s.notifySubmitted request woken = some s') :
    s'.Attended ((glance s (.notifySubmitted request woken)).toList ++ log) := by
  unfold State.notifySubmitted at hstep
  split at hstep
  case h_2 => cases hstep
  case h_1 hnotifying =>
  obtain ⟨t, hnotify, rfl⟩ := Option.map_eq_some_iff.mp hstep
  cases woken with
  | none =>
    obtain ⟨hawake, hsame⟩ := State.notifyOne_none hnotify
    intro _ parked hpc
    have hworker := hawake parked
    rw [← hsame, show t.workers parked = .popWaiting from hpc] at hworker
    cases hworker
  | some woken =>
    obtain ⟨hwaiting, rfl⟩ := State.notifyOne_some hnotify
    -- Asleep, the worker counted for nobody; awake, it counts for one.
    have hbefore : s.looks log woken = false := by
      rw [State.looks, Bool.or_eq_false_iff, ← Bool.not_eq_true (owes log woken)]
      obtain hpc | ⟨formation, wait_deadline, hpc⟩ := WorkerPc.eq_waiting hwaiting
      · exact ⟨by rw [hpc]; rfl, fun howes => by simpa [hpc, WorkerPc.isAttending] using howing woken howes⟩
      · exact ⟨by rw [hpc]; rfl, fun howes => by simpa [hpc, WorkerPc.isAttending] using howing woken howes⟩
    have hafter : ((s.setWorker woken (State.wakeWorker (s.workers woken))).setSubmit request .waiting).looks
        ((glance s (.notifySubmitted request (some woken))).toList ++ log) woken = true := by
      rw [State.looks, Bool.or_eq_true_iff]
      obtain hpc | ⟨formation, wait_deadline, hpc⟩ := WorkerPc.eq_waiting hwaiting
      · left
        change ((s.setWorker woken _).workers woken).isPopping = true
        rw [State.setWorker_self, hpc]
        rfl
      · right
        simp only [glance, hpc]
        exact owes_woken log woken
    have hlookers := @State.lookers_update setup s
      ((s.setWorker woken (State.wakeWorker (s.workers woken))).setSubmit request .waiting) log
      ((glance s (.notifySubmitted request (some woken))).toList ++ log) woken ?_
    · rw [hbefore, hafter, Bool.toNat_false, Bool.toNat_true] at hlookers
      intro hopen parked hpc
      have hparked : s.workers parked = .popWaiting := by
        by_cases hsame : parked = woken
        · subst hsame
          exact absurd ((State.setWorker_self ..).symm.trans hpc) (wakeWorker_ne_popWaiting _)
        · exact (State.setWorker_of_ne s hsame _).symm.trans hpc
      obtain ⟨notifications, hnodup, hmem, hlength⟩ := hattended hopen parked hparked
      refine ⟨notifications.erase request, hnodup.erase request, ?_, ?_⟩
      · intro other hother
        have hne : other ≠ request := (hnodup.mem_erase_iff.mp hother).1
        change Function.update s.submits request _ other = _
        rw [Function.update_of_ne hne]
        exact hmem other (List.mem_of_mem_erase hother)
      · have hshort : notifications.length ≤ (notifications.erase request).length + 1 := by
          rw [List.length_erase]
          split <;> omega
        change s.queue_.length ≤ _
        omega
    · intro other hother
      have hpc : ((s.setWorker woken (State.wakeWorker (s.workers woken))).setSubmit request .waiting).workers other =
          s.workers other := State.setWorker_of_ne s hother _
      rw [State.looks, State.looks, hpc, glance]
      split
      · rw [Option.toList_some, List.singleton_append, @owes_of_ne _ (.woken woken) other hother.symm]
      · rfl

/-- A step of `submit` leaves the queue attended to. -/
theorem State.Attended.runSubmit (hattended : s.Attended log) {request : Nat} (hstep : s.runSubmit request = some s') :
    s'.Attended log := by
  have hmove {pc : SubmitPc} (hpc : s.submits request = pc) (hquiet : pc ≠ .notifying) {t : State setup}
      {pc' : SubmitPc} (hworkers : t.workers = s.workers) (hqueue : t.queue_ = s.queue_)
      (hdraining : t.draining_ = s.draining_) (hinflight : t.inflight_ = s.inflight_)
      (hsubmits : t.submits = Function.update s.submits request pc') : t.Attended log := by
    refine hattended.leaves (.of_same hworkers hinflight) (fun hwas => hdraining.trans hwas) (by rw [hqueue]) ?_
    intro other hnotifying
    rw [hsubmits, Function.update_of_ne]
    · exact hnotifying
    · rintro rfl
      exact hquiet (hpc.symm.trans hnotifying)
  unfold State.runSubmit at hstep
  split at hstep
  case h_1 hpc =>
    cases hstep
    exact hmove hpc nofun rfl rfl rfl rfl rfl
  case h_2 hpc =>
    cases hstep
    exact hmove hpc nofun rfl rfl rfl rfl rfl
  case h_3 call enqueued_at deadline hpc =>
    cases hstep
    unfold State.enqueue
    split
    · exact hmove hpc nofun rfl rfl rfl rfl rfl
    · split
      · exact hmove hpc nofun rfl rfl rfl rfl rfl
      · refine hattended.enqueued ?_ rfl rfl rfl ?_
        · rw [hpc]
          exact nofun
        · exact List.length_append
  case h_4 hpc =>
    split at hstep
    · cases hstep
      exact hmove hpc nofun rfl rfl rfl rfl rfl
    · split at hstep <;> cases hstep
      exact hmove hpc nofun rfl rfl rfl rfl rfl
  case h_9 => cases hstep
  all_goals
    rename_i hpc
    cases hstep
    exact hmove hpc nofun rfl rfl rfl rfl rfl

theorem WorkerPc.Quiet.ne_popWaiting {pc pc' : WorkerPc} (hquiet : pc.Quiet pc') (hpc : pc ≠ .popping) :
    pc' ≠ .popWaiting := by
  cases hquiet
  case waiting => exact absurd rfl hpc
  all_goals exact nofun

theorem WorkerPc.Performs.next_ne_popWaiting {pc : WorkerPc} {next : List WorkerOp → WorkerPc} {ops : List WorkerOp}
    (hperforms : pc.Performs next ops) (ops' : List WorkerOp) : next ops' ≠ .popWaiting := by
  cases hperforms <;> exact nofun

/-- The step of a worker that is not idle: it does not park, and takes requests out
of the queue only. -/
theorem State.Works.takes (hworks : s.Works worker s') (hpc : s.workers worker ≠ .popping) :
    ∃ pc', s'.workers = Function.update s.workers worker pc' ∧ pc' ≠ .popWaiting ∧ s'.draining_ = s.draining_ ∧
      s'.submits = s.submits ∧ s'.queue_.length ≤ s.queue_.length := by
  cases hworks with
  | quiet pc' hquiet => exact ⟨pc', rfl, hquiet.ne_popWaiting hpc, rfl, rfl, le_refl _⟩
  | popped first queue_ hpopping => exact absurd hpopping hpc
  | exited hpopping => exact absurd hpopping hpc
  | scanned formation delay_elapsed position made_progress =>
    refine ⟨_, rfl, ?_, rfl, rfl, ?_⟩
    · split
      · split
        · exact nofun
        · split <;> exact nofun
      · exact nofun
      · exact nofun
    · obtain ⟨hle, -⟩ := s.scan_length formation (s.queue_.take position) (s.queue_.drop position) made_progress
      rw [← List.length_append, List.take_append_drop] at hle
      exact hle
  | performed next op ops hperforms hperform =>
    cases State.perform_performed hperform with
    | kept => exact ⟨_, rfl, hperforms.next_ne_popWaiting _, rfl, rfl, le_refl _⟩
    | dropped => exact ⟨_, rfl, hperforms.next_ne_popWaiting _, rfl, rfl, le_refl _⟩
    | set => exact ⟨_, rfl, hperforms.next_ne_popWaiting _, rfl, rfl, le_refl _⟩
    | terminated => exact ⟨_, rfl, nofun, rfl, rfl, le_refl _⟩
  | _ => exact ⟨_, rfl, nofun, rfl, rfl, le_refl _⟩

/-- A worker parks only after it has seen the queue empty. -/
theorem State.Attended.popNextPending (hattended : s.Attended log) (hpc : s.workers worker = .popping) :
    (s.popNextPending worker).Attended log := by
  unfold State.popNextPending
  split
  · rename_i first queue_ hqueue
    have hlookers := @State.lookers_update setup s
      ({ s with queue_, generation := s.generation + 1 }.setWorker worker (.forming first)) log log worker ?_
    · refine hattended.move id (fun _ hnotifying => hnotifying) ?_ ?_
      · intro other hparked
        by_cases hother : other = worker
        · subst hother
          cases (State.setWorker_self ..).symm.trans hparked
        · exact (State.setWorker_of_ne _ hother _).symm.trans hparked
      · have hone := Bool.toNat_le (s.looks log worker)
        rw [hqueue, List.length_cons]
        change queue_.length + _ ≤ _
        omega
    · intro other hother
      rw [State.looks, State.setWorker_of_ne _ hother]
      rfl
  · rename_i hqueue
    exact .of_empty hqueue

/-- A worker that comes past the queue while others are parked takes a request out
of it. -/
theorem State.shrinks_of_attends (hattends : attends s log (.worker worker) = true)
    (hstep : s.runWorker worker = some s') (hpassed : glance s (.worker worker) ≠ none) (howes : owes log worker = true)
    (hopen : s.draining_ = false) (hqueue : s.queue_ ≠ []) {parked : Fin setup.config.instances}
    (hparked : s.workers parked = .popWaiting) : s'.queue_.length < s.queue_.length := by
  have hkept : overlooks s worker = false := by
    have hany : ((List.finRange setup.config.instances).any fun other => (s.workers other).isParked) = true := by
      refine List.any_eq_true.mpr ⟨parked, List.mem_finRange parked, ?_⟩
      rw [hparked]
      rfl
    have hsome : s.queue_.isEmpty = false := List.isEmpty_eq_false_iff.mpr hqueue
    simpa [attends, howes, hopen, hany, hsome] using hattends
  unfold State.runWorker at hstep
  unfold overlooks at hkept
  simp only [glance] at hpassed
  split at hpassed
  · rename_i formation hpc
    simp only [hpc] at hkept
    rw [hkept] at hpassed
    exact absurd rfl hpassed
  · rename_i formation delay_elapsed hpc
    simp only [hpc, Bool.not_eq_false'] at hkept hstep
    rw [hopen, if_neg Bool.false_ne_true] at hstep
    cases hstep
    have hlt := (s.scan_length formation [] s.queue_ false).2 rfl hkept
    rw [List.length_nil, Nat.zero_add] at hlt
    exact hlt
  · exact absurd rfl hpassed

/-- A worker's step that meets the condition leaves the queue attended to. -/
theorem State.Attended.runWorker (hattended : s.Attended log) (hattends : attends s log (.worker worker) = true)
    (hstep : s.runWorker worker = some s') : s'.Attended ((glance s (.worker worker)).toList ++ log) := by
  by_cases hpc : s.workers worker = .popping
  · rw [show glance s (.worker worker) = none by simp [glance, hpc]]
    unfold State.runWorker at hstep
    rw [hpc] at hstep
    cases hstep
    exact hattended.popNextPending hpc
  · obtain ⟨pc', hworkers, hunparked, hdraining, hsubmits, hle⟩ := (State.runWorker_works hstep).takes hpc
    have hself : s'.workers worker = pc' := by
      rw [hworkers, Function.update_self]
    have hsame {other : Fin setup.config.instances} (hother : other ≠ worker) : s'.workers other = s.workers other := by
      rw [hworkers, Function.update_of_ne hother]
    have hparked {other : Fin setup.config.instances} (hwaits : s'.workers other = .popWaiting) :
        s.workers other = .popWaiting := by
      by_cases hother : other = worker
      · subst hother
        exact absurd (hself.symm.trans hwaits) hunparked
      · exact (hsame hother).symm.trans hwaits
    have hidle : (s.workers worker).isPopping = false := by
      rw [← Bool.not_eq_true]
      intro hpopping
      exact hpc (WorkerPc.eq_popping hpopping)
    have hothers (other : Fin setup.config.instances) (hother : other ≠ worker) :
        s'.looks ((glance s (.worker worker)).toList ++ log) other = s.looks log other := by
      rw [State.looks, State.looks, hsame hother]
      cases hglance : glance s (.worker worker) with
      | none => rfl
      | some note =>
        obtain rfl := glance_worker hglance
        rw [Option.toList_some, List.singleton_append, @owes_of_ne _ (.passed worker) other hother.symm]
    have hlookers := State.lookers_update hothers
    have hmove (hcount : s'.queue_.length + (s.looks log worker).toNat ≤ s.queue_.length +
        (s'.looks ((glance s (.worker worker)).toList ++ log) worker).toNat) :
        s'.Attended ((glance s (.worker worker)).toList ++ log) := by
      refine hattended.move (fun hwas => hdraining.trans hwas) ?_ (fun other => hparked) (by omega)
      intro request hnotifying
      rw [hsubmits, hnotifying]
    by_cases howes : owes log worker = true
    · cases hglance : glance s (.worker worker) with
      | none =>
        rw [hglance] at hmove
        apply hmove
        rw [State.looks, State.looks, hidle, Option.toList_none, List.nil_append, howes, Bool.or_true, Bool.or_true]
        omega
      | some note =>
        -- The worker has come past the queue, and it must have taken a request.
        rw [← hglance]
        intro hopen parked hwaits
        rw [hdraining] at hopen
        by_cases hqueue : s.queue_ = []
        · have hempty : s'.queue_ = [] := by
            rw [hqueue, List.length_nil, Nat.le_zero] at hle
            exact List.length_eq_zero_iff.mp hle
          exact (State.Attended.of_empty hempty) (hdraining.trans hopen) parked hwaits
        · have hnote : glance s (.worker worker) ≠ none := by
            rw [hglance]
            exact Option.some_ne_none _
          have hlt := State.shrinks_of_attends hattends hstep hnote howes hopen hqueue (hparked hwaits)
          have hone := Bool.toNat_le (s.looks log worker)
          exact hmove (by omega) (hdraining.trans hopen) parked hwaits
    · apply hmove
      rw [Bool.not_eq_true] at howes
      rw [State.looks, hidle, howes]
      exact Nat.le_trans hle (Nat.le_add_right _ _)

/-- A step of a drain leaves the queue attended to. -/
theorem State.Attended.runDrain (hattended : s.Attended log) {thread : Nat} (hstep : s.runDrain thread = some s') :
    s'.Attended log := by
  have hleaves {t : State setup} (hleaves : s.Leaves t) (hdraining : t.draining_ = s.draining_)
      (hqueue : t.queue_.length ≤ s.queue_.length) (hsubmits : t.submits = s.submits) : t.Attended log := by
    refine hattended.leaves hleaves (fun hwas => hdraining.trans hwas) hqueue ?_
    intro request hnotifying
    rw [hsubmits, hnotifying]
  unfold State.runDrain at hstep
  split at hstep
  case h_1 =>
    cases hstep
    exact hleaves ⟨fun _ => .inr rfl, rfl⟩ rfl (le_refl _) rfl
  case h_2 =>
    split at hstep <;> cases hstep
    exact hleaves (.of_same rfl rfl) rfl (le_refl _) rfl
  case h_3 =>
    cases hstep
    exact hleaves (.of_same rfl rfl) rfl (Nat.zero_le _) rfl
  case h_4 =>
    cases hstep
    exact hleaves (.of_same rfl rfl) rfl (le_refl _) rfl
  case h_5 =>
    split at hstep <;> cases hstep
    · exact hleaves (.of_same rfl rfl) rfl (le_refl _) rfl
    · exact hleaves (.of_same rfl rfl) rfl (le_refl _) rfl
  case h_6 => cases hstep

/-- A step that moves no worker leaves the queue attended to. -/
theorem State.Attended.same (hattended : s.Attended log) (hworkers : s'.workers = s.workers)
    (hinflight : s'.inflight_ = s.inflight_) (hdraining : s.draining_ = true → s'.draining_ = true)
    (hqueue : s'.queue_ = s.queue_) (hsubmits : s'.submits = s.submits) : s'.Attended log := by
  refine hattended.leaves (.of_same hworkers hinflight) hdraining (by rw [hqueue]) ?_
  intro request hnotifying
  rw [hsubmits, hnotifying]

/-- A worker that goes on without the queue leaves it attended to. -/
theorem State.Attended.quiet (hattended : s.Attended log) {pc' : WorkerPc} (hpc : s.workers worker ≠ .popping)
    (hquiet : (s.workers worker).Quiet pc') : (s.setWorker worker pc').Attended log := by
  have hidle : (s.workers worker).isPopping = false := by
    rw [← Bool.not_eq_true]
    intro hpopping
    exact hpc (WorkerPc.eq_popping hpopping)
  have hlookers : s.lookers log ≤ (s.setWorker worker pc').lookers log := by
    apply State.lookers_le
    intro other hlooks
    by_cases hother : other = worker
    · subst hother
      rw [State.looks, hidle, Bool.false_or] at hlooks
      rw [State.looks, hlooks, Bool.or_true]
    · rw [State.looks, State.setWorker_of_ne _ hother]
      exact hlooks
  refine hattended.move id (fun _ hnotifying => hnotifying) ?_ (Nat.add_le_add_left hlookers _)
  intro other hwaits
  by_cases hother : other = worker
  · subst hother
    exact absurd ((State.setWorker_self ..).symm.trans hwaits) (hquiet.ne_popWaiting hpc)
  · exact (State.setWorker_of_ne _ hother _).symm.trans hwaits

/-- Every step that meets the condition leaves the queue attended to. -/
theorem State.Attended.step (hattended : s.Attended log) (howing : s.Owing log) (hsound : s.Sound)
    {event : Event setup} (hattends : attends s log event = true) (hstep : s.step event = some s') :
    s'.Attended ((glance s event).toList ++ log) := by
  cases event with
  | tick elapsed =>
    cases hstep
    exact hattended.same rfl rfl id rfl rfl
  | cancel request =>
    cases hstep
    exact hattended.same rfl rfl id rfl rfl
  | submit request call =>
    simp only [State.step] at hstep
    split at hstep <;> cases hstep
    rename_i hpc
    refine hattended.leaves (.of_same rfl rfl) id (le_refl _) ?_
    intro other hnotifying
    refine (Function.update_of_ne ?_ ..).trans hnotifying
    rintro rfl
    rw [hpc] at hnotifying
    cases hnotifying
  | submitter request => exact hattended.runSubmit hstep
  | notifySubmitted request woken => exact hattended.notifySubmitted howing hstep
  | worker worker => exact hattended.runWorker hattends hstep
  | notifyErased worker woken =>
    obtain ⟨t, pc', hnotify, hmoves, rfl⟩ := State.notifyErased_quiet hstep
    have hawake {pc : WorkerPc} (hpc : s.workers worker = pc) (hwaiting : pc.isWaiting = false)
        (hpopping : pc ≠ .popping) : t.workers worker ≠ .popping := by
      rw [(State.notifyOne_workers hnotify (by rw [hpc]; exact hwaiting)).1, hpc]
      exact hpopping
    refine (hattended.notifyOne hnotify).quiet ?_ hmoves
    simp only [State.step, State.notifyErased] at hstep
    split at hstep
    · rename_i hpc
      exact hawake hpc rfl (by rintro ⟨⟩)
    · rename_i hpc
      exact hawake hpc rfl (by rintro ⟨⟩)
    · cases hstep
  | wake worker =>
    simp only [State.step] at hstep
    split at hstep <;> cases hstep
    exact hattended.leaves (s.setWorker_leaves worker) id (le_refl _) fun _ hnotifying => hnotifying
  | infer worker outcome =>
    obtain ⟨pc', hmoves, rfl⟩ := State.infer_quiet hstep
    refine hattended.quiet ?_ hmoves
    intro hpc
    simp only [State.step, State.infer, hpc] at hstep
    cases hstep
  | undefined worker formation queue_ =>
    rw [hsound.step_undefined] at hstep
    cases hstep
  | stopAccepting thread =>
    simp only [State.step] at hstep
    split at hstep <;> cases hstep
    exact hattended.same rfl rfl (fun _ => rfl) rfl rfl
  | beginDrain thread =>
    simp only [State.step] at hstep
    split at hstep <;> cases hstep
    exact hattended.same rfl rfl (fun _ => rfl) rfl rfl
  | drain thread => exact hattended.runDrain hstep

end neuriplo.batch
