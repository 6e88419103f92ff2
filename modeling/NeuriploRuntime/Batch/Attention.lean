import NeuriploRuntime.Batch.Moves
import NeuriploRuntime.Transition.Log
import NeuriploRuntime.Transition.Tally

open neuriplo.scheduler neuriplo.tensor transition

namespace neuriplo.batch

variable {setup : Setup}

/-- The worker is about to lock the queue in `popNextPending`. -/
def WorkerPc.isPopping : WorkerPc → Bool
  | .popping => true
  | _ => false

/-- The worker is parked in `popNextPending`. -/
def WorkerPc.isParked : WorkerPc → Bool
  | .popWaiting => true
  | _ => false

/-- The worker waits inside `formBatch`. -/
def WorkerPc.isFormWaiting : WorkerPc → Bool
  | .formWaiting _ _ => true
  | _ => false

/-- The worker is at the top of the loop in `formBatch`, or about to lock the
queue there. -/
def WorkerPc.isAttending : WorkerPc → Bool
  | .deciding _ => true
  | .locking _ _ => true
  | _ => false

/-- The worker has formed its batch. -/
def WorkerPc.isFormed : WorkerPc → Bool
  | .formed _ => true
  | _ => false

/-- What is noted of a worker inside `formBatch`: the notification of `submit`
woke it up, or it has come past the queue. -/
inductive Glance (setup : Setup) where
  | woken (worker : Fin setup.config.instances)
  | passed (worker : Fin setup.config.instances)

def Glance.worker : Glance setup → Fin setup.config.instances
  | .woken worker => worker
  | .passed worker => worker

/-- A worker comes past the queue when it locks it, or when its batch is complete
without. -/
def glance (s : State setup) : Event setup → Option (Glance setup)
  | .notifySubmitted _ (some woken) => if (s.workers woken).isFormWaiting then some (.woken woken) else none
  | .worker worker =>
    match s.workers worker with
    | .deciding formation => if (s.decide formation).isFormed then some (.passed worker) else none
    | .locking _ _ => some (.passed worker)
    | _ => none
  | _ => none

theorem glance_worker {s : State setup} {worker : Fin setup.config.instances} {note : Glance setup}
    (hglance : glance s (.worker worker) = some note) : note = .passed worker := by
  simp only [glance] at hglance
  split at hglance
  · split at hglance <;> cases hglance
    rfl
  · cases hglance
    rfl
  · cases hglance

/-- The worker was woken up inside `formBatch` and has not come past the queue
since. -/
def owes : List (Glance setup) → Fin setup.config.instances → Bool
  | [], _ => false
  | .woken woken :: log, worker => woken = worker || owes log worker
  | .passed passed :: log, worker => passed ≠ worker && owes log worker

/-- A worker that was woken owes the queue a look. -/
theorem owes_woken (log : List (Glance setup)) (worker : Fin setup.config.instances) :
    owes (.woken worker :: log) worker = true := by
  simp [owes]

/-- What other workers do does not change what a worker owes. -/
theorem owes_of_ne {note : Glance setup} {worker : Fin setup.config.instances} (hne : note.worker ≠ worker)
    (log : List (Glance setup)) : owes (note :: log) worker = owes log worker := by
  cases note with
  | woken woken => simp [owes, show woken ≠ worker from hne]
  | passed passed => simp [owes, show passed ≠ worker from hne]

/-- A worker that passed over the queue owes it nothing more. -/
theorem owes_passed (log : List (Glance setup)) (worker : Fin setup.config.instances) :
    owes (.passed worker :: log) worker = false := by
  simp [owes]

section Lookers

variable {s s' : State setup} {log log' : List (Glance setup)} {worker : Fin setup.config.instances}

/-- The worker is about to look at the queue: it is idle, or it was woken up for a
request in it. -/
def State.looks (s : State setup) (log : List (Glance setup)) (worker : Fin setup.config.instances) : Bool :=
  (s.workers worker).isPopping || owes log worker

/-- How many workers are about to look at the queue. -/
def State.lookers (s : State setup) (log : List (Glance setup)) : Nat := tally fun worker => (s.looks log worker).toNat

theorem WorkerPc.eq_popping {pc : WorkerPc} (hpopping : pc.isPopping = true) : pc = .popping := by
  cases pc
  case popping => rfl
  all_goals cases hpopping

theorem WorkerPc.eq_waiting {pc : WorkerPc} (hwaiting : pc.isWaiting = true) :
    pc = .popWaiting ∨ ∃ formation wait_deadline, pc = .formWaiting formation wait_deadline := by
  cases pc
  case popWaiting => exact .inl rfl
  case formWaiting formation wait_deadline => exact .inr ⟨formation, wait_deadline, rfl⟩
  all_goals cases hwaiting

theorem WorkerPc.eq_attending {pc : WorkerPc} (hattending : pc.isAttending = true) :
    (∃ formation, pc = .deciding formation) ∨ ∃ formation delay_elapsed, pc = .locking formation delay_elapsed := by
  cases pc
  case deciding formation => exact .inl ⟨formation, rfl⟩
  case locking formation delay_elapsed => exact .inr ⟨formation, delay_elapsed, rfl⟩
  all_goals cases hattending

/-- Nobody stops being about to look. -/
theorem State.lookers_le (hkept : ∀ worker, s.looks log worker = true → s'.looks log' worker = true) :
    s.lookers log ≤ s'.lookers log' := by
  apply tally_mono
  intro worker
  cases hlooks : s.looks log worker with
  | false => exact Nat.zero_le _
  | true =>
    rw [hkept worker hlooks]

/-- One worker begins or stops being about to look. -/
theorem State.lookers_update (hothers : ∀ other, other ≠ worker → s'.looks log' other = s.looks log other) :
    s'.lookers log' + (s.looks log worker).toNat = s.lookers log + (s'.looks log' worker).toNat := by
  have hupdate := tally_update (fun other => (s.looks log other).toNat) worker (s'.looks log' worker).toNat
  have hsame : (fun other => (s'.looks log' other).toNat) =
      Function.update (fun other => (s.looks log other).toNat) worker (s'.looks log' worker).toNat := by
    funext other
    by_cases hother : other = worker
    · rw [hother, Function.update_self]
    · rw [Function.update_of_ne hother, hothers other hother]
  rw [State.lookers, hsame]
  exact hupdate

/-- While somebody is parked, there is for every request in the queue a worker
about to look or a notification of `submit` still to come. -/
def State.Attended (s : State setup) (log : List (Glance setup)) : Prop :=
  s.draining_ = false → ∀ worker, s.workers worker = .popWaiting →
    ∃ notifications : List Nat, notifications.Nodup ∧
      (∀ request ∈ notifications, s.submits request = .notifying) ∧
      s.queue_.length ≤ s.lookers log + notifications.length

/-- Workers that were woken up for the queue are on their way to it. -/
def State.Owing (s : State setup) (log : List (Glance setup)) : Prop :=
  ∀ worker, owes log worker = true → (s.workers worker).isAttending = true

/-- An empty queue needs no attention. -/
theorem State.Attended.of_empty (hqueue : s.queue_ = []) : s.Attended log := by
  intro _ _ _
  refine ⟨[], List.nodup_nil, ?_, ?_⟩
  · intro request hmem
    cases hmem
  · simp [hqueue]

/-- Nobody parks, no notification is lost, and the queue grows no faster than
the number of those about to look. -/
theorem State.Attended.move (hattended : s.Attended log) (hdraining : s.draining_ = true → s'.draining_ = true)
    (hsubmits : ∀ request, s.submits request = .notifying → s'.submits request = .notifying)
    (hparked : ∀ worker, s'.workers worker = .popWaiting → s.workers worker = .popWaiting)
    (hcount : s'.queue_.length + s.lookers log ≤ s.queue_.length + s'.lookers log') : s'.Attended log' := by
  intro hopen worker hpc
  have hwasOpen : s.draining_ = false := by
    cases hwas : s.draining_ with
    | false => rfl
    | true =>
      rw [hdraining hwas] at hopen
      cases hopen
  obtain ⟨notifications, hnodup, hnotifying, hlength⟩ := hattended hwasOpen worker (hparked worker hpc)
  refine ⟨notifications, hnodup, ?_, by omega⟩
  intro request hmem
  exact hsubmits request (hnotifying request hmem)

/-- A notification wakes a worker that waits. -/
theorem State.notifyOne_some {woken : Fin setup.config.instances} (hnotify : s.notifyOne (some woken) = some s') :
    (s.workers woken).isWaiting = true ∧ s' = s.setWorker woken (State.wakeWorker (s.workers woken)) := by
  simp only [State.notifyOne] at hnotify
  split at hnotify <;> cases hnotify
  exact ⟨‹_›, rfl⟩

/-- A notification wakes nobody only when nobody waits. -/
theorem State.notifyOne_none (hnotify : s.notifyOne none = some s') :
    (∀ worker, (s.workers worker).isWaiting = false) ∧ s' = s := by
  simp only [State.notifyOne] at hnotify
  split at hnotify <;> cases hnotify
  rename_i hawake
  refine ⟨?_, rfl⟩
  intro worker
  have hworker := List.all_eq_true.mp hawake worker (List.mem_finRange worker)
  simpa using hworker

theorem wakeWorker_ne_popWaiting (pc : WorkerPc) : State.wakeWorker pc ≠ .popWaiting := by
  cases pc <;> exact nofun

/-- Waking workers up only adds to those about to look. -/
theorem State.Attended.leaves (hattended : s.Attended log) (hleaves : s.Leaves s')
    (hdraining : s.draining_ = true → s'.draining_ = true) (hqueue : s'.queue_.length ≤ s.queue_.length)
    (hsubmits : ∀ request, s.submits request = .notifying → s'.submits request = .notifying) : s'.Attended log := by
  have hlookers : s.lookers log ≤ s'.lookers log := by
    apply State.lookers_le
    intro worker hlooks
    cases Bool.or_eq_true_iff.mp hlooks with
    | inl hpopping =>
      refine Bool.or_eq_true_iff.mpr (.inl ?_)
      have hpc := WorkerPc.eq_popping hpopping
      obtain hsame | hwoken := hleaves.workers worker
      · rw [hsame, hpc]
        rfl
      · rw [hwoken, hpc]
        rfl
    | inr howes => exact Bool.or_eq_true_iff.mpr (.inr howes)
  refine hattended.move hdraining hsubmits ?_ (by omega)
  intro worker hpc
  obtain hsame | hwoken := hleaves.workers worker
  · exact hsame ▸ hpc
  · exact absurd (hwoken.symm.trans hpc) (wakeWorker_ne_popWaiting _)

/-- A notification leaves the queue attended to. -/
theorem State.Attended.notifyOne (hattended : s.Attended log) {woken : Option (Fin setup.config.instances)}
    (hnotify : s.notifyOne woken = some s') : s'.Attended log := by
  have hsame := State.notifyOne_eq hnotify
  refine hattended.leaves (State.notifyOne_leaves hnotify) ?_ (by rw [hsame]) ?_
  · intro hwas
    rw [hsame]
    exact hwas
  · intro request hnotifying
    rw [hsame]
    exact hnotifying

/-- A request comes with a notification of its own. -/
theorem State.Attended.enqueued (hattended : s.Attended log) {request : Nat}
    (hfresh : s.submits request ≠ .notifying) (hdraining : s'.draining_ = s.draining_)
    (hworkers : s'.workers = s.workers) (hsubmits : s'.submits = Function.update s.submits request .notifying)
    (hqueue : s'.queue_.length = s.queue_.length + 1) : s'.Attended log := by
  intro hopen worker hpc
  rw [hdraining] at hopen
  rw [hworkers] at hpc
  obtain ⟨notifications, hnodup, hnotifying, hlength⟩ := hattended hopen worker hpc
  have hnew : request ∉ notifications := fun hmem => hfresh (hnotifying request hmem)
  refine ⟨request :: notifications, List.nodup_cons.mpr ⟨hnew, hnodup⟩, ?_, ?_⟩
  · intro other hmem
    rw [hsubmits]
    obtain rfl | hearlier := List.mem_cons.mp hmem
    · exact Function.update_self ..
    · have hne : other ≠ request := by
        rintro rfl
        exact hnew hearlier
      rw [Function.update_of_ne hne]
      exact hnotifying other hearlier
  · have hlookers : s'.lookers log = s.lookers log := by
      unfold State.lookers State.looks
      rw [hworkers]
    rw [hqueue, hlookers, List.length_cons]
    omega

end Lookers

end neuriplo.batch
