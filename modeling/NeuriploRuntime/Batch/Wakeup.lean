import NeuriploRuntime.Batch.Attendance

open neuriplo.scheduler neuriplo.tensor transition

namespace neuriplo.batch

variable {setup : Setup} {s s' : State setup} {log : List (Glance setup)} {worker : Fin setup.config.instances}

/-- A worker on its way to the queue is left there when others are woken up. -/
theorem wakeWorker_attending {pc : WorkerPc} (hattending : pc.isAttending = true) : State.wakeWorker pc = pc := by
  obtain ⟨formation, rfl⟩ | ⟨formation, delay_elapsed, rfl⟩ := WorkerPc.eq_attending hattending
  · rfl
  · rfl

/-- The next step of a worker that decides whether its batch is complete. -/
theorem State.decide_cases (s : State setup) (formation : Formation) :
    (s.decide formation).isFormed = true ∨ ∃ delay_elapsed, s.decide formation = .locking formation delay_elapsed := by
  unfold State.decide
  dsimp only
  split_ifs
  · exact .inl rfl
  · exact .inl rfl
  · exact .inr ⟨_, rfl⟩

/-- A worker on its way to the queue comes past it, or gets to lock it. -/
theorem State.runWorker_attending (hattending : (s.workers worker).isAttending = true)
    (hstep : s.runWorker worker = some s') : glance s (.worker worker) = some (.passed worker) ∨
      ∃ formation delay_elapsed, s'.workers worker = .locking formation delay_elapsed := by
  obtain ⟨formation, hpc⟩ | ⟨formation, delay_elapsed, hpc⟩ := WorkerPc.eq_attending hattending
  · obtain hformed | ⟨delay_elapsed, hlocking⟩ := s.decide_cases formation
    · left
      simp only [glance, hpc, hformed, if_true]
    · right
      unfold State.runWorker at hstep
      rw [hpc] at hstep
      cases hstep
      exact ⟨formation, delay_elapsed, by rw [State.setWorker_self, hlocking]⟩
  · left
    simp only [glance, hpc]

/-- A worker that the notification of `submit` wakes up inside `formBatch` goes to
the queue. -/
theorem State.notifySubmitted_attending {request : Nat} (hform : (s.workers worker).isFormWaiting = true)
    (hstep : s.notifySubmitted request (some worker) = some s') : (s'.workers worker).isAttending = true := by
  unfold State.notifySubmitted at hstep
  split at hstep
  case h_2 => cases hstep
  obtain ⟨t, hnotify, rfl⟩ := Option.map_eq_some_iff.mp hstep
  obtain ⟨hwaiting, rfl⟩ := State.notifyOne_some hnotify
  change ((s.setWorker worker _).workers worker).isAttending = true
  rw [State.setWorker_self]
  obtain hpc | ⟨formation, wait_deadline, hpc⟩ := WorkerPc.eq_waiting hwaiting
  · rw [hpc] at hform
    cases hform
  · rw [hpc]
    rfl

/-- A worker's own step keeps it on its way to the queue, until it comes past it. -/
theorem State.Owing.own (howing : s.Owing log) (hsound : s.Sound) {event : Event setup}
    (hactor : event.actor = some worker) (hstep : s.step event = some s')
    (howes : owes ((glance s event).toList ++ log) worker = true) : (s'.workers worker).isAttending = true := by
  cases event with
  | worker acting =>
    obtain rfl : acting = worker := Option.some.inj hactor
    cases hglance : glance s (.worker acting) with
    | some note =>
      rw [hglance, glance_worker hglance, Option.toList_some, List.singleton_append, owes_passed] at howes
      cases howes
    | none =>
      rw [hglance] at howes
      obtain hpassed | ⟨formation, delay_elapsed, hlocking⟩ := State.runWorker_attending (howing acting howes) hstep
      · rw [hglance] at hpassed
        cases hpassed
      · rw [hlocking]
        rfl
  | notifyErased acting woken =>
    obtain rfl : acting = worker := Option.some.inj hactor
    have hattending := howing acting howes
    simp only [State.step, State.notifyErased] at hstep
    split at hstep
    · rename_i hpc
      rw [hpc] at hattending
      cases hattending
    · rename_i hpc
      rw [hpc] at hattending
      cases hattending
    · cases hstep
  | infer acting outcome =>
    obtain rfl : acting = worker := Option.some.inj hactor
    have hattending := howing acting howes
    simp only [State.step, State.infer] at hstep
    split at hstep <;> cases hstep
    rename_i hpc
    rw [hpc] at hattending
    cases hattending
  | undefined acting formation queue_ =>
    rw [hsound.step_undefined] at hstep
    cases hstep
  | _ => cases hactor

/-- Every step keeps the log in line with where the workers stand. -/
theorem State.Owing.step (howing : s.Owing log) (hsound : s.Sound) {event : Event setup}
    (hstep : s.step event = some s') : s'.Owing ((glance s event).toList ++ log) := by
  intro worker howes
  by_cases hactor : event.actor = some worker
  · exact howing.own hsound hactor hstep howes
  · have hkept (howes : owes log worker = true) : (s'.workers worker).isAttending = true := by
      have hattending := howing worker howes
      obtain hsame | hwoken := hsound.step_others hstep hactor
      · rw [hsame]
        exact hattending
      · rw [hwoken, wakeWorker_attending hattending]
        exact hattending
    cases event with
    | worker acting =>
      apply hkept
      cases hglance : glance s (.worker acting) with
      | none =>
        rw [hglance] at howes
        exact howes
      | some note =>
        have hne : acting ≠ worker := fun hsame => hactor (congrArg some hsame)
        rw [hglance, glance_worker hglance, Option.toList_some, List.singleton_append,
          @owes_of_ne _ (.passed acting) worker hne] at howes
        exact howes
    | notifySubmitted request woken =>
      cases woken with
      | none => exact hkept howes
      | some woken =>
        cases hform : (s.workers woken).isFormWaiting with
        | false =>
          rw [glance, hform] at howes
          exact hkept howes
        | true =>
          by_cases hsame : woken = worker
          · subst hsame
            exact State.notifySubmitted_attending hform hstep
          · apply hkept
            rw [glance, hform, if_pos rfl, Option.toList_some, List.singleton_append,
              @owes_of_ne _ (.woken woken) worker hsame] at howes
            exact howes
    | _ => exact hkept howes

/-- The scheduler whose workers use valid iterators only, and whose forming workers
do not pass over the queue that they were woken up for. -/
def attentive (setup : Setup) (start : Int) : System (State setup × List (Glance setup)) (Event setup) :=
  ((system setup start).logged glance).restrict fun s event => (scansFresh s.1 event && attends s.1 s.2 event) = true

/-- In every run whose steps meet the condition the queue is attended to. -/
theorem attended_reachable {start : Int} (hreach : (attentive setup start).Reachable (s, log)) :
    s.Attended log ∧ s.Owing log := by
  suffices ∀ logged, (attentive setup start).Reachable logged →
      logged.1.Sound ∧ logged.1.Attended logged.2 ∧ logged.1.Owing logged.2 from (this _ hreach).2
  intro logged hreach
  refine @System.Reachable.invariant _ _ (attentive setup start)
    (fun logged => logged.1.Sound ∧ logged.1.Attended logged.2 ∧ logged.1.Owing logged.2) ?_ ?_ logged hreach
  · rintro ⟨s, log⟩ ⟨hinit, hlog⟩
    cases hinit
    cases hlog
    exact ⟨sound_start setup start, .of_empty rfl, nofun⟩
  · rintro ⟨s, log⟩ event ⟨s', log'⟩ _ ⟨hsound, hattended, howing⟩ ⟨⟨hstep, hlog⟩, hmeets⟩
    obtain ⟨hfresh, hattends⟩ := Bool.and_eq_true_iff.mp hmeets
    cases hlog
    exact ⟨(hsound.step hfresh hstep).sound, hattended.step howing hsound hattends hstep, howing.step hsound hstep⟩

end neuriplo.batch
