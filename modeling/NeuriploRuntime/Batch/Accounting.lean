import NeuriploRuntime.Batch.WorkerAccounts

open neuriplo.scheduler neuriplo.tensor transition

namespace neuriplo.batch

variable {setup : Setup}

section Steps

variable {s s' : State setup} {log log' : List Entry} {worker : Fin setup.config.instances}

/-- A worker counts a request only while its submitter waits, and a submitter
gives up only while no worker has counted its request and not yet answered. -/
def countsAwaited (s : State setup) : Event setup → Bool
  | .worker worker =>
    match countedBy (s.workers worker).ops with
    | some entry => (s.submits entry.request).isAwaiting
    | none => true
  | .submitter request =>
    match s.submits request with
    | .waiting => (s.pending request).promise.isSome ||
        (List.finRange setup.config.instances).all fun worker => settling (s.workers worker).ops ≠ some request
    | _ => true
  | _ => true

/-- A step of `submit` keeps the accounts, with what it counts. -/
theorem State.Accounts.runSubmit (haccounts : s.Accounts log) (hsound : s.Sound) {request : Nat}
    (hcounts : countsAwaited s (.submitter request) = true) (hstep : s.runSubmit request = some s') :
    s'.Accounts ((s.counts (.submitter request)).toList ++ log) := by
  have hcall := hsound.submits request
  have haccounted := (haccounts.requests request).submit
  have hmove {t : State setup} {pc pc' : SubmitPc} (hpc : s.submits request = pc) (hquiet : pc.isAwaiting = false)
      (hquiet' : pc'.isAwaiting = false) (hworkers : t.workers = s.workers) (hrequests : t.requests = s.requests)
      (hsubmits : t.submits = Function.update s.submits request pc') (haccounted : pc'.Accounted t log request) :
      t.Accounts log := by
    have hpending : t.pending request = s.pending request := State.pending_congr (by rw [hrequests])
    refine haccounts.resubmit hworkers hsubmits (fun _ _ => by rw [hrequests]) (by rw [hrequests])
      (by rw [hpending]) haccounted ?_ ?_
    · rw [hquiet']
      rintro ⟨⟩
    · unfold State.Awaits
      rw [hpc, hquiet]
      rintro ⟨⟩
  unfold State.runSubmit at hstep
  split at hstep
  case h_1 hpc =>
    have hnone : s.counts (.submitter request) = none := by simp only [State.counts, hpc]
    rw [hpc] at hcall
    cases hstep
    rw [hnone]
    split
    · exact hmove hpc rfl rfl rfl rfl rfl (.inl ⟨hcall, by decide⟩)
    · exact hmove hpc rfl rfl rfl rfl rfl trivial
  case h_2 hpc =>
    have hnone : s.counts (.submitter request) = none := by simp only [State.counts, hpc]
    cases hstep
    rw [hnone]
    exact hmove hpc rfl rfl rfl rfl rfl trivial
  case h_3 call enqueued_at deadline hpc =>
    rw [hpc] at hcall
    cases hstep
    simp only [State.counts, hpc, State.enqueue]
    split
    · exact hmove hpc rfl rfl rfl rfl rfl (.inl ⟨hcall, by decide⟩)
    · split
      · exact hmove hpc rfl rfl rfl rfl rfl (.inl ⟨hcall, by decide⟩)
      · exact haccounts.enqueued hcall rfl rfl rfl rfl rfl
  case h_4 hpc =>
    have hnone : s.counts (.submitter request) = none := by simp only [State.counts, hpc]
    have hawaits : s.Awaits request := by
      unfold State.Awaits
      rw [hpc]
      rfl
    rw [hpc] at hcall
    rw [hnone]
    have hgiveUp {t : State setup} {pc' : SubmitPc} (hworkers : t.workers = s.workers)
        (hrequests : t.requests = s.requests) (hsubmits : t.submits = Function.update s.submits request pc')
        (hquiet' : pc'.isAwaiting = false) (haccounted : pc'.Accounted t log request)
        (hheld : ∀ worker, settling (s.workers worker).ops ≠ some request) : t.Accounts log := by
      have hpending : t.pending request = s.pending request := State.pending_congr (by rw [hrequests])
      refine haccounts.resubmit hworkers hsubmits (fun _ _ => by rw [hrequests]) (by rw [hrequests])
        (by rw [hpending]) haccounted ?_ (fun _ => .inr hheld)
      rw [hquiet']
      rintro ⟨⟩
    split at hstep
    · rename_i result hsome
      cases hstep
      refine hgiveUp rfl rfl rfl rfl (.inr ⟨hcall, ?_⟩) ?_
      · exact (haccounts.requests request).promised result hawaits hsome
      · intro worker hsettling
        have hopen := (hsound.owned_of_answers (answers_of_settling hsettling)).2
        unfold State.Open at hopen
        rw [hopen] at hsome
        cases hsome
    · rename_i hopen
      split at hstep <;> cases hstep
      have hheld : ∀ worker, settling (s.workers worker).ops ≠ some request := by
        simp only [countsAwaited, hpc, hopen, Option.isSome_none, Bool.false_or] at hcounts
        intro worker
        exact of_decide_eq_true (List.all_eq_true.mp hcounts worker (List.mem_finRange worker))
      refine hgiveUp rfl rfl rfl rfl ?_ hheld
      by_contra hcounted
      obtain ⟨worker, hsettling⟩ := (haccounts.requests request).settled hawaits hopen hcounted
      exact hheld worker hsettling
  case h_5 hpc =>
    have hnone : s.counts (.submitter request) = none := by simp only [State.counts, hpc]
    rw [hpc] at haccounted
    cases hstep
    rw [hnone]
    exact hmove hpc rfl rfl rfl rfl rfl haccounted
  case h_6 hpc =>
    have hnone : s.counts (.submitter request) = none := by simp only [State.counts, hpc]
    rw [hpc] at haccounted hcall
    cases hstep
    rw [hnone]
    refine haccounts.resubmit rfl rfl ?_ ?_ ?_ haccounted (by rintro ⟨⟩) ?_
    · intro other hne
      exact Function.update_of_ne hne ..
    · refine iff_of_false ?_ hcall.1
      change Function.update s.requests request _ request ≠ none
      rw [Function.update_self]
      rintro ⟨⟩
    · simp [State.pending, State.setRequest, State.setSubmit]
    · unfold State.Awaits
      rw [hpc]
      rintro ⟨⟩
  case h_7 hpc =>
    rw [hpc] at hcall
    cases hstep
    simp only [State.counts, hpc]
    exact haccounts.countGivenUp hcall.1 hpc rfl rfl rfl
  case h_8 hpc =>
    have hnone : s.counts (.submitter request) = none := by simp only [State.counts, hpc]
    rw [hpc] at haccounted hcall
    cases hstep
    rw [hnone]
    exact hmove hpc rfl rfl rfl rfl rfl (.inr ⟨hcall.1, .inl (.inl ⟨rfl, haccounted⟩)⟩)
  case h_9 => cases hstep

/-- Workers are left alone or woken up. -/
theorem State.Accounts.leaves (haccounts : s.Accounts log) (hleaves : s.Leaves s')
    (hrequests : s'.requests = s.requests)
    (hsubmits : s'.submits = s.submits) : s'.Accounts log := by
  refine haccounts.move hrequests hsubmits ?_
  intro worker
  obtain hsame | hwoken := hleaves.workers worker
  · exact .inl (by rw [hsame])
  · exact .inl (by rw [hwoken, wakeWorker_ops])

/-- A notification keeps the accounts. -/
theorem State.Accounts.notifyOne (haccounts : s.Accounts log) {woken : Option (Fin setup.config.instances)}
    (hnotify : s.notifyOne woken = some s') : s'.Accounts log ∧ s'.requests = s.requests ∧ s'.submits = s.submits := by
  have hsame : s'.requests = s.requests ∧ s'.submits = s.submits := by
    unfold State.notifyOne at hnotify
    split at hnotify
    · split at hnotify <;> cases hnotify
      exact ⟨rfl, rfl⟩
    · split at hnotify <;> cases hnotify
      exact ⟨rfl, rfl⟩
  exact ⟨haccounts.leaves (State.notifyOne_leaves hnotify) hsame.1 hsame.2, hsame⟩

/-- A step of a drain keeps the accounts. -/
theorem State.Accounts.runDrain (haccounts : s.Accounts log) (hsound : s.Sound) {thread : Nat}
    (hstep : s.runDrain thread = some s') : s'.Accounts log := by
  have hdrain := hsound.drains thread
  unfold State.runDrain at hstep
  split at hstep
  case h_1 =>
    cases hstep
    exact haccounts.leaves ⟨fun _ => .inr rfl, rfl⟩ rfl rfl
  case h_2 =>
    split at hstep <;> cases hstep
    exact haccounts.leaves (.of_same rfl rfl) rfl rfl
  case h_3 =>
    cases hstep
    exact haccounts.leaves (.of_same rfl rfl) rfl rfl
  case h_4 =>
    cases hstep
    exact haccounts.leaves (.of_same rfl rfl) rfl rfl
  case h_5 hpc =>
    -- The workers have emptied the queue before they left.
    rw [hpc] at hdrain
    cases hdrain
  case h_6 => cases hstep

/-- Every step that meets the condition keeps the accounts, with what it counts. -/
theorem State.Accounts.step (haccounts : s.Accounts log) (hsound : s.Sound) {event : Event setup}
    (hcounts : countsAwaited s event = true) (hstep : s.step event = some s') :
    s'.Accounts ((s.counts event).toList ++ log) := by
  cases event with
  | tick | cancel =>
    cases hstep
    exact haccounts.leaves (.of_same rfl rfl) rfl rfl
  | submit request call =>
    simp only [State.step] at hstep
    split at hstep <;> cases hstep
    rename_i hpc
    refine haccounts.resubmit rfl rfl (fun _ _ => rfl) Iff.rfl rfl trivial (by rintro ⟨⟩) ?_
    unfold State.Awaits
    rw [hpc]
    rintro ⟨⟩
  | submitter request => exact haccounts.runSubmit hsound hcounts hstep
  | notifySubmitted request woken =>
    simp only [State.step, State.notifySubmitted] at hstep
    split at hstep
    case h_2 => cases hstep
    case h_1 hpc =>
    obtain ⟨t, hnotify, rfl⟩ := Option.map_eq_some_iff.mp hstep
    obtain ⟨hnotified, hrequests, hsubmits⟩ := haccounts.notifyOne hnotify
    have hcall : t.submits request = .notifying := by rw [hsubmits, hpc]
    have haccounted := (hnotified.requests request).submit
    rw [hcall] at haccounted
    refine hnotified.resubmit rfl rfl (fun _ _ => rfl) Iff.rfl rfl haccounted ?_ (fun _ => .inl rfl)
    intro _
    unfold State.Awaits
    rw [hcall]
    rfl
  | worker worker =>
    refine haccounts.runWorker hsound hstep ?_
    intro entry hentry
    simp only [countsAwaited, hentry] at hcounts
    exact hcounts
  | notifyErased worker woken =>
    obtain ⟨t, pc', hnotify, hquiet, rfl⟩ := State.notifyErased_quiet hstep
    exact (haccounts.notifyOne hnotify).1.quiet hquiet
  | wake worker =>
    simp only [State.step] at hstep
    split at hstep <;> cases hstep
    exact haccounts.leaves (s.setWorker_leaves worker) rfl rfl
  | infer worker outcome =>
    obtain ⟨pc', hquiet, rfl⟩ := State.infer_quiet hstep
    exact haccounts.quiet hquiet
  | undefined worker formation queue_ =>
    simp only [State.step] at hstep
    split at hstep
    · rename_i hpc
      have hworker := hsound.workers worker
      rw [hpc] at hworker
      exact hworker.elim
    · cases hstep
  | stopAccepting thread | beginDrain thread =>
    simp only [State.step] at hstep
    split at hstep <;> cases hstep
    exact haccounts.leaves (.of_same rfl rfl) rfl rfl
  | drain thread => exact haccounts.runDrain hsound hstep

end Steps

/-- The runs in which a queue iterator is used only while it is valid, a worker
counts a request only while its submitter waits, and a submitter whose promise is
unset gives up only while no worker has counted its request. -/
def counting (setup : Setup) (start : Int) : System (State setup × List Entry) (Event setup) :=
  ledger setup start fun s event => (scansFresh s event && countsAwaited s event) = true

theorem accounts_start (setup : Setup) (start : Int) : ({ now := start } : State setup).Accounts [] := by
  refine ⟨List.nodup_nil, ?_, ?_⟩
  · intro request
    refine ⟨by simp, ?_, by simp [Uncounted], trivial, ?_, ?_⟩
    · exact iff_of_false (by simp) (not_not.mpr rfl)
    · intro _ hawaits
      cases hawaits
    · intro hawaits
      cases hawaits
  · intro worker
    exact .orderly .nil

/-- In every run whose steps meet the condition the accounts are right. -/
theorem accounts_reachable {start : Int} {s : State setup} {log : List Entry}
    (hreach : (counting setup start).Reachable (s, log)) : s.Sound ∧ s.Accounts log := by
  refine @System.Reachable.invariant_of_logged _ _ _ _ State.counts (fun s log => s.Sound ∧ s.Accounts log) ?_ ?_
    s log hreach
  · rintro s rfl
    exact ⟨sound_start setup start, accounts_start setup start⟩
  · rintro s log event s' _ ⟨hsound, haccounts⟩ ⟨hstep, hmeets⟩
    obtain ⟨hfresh, hcounts⟩ := Bool.and_eq_true_iff.mp hmeets
    exact ⟨(hsound.step hfresh hstep).sound, haccounts.step hsound hcounts hstep⟩

end neuriplo.batch
