import NeuriploRuntime.Batch.Counted

open neuriplo.scheduler neuriplo.tensor transition

namespace neuriplo.batch

variable {setup : Setup}

section Steps

variable {s s' : State setup} {log log' : List Entry} {worker : Fin setup.config.instances}

/-- What the log says of a request, by where its call of `submit` stands. -/
def SubmitPc.Accounted (s : State setup) (log : List Entry) (request : Nat) : SubmitPc → Prop
  | .notifying => (s.pending request).cancelled = false
  | .waiting => (s.pending request).cancelled = false
  | .expiring .answer => ⟨.timedOut, request⟩ ∈ log
  | .expiring _ => Uncounted log request
  | .returned result => s.requests request = none ∧ result ≠ makeTimeoutResult ∨
      s.requests request ≠ none ∧ Agrees log request result
  | _ => True

/-- A request is counted once at most, and only when it was accepted. What an
awaited request was promised agrees with the log; while it has no answer yet but
was counted, the worker that counted it is about to answer. -/
structure State.AccountsFor (s : State setup) (log : List Entry) (request : Nat) : Prop where
  once : ⟨.timedOut, request⟩ ∈ log → ⟨.completed, request⟩ ∉ log
  accepted : ⟨.accepted, request⟩ ∈ log ↔ s.requests request ≠ none
  known : s.requests request = none → Uncounted log request
  submit : (s.submits request).Accounted s log request
  promised : ∀ result, s.Awaits request → (s.pending request).promise = some result → Agrees log request result
  settled : s.Awaits request → s.Open request → ¬ Uncounted log request →
    ∃ worker, settling (s.workers worker).ops = some request

structure State.Accounts (s : State setup) (log : List Entry) : Prop where
  nodup : log.Nodup
  requests : ∀ request, s.AccountsFor log request
  workers : ∀ worker, Underway s log (s.workers worker).ops

/-- A step that leaves a request and its call alone, and the worker that settles
it. -/
theorem State.AccountsFor.frame {request : Nat} (haccounts : s.AccountsFor log request)
    (hlog : SameEntries log log' request) (hrequest : s'.requests request = s.requests request)
    (hsubmit : s'.submits request = s.submits request)
    (hsettling : s.Awaits request → s.Open request → ∀ worker, settling (s.workers worker).ops = some request →
      ∃ worker, settling (s'.workers worker).ops = some request) : s'.AccountsFor log' request := by
  have hpending := State.pending_congr hrequest
  have hawaits : s'.Awaits request ↔ s.Awaits request := by
    unfold State.Awaits
    rw [hsubmit]
  refine ⟨?_, ?_, ?_, ?_, ?_, ?_⟩
  · rw [hlog, hlog]
    exact haccounts.once
  · rw [hlog, hrequest]
    exact haccounts.accepted
  · rw [hrequest]
    intro hnone
    exact hlog.uncounted (haccounts.known hnone)
  · rw [hsubmit]
    have haccounted := haccounts.submit
    generalize s.submits request = pc at haccounted
    cases pc with
    | notifying | waiting =>
      simp only [SubmitPc.Accounted, hpending] at haccounted ⊢
      exact haccounted
    | expiring expiry =>
      cases expiry with
      | answer => exact (hlog _).mpr haccounted
      | _ => exact hlog.uncounted haccounted
    | returned result =>
      simp only [SubmitPc.Accounted, hrequest] at haccounted ⊢
      exact haccounted.imp_right fun ⟨haccepted, hagrees⟩ => ⟨haccepted, hlog.agrees hagrees⟩
    | _ => trivial
  · intro result hawaited hpromise
    rw [hpending] at hpromise
    exact hlog.agrees (haccounts.promised result (hawaits.mp hawaited) hpromise)
  · intro hawaited hopen huncounted
    have hopen' : s.Open request := by
      unfold State.Open at hopen ⊢
      rw [← hpending]
      exact hopen
    have hcounted : ¬ Uncounted log request := fun hnone => huncounted (hlog.uncounted hnone)
    obtain ⟨worker, hworker⟩ := haccounts.settled (hawaits.mp hawaited) hopen' hcounted
    exact hsettling (hawaits.mp hawaited) hopen' worker hworker

theorem SameEntries.refl (log : List Entry) (request : Nat) : SameEntries log log request := fun _ => Iff.rfl

/-- Workers wake up, go on without counting, or start on new straight-line
steps. -/
theorem State.Accounts.move (haccounts : s.Accounts log) (hrequests : s'.requests = s.requests)
    (hsubmits : s'.submits = s.submits)
    (hworkers : ∀ worker, (s'.workers worker).ops = (s.workers worker).ops ∨
      Underway s log (s'.workers worker).ops ∧
        ∀ request, settling (s.workers worker).ops = some request → s.Awaits request →
          settling (s'.workers worker).ops = some request) : s'.Accounts log := by
  have hawaits (request : Nat) (hawaited : s.Awaits request) : s'.Awaits request := by
    unfold State.Awaits
    rw [hsubmits]
    exact hawaited
  refine ⟨haccounts.nodup, ?_, ?_⟩
  · intro request
    refine (haccounts.requests request).frame (.refl log request) (by rw [hrequests]) (by rw [hsubmits]) ?_
    intro hawaited _ worker hsettling
    refine ⟨worker, ?_⟩
    obtain hsame | ⟨-, hkept⟩ := hworkers worker
    · rw [hsame]
      exact hsettling
    · exact hkept request hsettling hawaited
  · intro worker
    obtain hsame | ⟨hunderway, -⟩ := hworkers worker
    · rw [hsame]
      exact (haccounts.workers worker).mono (fun _ hmem => hmem) fun request _ => hawaits request
    · exact hunderway.mono (fun _ hmem => hmem) fun request _ => hawaits request

/-- One worker moves on to steps that are underway. -/
theorem State.Accounts.work (haccounts : s.Accounts log) {pc' : WorkerPc} (hrequests : s'.requests = s.requests)
    (hsubmits : s'.submits = s.submits) (hworkers : s'.workers = Function.update s.workers worker pc')
    (hunderway : Underway s log pc'.ops)
    (hsettling : ∀ request, settling (s.workers worker).ops = some request → s.Awaits request →
      settling pc'.ops = some request) : s'.Accounts log := by
  refine haccounts.move hrequests hsubmits ?_
  intro other
  rw [hworkers]
  by_cases hother : other = worker
  · subst hother
    rw [Function.update_self]
    exact .inr ⟨hunderway, hsettling⟩
  · rw [Function.update_of_ne hother]
    exact .inl rfl

/-- A call of `submit` moves, and changes no more of its request than the
cancelled flag. -/
theorem State.Accounts.resubmit (haccounts : s.Accounts log) {request : Nat} {pc' : SubmitPc}
    (hworkers : s'.workers = s.workers) (hsubmits : s'.submits = Function.update s.submits request pc')
    (hothers : ∀ other, other ≠ request → s'.requests other = s.requests other)
    (haccepted : s'.requests request = none ↔ s.requests request = none)
    (hpromise : (s'.pending request).promise = (s.pending request).promise)
    (haccounted : pc'.Accounted s' log request) (hawaits : pc'.isAwaiting = true → s.Awaits request)
    (hheld : s.Awaits request → pc'.isAwaiting = true ∨ ∀ worker, settling (s.workers worker).ops ≠ some request) :
    s'.Accounts log := by
  have hself : s'.submits request = pc' := by rw [hsubmits, Function.update_self]
  have hother {other : Nat} (hne : other ≠ request) : s'.submits other = s.submits other := by
    rw [hsubmits, Function.update_of_ne hne]
  refine ⟨haccounts.nodup, ?_, ?_⟩
  · intro other
    by_cases hne : other = request
    · subst hne
      have hwas := haccounts.requests other
      refine ⟨hwas.once, ?_, ?_, ?_, ?_, ?_⟩
      · rw [hwas.accepted]
        exact not_congr haccepted.symm
      · intro hnone
        exact hwas.known (haccepted.mp hnone)
      · rw [hself]
        exact haccounted
      · intro result hawaited hsome
        rw [hpromise] at hsome
        unfold State.Awaits at hawaited
        rw [hself] at hawaited
        exact hwas.promised result (hawaits hawaited) hsome
      · intro hawaited hopen huncounted
        unfold State.Awaits at hawaited
        rw [hself] at hawaited
        unfold State.Open at hopen
        rw [hpromise] at hopen
        rw [hworkers]
        exact hwas.settled (hawaits hawaited) hopen huncounted
    · refine (haccounts.requests other).frame (.refl log other) (hothers other hne) (hother hne) ?_
      intro _ _ worker hsettling
      rw [hworkers]
      exact ⟨worker, hsettling⟩
  · intro worker
    rw [hworkers]
    refine (haccounts.workers worker).mono (fun _ hmem => hmem) ?_
    intro other hsettling hawaited
    unfold State.Awaits
    by_cases hne : other = request
    · subst hne
      rw [hself]
      exact (hheld hawaited).resolve_right fun hnone => hnone worker hsettling
    · rw [hother hne]
      exact hawaited

/-- A request is accepted, and counted as such. -/
theorem State.Accounts.enqueued (haccounts : s.Accounts log) {request : Nat} (hfresh : s.requests request = none)
    {pending : PendingRequest} (hcancelled : pending.cancelled = false) (hpromise : pending.promise = none)
    (hworkers : s'.workers = s.workers) (hsubmits : s'.submits = Function.update s.submits request .notifying)
    (hrequests : s'.requests = Function.update s.requests request (some pending)) :
    s'.Accounts (⟨.accepted, request⟩ :: log) := by
  have hself : s'.submits request = .notifying := by rw [hsubmits, Function.update_self]
  have hrequest : s'.requests request = some pending := by rw [hrequests, Function.update_self]
  have hpending : s'.pending request = pending := State.pending_of_some hrequest
  have hwas := haccounts.requests request
  have huncounted : Uncounted (⟨.accepted, request⟩ :: log) request := by
    obtain ⟨htimedOut, hcompleted⟩ := hwas.known hfresh
    exact ⟨by simpa using htimedOut, by simpa using hcompleted⟩
  refine ⟨?_, ?_, ?_⟩
  · refine List.nodup_cons.mpr ⟨?_, haccounts.nodup⟩
    rw [hwas.accepted]
    exact not_not.mpr hfresh
  · intro other
    by_cases hne : other = request
    · subst hne
      refine ⟨fun hmem => absurd hmem huncounted.1, ?_, fun _ => huncounted, ?_, ?_, ?_⟩
      · rw [hrequest]
        exact iff_of_true List.mem_cons_self nofun
      · rw [hself]
        simp only [SubmitPc.Accounted, hpending, hcancelled]
      · intro result _ hsome
        rw [hpending, hpromise] at hsome
        cases hsome
      · intro _ _ hcounted
        exact absurd huncounted hcounted
    · refine (haccounts.requests other).frame (sameEntries_cons hne) ?_ ?_ ?_
      · rw [hrequests, Function.update_of_ne hne]
      · rw [hsubmits, Function.update_of_ne hne]
      · intro _ _ worker hsettling
        rw [hworkers]
        exact ⟨worker, hsettling⟩
  · intro worker
    rw [hworkers]
    refine (haccounts.workers worker).mono (fun _ hmem => List.mem_cons_of_mem _ hmem) ?_
    intro other _ hawaited
    unfold State.Awaits
    by_cases hne : other = request
    · subst hne
      rw [hself]
      rfl
    · rw [hsubmits, Function.update_of_ne hne]
      exact hawaited

/-- A submitter that has given up counts its request. -/
theorem State.Accounts.countGivenUp (haccounts : s.Accounts log) {request : Nat} (haccepted : s.requests request ≠ none)
    (hpc : s.submits request = .expiring .countTimedOut) (hworkers : s'.workers = s.workers)
    (hsubmits : s'.submits = Function.update s.submits request (.expiring .answer))
    (hrequests : s'.requests = s.requests) : s'.Accounts (⟨.timedOut, request⟩ :: log) := by
  have hself : s'.submits request = .expiring .answer := by rw [hsubmits, Function.update_self]
  have hwas := haccounts.requests request
  obtain ⟨htimedOut, hcompleted⟩ : Uncounted log request := by
    have haccounted := hwas.submit
    rw [hpc] at haccounted
    exact haccounted
  have hgone : ¬ s'.Awaits request := by
    unfold State.Awaits
    rw [hself]
    exact nofun
  refine ⟨List.nodup_cons.mpr ⟨htimedOut, haccounts.nodup⟩, ?_, ?_⟩
  · intro other
    by_cases hne : other = request
    · subst hne
      refine ⟨?_, ?_, ?_, ?_, fun _ hawaited => absurd hawaited hgone, fun hawaited => absurd hawaited hgone⟩
      · intro _
        simpa using hcompleted
      · rw [hrequests, ← hwas.accepted]
        simp
      · rw [hrequests]
        intro hnone
        exact absurd hnone haccepted
      · rw [hself]
        exact List.mem_cons_self
    · refine (haccounts.requests other).frame (sameEntries_cons hne) (by rw [hrequests]) ?_ ?_
      · rw [hsubmits, Function.update_of_ne hne]
      · intro _ _ worker hsettling
        rw [hworkers]
        exact ⟨worker, hsettling⟩
  · intro worker
    rw [hworkers]
    refine (haccounts.workers worker).mono (fun _ hmem => List.mem_cons_of_mem _ hmem) ?_
    intro other _ hawaited
    have hne : other ≠ request := by
      rintro rfl
      unfold State.Awaits at hawaited
      rw [hpc] at hawaited
      cases hawaited
    unfold State.Awaits
    rw [hsubmits, Function.update_of_ne hne]
    exact hawaited

end Steps

end neuriplo.batch
