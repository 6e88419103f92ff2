import NeuriploRuntime.Batch.Accounts

open neuriplo.scheduler neuriplo.tensor transition

namespace neuriplo.batch

variable {setup : Setup}

section Steps

variable {s s' : State setup} {log log' : List Entry} {worker : Fin setup.config.instances}

/-- What a worker still answers is its own and has no answer. -/
theorem State.Sound.owned_of_answers (hsound : s.Sound) {request : Nat}
    (hanswers : request ∈ (s.workers worker).ops.filterMap (·.answers)) :
    request ∈ (s.workers worker).owned ∧ s.Open request := by
  have hpc := hsound.workers worker
  generalize s.workers worker = pc at hanswers hpc
  cases pc with
  | expiring formation delay_elapsed iterator ops =>
    have hmem : request ∈ ops.filterMap (·.answers) ++ formation.batch := List.mem_append_left _ hanswers
    exact ⟨hmem, hpc request hmem⟩
  | sweepExpiring now swept expired rest ops =>
    obtain ⟨-, -, -, -, hnone | ⟨hself, hopen⟩⟩ := hpc
    · change request ∈ ops.filterMap (·.answers) at hanswers
      rw [hnone] at hanswers
      cases hanswers
    · change request ∈ ops.filterMap (·.answers) at hanswers
      rw [hself, List.mem_singleton] at hanswers
      rw [hanswers]
      exact ⟨List.mem_append_right _ List.mem_cons_self, hopen⟩
  | finishing ops => exact ⟨hanswers, hpc request hanswers⟩
  | throwing active_batch ops =>
    have hmem : request ∈ ops.filterMap (·.answers) ++ active_batch := List.mem_append_left _ hanswers
    exact ⟨hmem, hpc request hmem⟩
  | _ => cases hanswers

/-- A request that a worker is to answer was not counted while its submitter
waits, unless by the worker itself. -/
theorem State.Accounts.uncounted (haccounts : s.Accounts log) (hsound : s.Sound) {request : Nat}
    (howned : request ∈ (s.workers worker).owned) (hopen : s.Open request) (hawaits : s.Awaits request)
    (hsettling : settling (s.workers worker).ops ≠ some request) : Uncounted log request := by
  by_contra hcounted
  obtain ⟨other, hother⟩ := (haccounts.requests request).settled hawaits hopen hcounted
  have hsame := hsound.owner_unique howned (hsound.owned_of_answers (answers_of_settling hother)).1
  subst hsame
  exact hsettling hother

/-- A worker counts a request whose submitter still waits, right before it
answers. -/
theorem State.Accounts.count (haccounts : s.Accounts log) {request : Nat} {counter : Counter} {result : SchedulerResult}
    {pc' : WorkerPc} {ops : List WorkerOp} (huncounted : Uncounted log request) (haccepted : s.requests request ≠ none)
    (hopen : s.Open request) (hawaits : s.Awaits request) (hworkers : s'.workers = Function.update s.workers worker pc')
    (hsubmits : s'.submits = s.submits) (hrequests : s'.requests = s.requests)
    (hkind : counter = .timedOut ∧ result = makeTimeoutResult ∨ counter = .completed ∧ Executed result)
    (hops : pc'.ops = .fulfillResult request result :: ops) (horderly : Orderly ops)
    (hwas : settling (s.workers worker).ops = none) : s'.Accounts (⟨counter, request⟩ :: log) := by
  have hcounted : CountedAs (⟨counter, request⟩ :: log) request result := by
    obtain ⟨rfl, hresult⟩ | ⟨rfl, hexecuted⟩ := hkind
    · exact .inl ⟨hresult, List.mem_cons_self⟩
    · exact .inr ⟨hexecuted, List.mem_cons_self⟩
  have hawaits' : ∀ other, s.Awaits other → s'.Awaits other := by
    intro other hawaited
    unfold State.Awaits
    rw [hsubmits]
    exact hawaited
  have hself : s'.workers worker = pc' := by rw [hworkers, Function.update_self]
  have hsettling : settling (s'.workers worker).ops = some request := by
    rw [hself, hops]
    exact settling_fulfillResult hcounted.isCounted
  have hworkersOther {other : Fin setup.config.instances} (hne : other ≠ worker) :
      s'.workers other = s.workers other := by rw [hworkers, Function.update_of_ne hne]
  refine ⟨?_, ?_, ?_⟩
  · refine List.nodup_cons.mpr ⟨?_, haccounts.nodup⟩
    obtain ⟨rfl, -⟩ | ⟨rfl, -⟩ := hkind
    · exact huncounted.1
    · exact huncounted.2
  · intro other
    by_cases hne : other = request
    · subst hne
      have hold := haccounts.requests other
      refine ⟨?_, ?_, ?_, ?_, ?_, fun _ _ _ => ⟨worker, hsettling⟩⟩
      · obtain ⟨rfl, -⟩ | ⟨rfl, -⟩ := hkind
        · intro _
          simpa using huncounted.2
        · intro hmem
          exact absurd (by simpa using hmem) huncounted.1
      · have hne' : counter ≠ .accepted := by
          rcases hkind with ⟨rfl, -⟩ | ⟨rfl, -⟩ <;> exact nofun
        rw [hrequests, ← hold.accepted]
        simp [Ne.symm hne']
      · rw [hrequests]
        intro hnone
        exact absurd hnone haccepted
      · have haccounted := hold.submit
        unfold State.Awaits at hawaits
        rw [hsubmits]
        generalize s.submits other = pc at haccounted hawaits
        cases pc with
        | notifying | waiting =>
          simp only [SubmitPc.Accounted, State.pending, hrequests] at haccounted ⊢
          exact haccounted
        | _ => cases hawaits
      · intro promised _ hsome
        have hpending : s'.pending other = s.pending other := State.pending_congr (by rw [hrequests])
        unfold State.Open at hopen
        rw [hpending, hopen] at hsome
        cases hsome
    · refine (haccounts.requests other).frame (sameEntries_cons hne) (by rw [hrequests]) (by rw [hsubmits]) ?_
      intro _ _ settler hsettler
      refine ⟨settler, ?_⟩
      have hsettlerNe : settler ≠ worker := by
        rintro rfl
        rw [hwas] at hsettler
        cases hsettler
      rw [hworkersOther hsettlerNe]
      exact hsettler
  · intro other
    by_cases hne : other = worker
    · subst hne
      rw [hself, hops]
      exact .counted request result hcounted (hawaits' request hawaits) horderly
    · rw [hworkersOther hne]
      exact (haccounts.workers other).mono (fun _ hmem => List.mem_cons_of_mem _ hmem)
        fun other _ => hawaits' other

/-- A worker sets the promise of a request that it has counted, or that was
never executed. -/
theorem State.Accounts.setValue (haccounts : s.Accounts log) {request : Nat} {result : SchedulerResult} {pc' : WorkerPc}
    (hagrees : s.Awaits request → Agrees log request result) (hopen : s.Open request)
    (haccepted : s.requests request ≠ none) (hworkers : s'.workers = Function.update s.workers worker pc')
    (hsubmits : s'.submits = s.submits)
    (hrequests : s'.requests =
      Function.update s.requests request (some { s.pending request with promise := some result }))
    (horderly : Orderly pc'.ops) (hwas : ∀ other, settling (s.workers worker).ops = some other → other = request) :
    s'.Accounts log := by
  have hawaits (other : Nat) : s'.Awaits other ↔ s.Awaits other := by
    unfold State.Awaits
    rw [hsubmits]
  have hrequest : s'.requests request = some { s.pending request with promise := some result } := by
    rw [hrequests, Function.update_self]
  have hpending := State.pending_of_some hrequest
  refine ⟨haccounts.nodup, ?_, ?_⟩
  · intro other
    by_cases hne : other = request
    · subst hne
      have hold := haccounts.requests other
      refine ⟨hold.once, ?_, ?_, ?_, ?_, ?_⟩
      · rw [hold.accepted, hrequest]
        exact iff_of_true haccepted nofun
      · rw [hrequest]
        exact nofun
      · have haccounted := hold.submit
        rw [hsubmits]
        generalize s.submits other = pc at haccounted
        cases pc with
        | notifying | waiting =>
          simp only [SubmitPc.Accounted, hpending] at haccounted ⊢
          exact haccounted
        | expiring expiry => cases expiry <;> exact haccounted
        | returned answer =>
          obtain ⟨hnone, -⟩ | ⟨-, hanswer⟩ := haccounted
          · exact absurd hnone haccepted
          · exact .inr ⟨by rw [hrequest]; exact nofun, hanswer⟩
        | _ => trivial
      · intro promised hawaited hsome
        rw [hpending, Option.some.injEq] at hsome
        subst hsome
        exact hagrees ((hawaits other).mp hawaited)
      · intro _ hopen'
        unfold State.Open at hopen'
        rw [hpending] at hopen'
        cases hopen'
    · refine (haccounts.requests other).frame (.refl log other) ?_ (by rw [hsubmits]) ?_
      · rw [hrequests, Function.update_of_ne hne]
      · intro _ _ settler hsettler
        refine ⟨settler, ?_⟩
        have hsettlerNe : settler ≠ worker := by
          rintro rfl
          exact hne (hwas other hsettler)
        rw [hworkers, Function.update_of_ne hsettlerNe]
        exact hsettler
  · intro other
    rw [hworkers]
    by_cases hne : other = worker
    · subst hne
      rw [Function.update_self]
      exact .orderly horderly
    · rw [Function.update_of_ne hne]
      exact (haccounts.workers other).mono (fun _ hmem => hmem) fun request _ => (hawaits request).mpr

/-- The straight-line steps keep the accounts, when what they count is awaited. -/
theorem State.Accounts.perform (haccounts : s.Accounts log) (hsound : s.Sound) {next : List WorkerOp → WorkerPc}
    {op : WorkerOp} {ops : List WorkerOp} (hperforms : (s.workers worker).Performs next (op :: ops))
    (hperform : s.perform worker next ops op = some s')
    (hcounts : ∀ entry, countedBy (op :: ops) = some entry → s.Awaits entry.request) :
    s'.Accounts ((countedBy (op :: ops)).toList ++ log) := by
  obtain ⟨hops, hnext⟩ := hperforms.ops
  have hunderway := haccounts.workers worker
  have hanswered {request : Nat} (hmem : request ∈ (op :: ops).filterMap (·.answers)) :
      request ∈ (s.workers worker).owned ∧ s.Open request := by
    apply hsound.owned_of_answers
    rw [hops]
    exact hmem
  have hquiet {t : State setup} {ops' : List WorkerOp} (hrequests : t.requests = s.requests)
      (hsubmits : t.submits = s.submits) (hworkers : t.workers = Function.update s.workers worker (next ops'))
      (hunderway : Underway s log ops') (hwas : settling (op :: ops) = none) : t.Accounts log := by
    refine haccounts.work hrequests hsubmits hworkers (by rw [hnext]; exact hunderway) ?_
    intro request hsettling
    rw [hops, hwas] at hsettling
    cases hsettling
  have hcount {t : State setup} {request : Nat} {counter : Counter} {result : SchedulerResult} {rest : List WorkerOp}
      (hrest : ops = .fulfillResult request result :: rest) (horderly : Orderly rest)
      (hrequests : t.requests = s.requests) (hsubmits : t.submits = s.submits)
      (hworkers : t.workers = Function.update s.workers worker (next ops)) (hawaits : s.Awaits request)
      (hkind : counter = .timedOut ∧ result = makeTimeoutResult ∨ counter = .completed ∧ Executed result)
      (hwas : settling (op :: ops) = none) : t.Accounts (⟨counter, request⟩ :: log) := by
    have hmem : request ∈ (op :: ops).filterMap (·.answers) := by
      apply List.mem_filterMap.mpr
      refine ⟨.fulfillResult request result, ?_, rfl⟩
      rw [hrest]
      exact List.mem_cons_of_mem _ List.mem_cons_self
    obtain ⟨howned, hopen⟩ := hanswered hmem
    have hsettling : settling (s.workers worker).ops = none := by rw [hops, hwas]
    have huncounted := haccounts.uncounted hsound howned hopen hawaits (by rw [hsettling]; exact nofun)
    exact haccounts.count huncounted (hsound.accepted_of_owned howned) hopen hawaits hworkers hsubmits hrequests hkind
      ((hnext ops).trans hrest) horderly hsettling
  rw [hops] at hunderway
  cases hunderway with
  | orderly horderly =>
    cases horderly with
    | notifyOne => cases hperform
    | expire request hrest =>
      cases hperform
      exact hquiet rfl rfl rfl (.counting request hrest) rfl
    | fail request result hresult hrest =>
      have hwas : settling (.fulfillResult request result :: ops) = none := by
        simp [settling, hresult.not_counted]
      cases hperform
      split
      · exact hquiet rfl rfl rfl (.orderly hrest) hwas
      · exact hquiet rfl rfl rfl (.setting request result (.inr hresult) hrest) hwas
    | release executor_index hrest =>
      cases hperform
      exact hquiet rfl rfl rfl (.orderly hrest) rfl
    | recordBatchExecution execution_ns hrest =>
      cases hperform
      exact hquiet rfl rfl rfl (.orderly hrest) rfl
    | checkCancelled request execution_started execution_finished response hrest =>
      cases hperform
      split
      · exact hquiet rfl rfl rfl (.orderly hrest) rfl
      · exact hquiet rfl rfl rfl (.orderly (.settle request execution_started execution_finished 1 response Nat.one_pos
          hrest)) rfl
    | settle request execution_started execution_finished batch_size response hsize hrest =>
      cases hperform
      split
      · exact hquiet rfl rfl rfl (.orderly (.expire request hrest)) rfl
      · exact hquiet rfl rfl rfl (.orderly (.complete request execution_started execution_finished _
          ⟨_, _, _, batch_size, response, hsize, rfl⟩ hrest)) rfl
    | complete request execution_started execution_finished result hresult hrest =>
      have hawaits := hcounts ⟨.completed, request⟩ rfl
      cases hperform
      exact hcount rfl hrest rfl rfl rfl hawaits (.inr ⟨rfl, hresult⟩) rfl
  | counting request hrest =>
    have hawaits := hcounts ⟨.timedOut, request⟩ rfl
    cases hperform
    exact hcount rfl hrest rfl rfl rfl hawaits (.inl ⟨rfl, rfl⟩) rfl
  | counted request result hcounted hawaits hrest =>
    have haccounted := (haccounts.requests request).submit
    have hcancelled : (s.pending request).cancelled = false := by
      unfold State.Awaits at hawaits
      generalize s.submits request = pc at haccounted hawaits
      cases pc with
      | notifying | waiting => exact haccounted
      | _ => cases hawaits
    cases hperform
    simp only [hcancelled, Bool.false_eq_true, if_false]
    refine haccounts.work rfl rfl rfl ?_ ?_
    · rw [hnext]
      exact .setting request result (.inl ⟨hcounted, hawaits⟩) hrest
    · intro other hsettling _
      rw [hops, settling_fulfillResult hcounted.isCounted] at hsettling
      rw [hnext, settling_setValue hcounted.isCounted]
      exact hsettling
  | setting request result hresult hrest =>
    obtain ⟨howned, hopen⟩ := hanswered (List.mem_filterMap.mpr ⟨_, List.mem_cons_self, rfl⟩)
    simp only [State.perform] at hperform
    split at hperform
    case h_2 hsome =>
      unfold State.Open at hopen
      rw [hopen] at hsome
      cases hsome
    case h_1 =>
    cases hperform
    refine haccounts.setValue ?_ hopen (hsound.accepted_of_owned howned) rfl rfl rfl ?_ ?_
    · intro hawaits
      obtain ⟨hcounted, -⟩ | hunexecuted := hresult
      · exact .inl hcounted
      · refine .inr ⟨hunexecuted, haccounts.uncounted hsound howned hopen hawaits ?_⟩
        rw [hops]
        simp [settling, hunexecuted.not_counted]
    · rw [hnext]
      exact hrest
    · intro other hsettling
      rw [hops] at hsettling
      simp only [settling] at hsettling
      split at hsettling <;> cases hsettling
      rfl

/-- A quiet step performs a notification at most. -/
theorem quiet_ops {pc pc' : WorkerPc} (hquiet : pc.Quiet pc') :
    pc.ops = [] ∧ pc'.ops = [] ∨ pc.ops = .notifyOne :: pc'.ops := by
  cases hquiet
  case expiredNotified => exact .inr rfl
  all_goals exact .inl ⟨rfl, rfl⟩

/-- A quiet step keeps the accounts. -/
theorem State.Accounts.quiet (haccounts : s.Accounts log) {pc' : WorkerPc} (hquiet : (s.workers worker).Quiet pc') :
    (s.setWorker worker pc').Accounts log := by
  obtain ⟨hnone, hnone'⟩ | hnotify := quiet_ops hquiet
  · refine haccounts.work rfl rfl rfl ?_ ?_
    · rw [hnone']
      exact .orderly .nil
    · intro request hsettling
      rw [hnone] at hsettling
      cases hsettling
  · refine haccounts.work rfl rfl rfl ?_ ?_
    · have hunderway := haccounts.workers worker
      rw [hnotify] at hunderway
      cases hunderway with
      | orderly hops =>
        cases hops with
        | notifyOne hops => exact .orderly hops
    · intro request hsettling
      rw [hnotify] at hsettling
      cases hsettling

theorem orderly_expire (request : Nat) : Orderly (expire request) := .expire request .nil

theorem orderly_unmerged (active_batch : List Nat) (error : String) :
    Orderly (active_batch.map fun request => .fulfillResult request (makeExecutorFailureResult error)) := by
  induction active_batch with
  | nil => exact .nil
  | cons request rest ih => exact .fail request _ (.inr ⟨error, rfl⟩) ih

/-- The steps that settle a batch are orderly. -/
theorem orderly_settled {requests : List Nat} {responses : List ExecutionResponse}
    {execution_started execution_finished : Int} {batch_size : Nat} (hsize : requests ≠ [] → 0 < batch_size) :
    Orderly (List.zipWith (fun request => .settle request execution_started execution_finished batch_size)
      requests responses) := by
  induction requests generalizing responses with
  | nil => exact .nil
  | cons request requests ih =>
    have hpositive := hsize nofun
    cases responses with
    | nil => exact .nil
    | cons response responses =>
      exact .settle request execution_started execution_finished batch_size response hpositive (ih fun _ => hpositive)

/-- What a worker does with a response is orderly. -/
theorem orderly_settleJob (s : State setup) (job : Job) (executor_index : Nat) (execution_started : Int)
    (response : ExecutionResponse) : Orderly (s.settleJob job executor_index execution_started response).ops := by
  cases job with
  | single request => exact .release _ (.checkCancelled request _ _ response .nil)
  | batched active_batch merged =>
    simp only [State.settleJob]
    split
    · refine .release _ (.recordBatchExecution _ (orderly_settled ?_))
      exact fun hne => List.length_pos_iff.mpr hne
    · exact .release _ (.recordBatchExecution _ .nil)

/-- A scan leaves orderly steps. -/
theorem orderly_runScan (s : State setup) (worker : Fin setup.config.instances) (formation : Formation)
    (delay_elapsed : Bool) (position : Nat) (made_progress : Bool) :
    ∃ pc', (s.runScan worker formation delay_elapsed position made_progress).workers =
        Function.update s.workers worker pc' ∧ Orderly pc'.ops := by
  refine ⟨_, rfl, ?_⟩
  split
  · split
    · exact .nil
    · split <;> exact .nil
  · exact .notifyOne (orderly_expire _)
  · exact .nil

/-- A worker's step keeps the accounts, when what it counts is awaited. -/
theorem State.Accounts.runWorker (haccounts : s.Accounts log) (hsound : s.Sound)
    (hstep : s.runWorker worker = some s')
    (hcounts : ∀ entry, countedBy (s.workers worker).ops = some entry → s.Awaits entry.request) :
    s'.Accounts ((countedBy (s.workers worker).ops).toList ++ log) := by
  have hmove {t : State setup} {pc pc' : WorkerPc} (hpc : s.workers worker = pc) (hnone : pc.ops = [])
      (hrequests : t.requests = s.requests) (hsubmits : t.submits = s.submits)
      (hworkers : t.workers = Function.update s.workers worker pc') (horderly : Orderly pc'.ops) :
      t.Accounts ((countedBy (s.workers worker).ops).toList ++ log) := by
    rw [hpc, hnone]
    refine haccounts.work hrequests hsubmits hworkers (.orderly horderly) ?_
    intro request hsettling
    rw [hpc, hnone] at hsettling
    cases hsettling
  cases State.runWorker_works hstep with
  | quiet pc' hquiet =>
    rw [countedBy_of_quiet hquiet]
    exact haccounts.quiet hquiet
  | popped _ _ hpc => exact hmove hpc rfl rfl rfl rfl .nil
  | exited hpc => exact hmove hpc rfl rfl rfl rfl .nil
  | scanned formation delay_elapsed position made_progress hpc =>
    obtain ⟨pc', hworkers, horderly⟩ := orderly_runScan s worker formation delay_elapsed position made_progress
    obtain hpc | ⟨iterator, hpc⟩ := hpc
    · exact hmove hpc rfl rfl rfl hworkers horderly
    · exact hmove hpc rfl rfl rfl hworkers horderly
  | stale _ _ _ hpc => exact hmove hpc rfl rfl rfl rfl .nil
  | formed _ _ hpc => exact hmove hpc rfl rfl rfl rfl .nil
  | processing _ hpc => exact hmove hpc rfl rfl rfl rfl .nil
  | overdue _ _ request _ hpc => exact hmove hpc rfl rfl rfl rfl (orderly_expire request)
  | dropped _ _ _ hpc => exact hmove hpc rfl rfl rfl rfl .nil
  | late _ _ _ hpc => exact hmove hpc rfl rfl rfl rfl .nil
  | active _ _ _ hpc => exact hmove hpc rfl rfl rfl rfl .nil
  | unmerged active_batch error hpc => exact hmove hpc rfl rfl rfl rfl (orderly_unmerged active_batch error)
  | singleDropped _ hpc => exact hmove hpc rfl rfl rfl rfl .nil
  | singleLate request hpc => exact hmove hpc rfl rfl rfl rfl (orderly_expire request)
  | selected _ hpc => exact hmove hpc rfl rfl rfl rfl .nil
  | executed job executor_index execution_started response ops hpc hsettle
  | unsplit job executor_index execution_started response ops hpc hsettle =>
    have horderly := orderly_settleJob s job executor_index execution_started response
    rw [hsettle] at horderly
    exact hmove hpc rfl rfl rfl rfl horderly
  | performed next op ops hperforms hperform =>
    rw [hperforms.ops.1] at hcounts ⊢
    exact haccounts.perform hsound hperforms hperform hcounts

end Steps

end neuriplo.batch
