import NeuriploRuntime.Batch.Accounting

open neuriplo.scheduler neuriplo.tensor transition

namespace neuriplo.batch

variable {setup : Setup}

/-- No call of `submit` is under way. -/
def State.Quiescent (s : State setup) : Prop :=
  ∀ request, s.submits request = .idle ∨ ∃ result, s.submits request = .returned result

/-- The accepted requests that were answered without an inference. -/
def State.unexecuted (s : State setup) : Set Nat :=
  {request | s.requests request ≠ none ∧ ∃ result, s.submits request = .returned result ∧ Unexecuted result}

section Quiescent

variable {s : State setup} {log : List Entry}

/-- An accepted request was answered, as the log says. -/
theorem State.Accounts.agrees (haccounts : s.Accounts log) (hsound : s.Sound) (hquiescent : s.Quiescent) {request : Nat}
    (haccepted : s.requests request ≠ none) :
    ∃ result, s.submits request = .returned result ∧ Agrees log request result := by
  obtain hidle | ⟨result, hreturned⟩ := hquiescent request
  · have hcall := hsound.submits request
    rw [hidle] at hcall
    exact absurd hcall haccepted
  · have haccounted := (haccounts.requests request).submit
    rw [hreturned] at haccounted
    obtain ⟨hnone, -⟩ | ⟨-, hagrees⟩ := haccounted
    · exact absurd hnone haccepted
    · exact ⟨result, hreturned, hagrees⟩

/-- What was counted was accepted. -/
theorem State.Accounts.accepted_of_counted (haccounts : s.Accounts log) {request : Nat}
    (hcounted : ¬ Uncounted log request) : s.requests request ≠ none :=
  fun hnone => hcounted ((haccounts.requests request).known hnone)

/-- The calls that returned a timeout are the ones counted as such. -/
theorem State.Accounts.timedOut_iff (haccounts : s.Accounts log) (hsound : s.Sound) (hquiescent : s.Quiescent)
    (request : Nat) : ⟨.timedOut, request⟩ ∈ log ↔ s.submits request = .returned makeTimeoutResult := by
  constructor
  · intro hmem
    have haccepted := haccounts.accepted_of_counted fun huncounted => huncounted.1 hmem
    obtain ⟨result, hreturned, (⟨rfl, -⟩ | ⟨-, hcompleted⟩) | ⟨-, huncounted⟩⟩ :=
      haccounts.agrees hsound hquiescent haccepted
    · exact hreturned
    · exact absurd hcompleted ((haccounts.requests request).once hmem)
    · exact absurd hmem huncounted.1
  · intro hreturned
    have haccounted := (haccounts.requests request).submit
    rw [hreturned] at haccounted
    obtain ⟨-, hne⟩ | ⟨-, (⟨-, hmem⟩ | ⟨hexecuted, -⟩) | ⟨hunexecuted, -⟩⟩ := haccounted
    · exact absurd rfl hne
    · exact hmem
    · exact absurd rfl hexecuted.ne_timeout
    · have hcounted := hunexecuted.not_counted
      cases hcounted

/-- At rest the requests without an execution are those accepted and not
counted. -/
theorem State.Accounts.unexecuted_iff (haccounts : s.Accounts log) (hsound : s.Sound) (hquiescent : s.Quiescent)
    (request : Nat) : request ∈ s.unexecuted ↔ ⟨.accepted, request⟩ ∈ log ∧ Uncounted log request := by
  rw [(haccounts.requests request).accepted]
  constructor
  · rintro ⟨haccepted, result, hreturned, hunexecuted⟩
    refine ⟨haccepted, ?_⟩
    obtain ⟨other, hother, hcounted | ⟨-, huncounted⟩⟩ := haccounts.agrees hsound hquiescent haccepted
    · rw [hreturned, SubmitPc.returned.injEq] at hother
      subst hother
      have hnot := hunexecuted.not_counted
      rw [hcounted.isCounted] at hnot
      cases hnot
    · exact huncounted
  · rintro ⟨haccepted, huncounted⟩
    refine ⟨haccepted, ?_⟩
    obtain ⟨result, hreturned, (⟨-, hmem⟩ | ⟨-, hmem⟩) | ⟨hunexecuted, -⟩⟩ :=
      haccounts.agrees hsound hquiescent haccepted
    · exact absurd hmem huncounted.1
    · exact absurd hmem huncounted.2
    · exact ⟨result, hreturned, hunexecuted⟩

/-- Every accepted request was counted once or answered without an inference. -/
theorem State.Accounts.accepted_split (haccounts : s.Accounts log) (hsound : s.Sound) (hquiescent : s.Quiescent) :
    {request | ⟨.accepted, request⟩ ∈ log} =
      ({request | ⟨.completed, request⟩ ∈ log} ∪ {request | ⟨.timedOut, request⟩ ∈ log}) ∪ s.unexecuted := by
  ext request
  simp only [Set.mem_union, Set.mem_ofPred_eq]
  rw [haccounts.unexecuted_iff hsound hquiescent]
  constructor
  · intro haccepted
    by_cases hcompleted : ⟨.completed, request⟩ ∈ log
    · exact .inl (.inl hcompleted)
    · by_cases htimedOut : ⟨.timedOut, request⟩ ∈ log
      · exact .inl (.inr htimedOut)
      · exact .inr ⟨haccepted, htimedOut, hcompleted⟩
  · rintro ((hcompleted | htimedOut) | ⟨haccepted, -⟩)
    · exact (haccounts.requests request).accepted.mpr
        (haccounts.accepted_of_counted fun huncounted => huncounted.2 hcompleted)
    · exact (haccounts.requests request).accepted.mpr
        (haccounts.accepted_of_counted fun huncounted => huncounted.1 htimedOut)
    · exact haccepted

end Quiescent

/-- The counters account for each request once. At every moment a request was
counted at most once as completed or timed out; and whenever no call of `submit`
is under way, the accepted requests are the completed, the timed out and the
ones answered without an inference, and as many calls returned a timeout as were
counted. -/
theorem counters_account {start : Int} {s : State setup} {log : List Entry}
    (hreach : (counting setup start).Reachable (s, log)) :
    (log.Nodup ∧ (∀ request, ⟨.timedOut, request⟩ ∈ log → ⟨.completed, request⟩ ∉ log) ∧
        s.metrics_.requests_timed_out = log.countP (·.counter = .timedOut) ∧
        s.metrics_.completed_requests = log.countP (·.counter = .completed)) ∧
      (s.Quiescent →
        s.metrics_.requests_accepted =
            s.metrics_.completed_requests + s.metrics_.requests_timed_out + s.unexecuted.ncard ∧
          s.metrics_.requests_timed_out = {request | s.submits request = .returned makeTimeoutResult}.ncard) := by
  obtain ⟨hsound, haccounts⟩ := accounts_reachable hreach
  have hcounters := ledger_counters hreach
  have haccepted : s.metrics_.requests_accepted = _ := hcounters .accepted
  have htimedOut : s.metrics_.requests_timed_out = _ := hcounters .timedOut
  have hcompleted : s.metrics_.completed_requests = _ := hcounters .completed
  refine ⟨⟨haccounts.nodup, fun request => (haccounts.requests request).once, htimedOut, hcompleted⟩, ?_⟩
  intro hquiescent
  refine ⟨?_, ?_⟩
  · have hfinite := entries_finite log
    have hunexecuted : s.unexecuted.Finite := by
      refine (hfinite .accepted).subset ?_
      intro request hmem
      exact ((haccounts.unexecuted_iff hsound hquiescent request).mp hmem).1
    have hdisjoint : Disjoint {request | (⟨.completed, request⟩ : Entry) ∈ log}
        {request | (⟨.timedOut, request⟩ : Entry) ∈ log} := by
      apply Set.disjoint_left.mpr
      intro request hmem hmem'
      exact (haccounts.requests request).once hmem' hmem
    have hdisjoint' : Disjoint ({request | (⟨.completed, request⟩ : Entry) ∈ log} ∪
        {request | (⟨.timedOut, request⟩ : Entry) ∈ log}) s.unexecuted := by
      apply Set.disjoint_left.mpr
      rintro request (hmem | hmem) hmem'
      · exact ((haccounts.unexecuted_iff hsound hquiescent request).mp hmem').2.2 hmem
      · exact ((haccounts.unexecuted_iff hsound hquiescent request).mp hmem').2.1 hmem
    rw [haccepted, hcompleted, htimedOut, ← entries_ncard haccounts.nodup, ← entries_ncard haccounts.nodup,
      ← entries_ncard haccounts.nodup, haccounts.accepted_split hsound hquiescent,
      Set.ncard_union_eq hdisjoint' ((hfinite _).union (hfinite _)) hunexecuted,
      Set.ncard_union_eq hdisjoint (hfinite _) (hfinite _)]
  · rw [htimedOut, ← entries_ncard haccounts.nodup]
    congr 1
    ext request
    exact haccounts.timedOut_iff hsound hquiescent request

/-- One request, queued, executed and answered. -/
theorem counters_account_plainRun :
    ∃ s log, (counting plainSetup 0).Reachable (s, log) ∧
      s.submits 0 = .returned (completedResult 0 0 0 1 {}) ∧ log.Nodup := by
  have hreplay : ∃ history s, System.trace
      (System.guarded (fun s event => scansFresh s event && countsAwaited s event) State.step) []
        ({ now := 0 } : State plainSetup) plainRun = some (history, s) ∧
      s.submits 0 = .returned (completedResult 0 0 0 1 {}) := ⟨_, _, rfl, rfl⟩
  obtain ⟨history, s, htrace, hreturned⟩ := hreplay
  have hrun := (System.run_of_trace htrace).of_guarded
  obtain ⟨log, hreach⟩ := @System.Reachable.logged _ _ _ _ State.counts s hrun.reachable
  exact ⟨s, log, hreach, hreturned, (counters_account hreach).1.1⟩

def submitRow (request : Nat) : List (Event batchingSetup) :=
  [.submit request { inputs := [{ name := "x", datatype := "UINT8", shape := [1], bytes := [0] }] },
    .submitter request, .submitter request, .submitter request, .notifySubmitted request none]

/-- Two requests are batched, and their submitters give up while the executor is
busy. The worker then counts both once more. -/
def batchOverrun : List (Event batchingSetup) :=
  submitRow 0 ++ submitRow 1 ++ List.replicate 4 (.worker firstWorker) ++ [.notifyErased firstWorker none] ++
    List.replicate 13 (.worker firstWorker) ++ [.tick 30000000000] ++ List.replicate 5 (.submitter 0) ++
    List.replicate 5 (.submitter 1) ++ [.infer firstWorker (.ok {})] ++ List.replicate 12 (.worker firstWorker)

/-- Two requests were accepted and two calls returned a timeout, but four
timeouts are counted. -/
theorem batch_overrun_counts_twice :
    ∃ s, (system batchingSetup 0).Reachable s ∧ s.Quiescent ∧ s.queue_ = [] ∧
      (∀ worker, s.workers worker = .popping) ∧ s.metrics_.requests_accepted = 2 ∧
      s.metrics_.requests_timed_out = 4 ∧
      {request | s.submits request = .returned makeTimeoutResult}.ncard = 2 := by
  have hreplay : ∃ s, System.replay State.step ({ now := 0 } : State batchingSetup) batchOverrun = some s ∧
      s.queue_ = [] ∧ s.workers firstWorker = .popping ∧ s.workers secondWorker = .popping ∧
      s.metrics_.requests_accepted = 2 ∧ s.metrics_.requests_timed_out = 4 ∧
      s.submits 0 = .returned makeTimeoutResult ∧ s.submits 1 = .returned makeTimeoutResult ∧
      ∀ request, s.submits (request + 2) = .idle :=
    ⟨_, rfl, rfl, rfl, rfl, rfl, rfl, rfl, rfl, fun _ => rfl⟩
  obtain ⟨s, hreplay, hqueue, hfirst, hsecond, haccepted, htimedOut, hzero, hone, hothers⟩ := hreplay
  refine ⟨s, System.reachable_of_replay hreplay, ?_, hqueue, ?_, haccepted, htimedOut, ?_⟩
  · intro request
    match request with
    | 0 => exact .inr ⟨_, hzero⟩
    | 1 => exact .inr ⟨_, hone⟩
    | request + 2 => exact .inl (hothers request)
  · intro worker
    match worker with
    | ⟨0, _⟩ => exact hfirst
    | ⟨1, _⟩ => exact hsecond
  · have hset : {request | s.submits request = .returned makeTimeoutResult} = {0, 1} := by
      ext request
      match request with
      | 0 => simp [hzero]
      | 1 => simp [hone]
      | request + 2 => simp [hothers]
    rw [hset]
    exact Set.ncard_pair (by decide)

end neuriplo.batch
