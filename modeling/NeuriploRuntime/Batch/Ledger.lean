import Mathlib.Data.Set.Card
import NeuriploRuntime.Batch.Executors
import NeuriploRuntime.Transition.Log

open neuriplo.scheduler neuriplo.tensor transition

namespace neuriplo.batch

variable {setup : Setup}

/-- The counters that are about single requests. -/
inductive Counter where
  | accepted
  | timedOut
  | completed
deriving DecidableEq, Repr

def Counter.read (metrics_ : SchedulerMetrics) : Counter → Nat
  | .accepted => metrics_.requests_accepted
  | .timedOut => metrics_.requests_timed_out
  | .completed => metrics_.completed_requests

/-- One increment of a counter, with the request it is for. -/
structure Entry where
  counter : Counter
  request : Nat
deriving DecidableEq, Repr

/-- What the first of a worker's straight-line steps counts. -/
def countedBy : List WorkerOp → Option Entry
  | .countTimedOut request :: _ => some ⟨.timedOut, request⟩
  | .recordLatencies request _ _ :: _ => some ⟨.completed, request⟩
  | _ => none

/-- What a step counts. -/
def State.counts (s : State setup) : Event setup → Option Entry
  | .submitter request =>
    match s.submits request with
    | .enqueuing _ _ _ =>
      if s.draining_ then none
      else if setup.config.max_queue_size ≤ s.queue_.length then none
      else some ⟨.accepted, request⟩
    | .expiring .countTimedOut => some ⟨.timedOut, request⟩
    | _ => none
  | .worker worker => countedBy (s.workers worker).ops
  | _ => none

section Steps

variable {s s' : State setup} {worker : Fin setup.config.instances}

/-- What is counted by a step that touches no counter. -/
theorem counter_unchanged {metrics_ metrics_' : SchedulerMetrics} {entry : Option Entry} (hsame : metrics_' = metrics_)
    (hnone : entry = none) (counter : Counter) :
    counter.read metrics_' = counter.read metrics_ + entry.toList.countP (·.counter = counter) := by
  rw [hsame, hnone]
  rfl

/-- A straight-line step raises the counters as the ledger says. -/
theorem State.perform_counts {next : List WorkerOp → WorkerPc} {op : WorkerOp} {ops : List WorkerOp}
    (hperform : s.perform worker next ops op = some s') (counter : Counter) :
    counter.read s'.metrics_ =
      counter.read s.metrics_ + (countedBy (op :: ops)).toList.countP (·.counter = counter) := by
  cases op with
  | notifyOne => cases hperform
  | countTimedOut request =>
    cases hperform
    cases counter <;> rfl
  | recordLatencies request execution_started execution_finished =>
    cases hperform
    cases counter <;> rfl
  | recordBatchExecution execution_ns =>
    cases hperform
    cases counter <;> rfl
  | setValue request result =>
    simp only [State.perform] at hperform
    split at hperform <;> cases hperform
    · exact counter_unchanged rfl rfl counter
    · exact counter_unchanged rfl rfl counter
  | _ =>
    cases hperform
    exact counter_unchanged rfl rfl counter

theorem countedBy_of_quiet {pc pc' : WorkerPc} (hquiet : pc.Quiet pc') : countedBy pc.ops = none := by
  cases hquiet <;> rfl

/-- A worker's step raises the counters as the ledger says. -/
theorem State.runWorker_counts (hstep : s.runWorker worker = some s') (counter : Counter) :
    counter.read s'.metrics_ =
      counter.read s.metrics_ + (countedBy (s.workers worker).ops).toList.countP (·.counter = counter) := by
  have hnone {pc : WorkerPc} (hpc : s.workers worker = pc) (hops : countedBy pc.ops = none) :
      countedBy (s.workers worker).ops = none := by
    rw [hpc]
    exact hops
  have hworks := State.runWorker_works hstep
  cases hworks with
  | quiet pc' hquiet => exact counter_unchanged rfl (countedBy_of_quiet hquiet) counter
  | popped _ _ hpc => exact counter_unchanged rfl (hnone hpc rfl) counter
  | exited hpc => exact counter_unchanged rfl (hnone hpc rfl) counter
  | scanned formation delay_elapsed position made_progress hpc =>
    obtain hpc | ⟨iterator, hpc⟩ := hpc
    · exact counter_unchanged rfl (hnone hpc rfl) counter
    · exact counter_unchanged rfl (hnone hpc rfl) counter
  | stale _ _ _ hpc => exact counter_unchanged rfl (hnone hpc rfl) counter
  | formed formation metrics_ hpc =>
    rw [hnone hpc rfl]
    simp only [State.runWorker, hpc, Option.some.injEq] at hstep
    have hmetrics := congrArg State.metrics_ hstep
    rw [← hmetrics]
    change counter.read (s.recordBatch formation).metrics_ = _
    unfold State.recordBatch
    split <;> cases counter <;> rfl
  | processing _ hpc => exact counter_unchanged rfl (hnone hpc rfl) counter
  | overdue _ _ _ _ hpc => exact counter_unchanged rfl (hnone hpc rfl) counter
  | dropped _ _ _ hpc => exact counter_unchanged rfl (hnone hpc rfl) counter
  | late _ _ _ hpc => exact counter_unchanged rfl (hnone hpc rfl) counter
  | active _ _ _ hpc => exact counter_unchanged rfl (hnone hpc rfl) counter
  | unmerged _ _ hpc => exact counter_unchanged rfl (hnone hpc rfl) counter
  | singleDropped _ hpc => exact counter_unchanged rfl (hnone hpc rfl) counter
  | singleLate _ hpc => exact counter_unchanged rfl (hnone hpc rfl) counter
  | selected _ hpc => exact counter_unchanged rfl (hnone hpc rfl) counter
  | executed _ _ _ _ _ hpc | unsplit _ _ _ _ _ hpc => exact counter_unchanged rfl (hnone hpc rfl) counter
  | performed next op ops hperforms hperform =>
    rw [hperforms.ops.1]
    exact State.perform_counts hperform counter

/-- A step of `submit` raises the counters as the ledger says. -/
theorem State.runSubmit_counts {request : Nat} (hstep : s.runSubmit request = some s') (counter : Counter) :
    counter.read s'.metrics_ =
      counter.read s.metrics_ + (s.counts (.submitter request)).toList.countP (·.counter = counter) := by
  unfold State.runSubmit at hstep
  split at hstep
  case h_3 call enqueued_at deadline hpc =>
    cases hstep
    simp only [State.counts, hpc, State.enqueue]
    split
    · exact counter_unchanged rfl rfl counter
    · split <;> cases counter <;> rfl
  case h_4 hpc =>
    have hcounts : s.counts (.submitter request) = none := by simp only [State.counts, hpc]
    split at hstep
    · cases hstep
      exact counter_unchanged rfl hcounts counter
    · split at hstep <;> cases hstep
      exact counter_unchanged rfl hcounts counter
  case h_7 hpc =>
    cases hstep
    simp only [State.counts, hpc]
    cases counter <;> rfl
  case h_9 => cases hstep
  all_goals
    rename_i hpc
    have hcounts : s.counts (.submitter request) = none := by simp only [State.counts, hpc]
    cases hstep
    exact counter_unchanged rfl hcounts counter

/-- A step raises the counters as it is noted. -/
theorem State.step_counts {event : Event setup} (hstep : s.step event = some s') (counter : Counter) :
    counter.read s'.metrics_ =
      counter.read s.metrics_ + (s.counts event).toList.countP (·.counter = counter) := by
  cases event with
  | tick | cancel =>
    cases hstep
    exact counter_unchanged rfl rfl counter
  | submitter request => exact State.runSubmit_counts hstep counter
  | worker worker => exact State.runWorker_counts hstep counter
  | notifySubmitted request woken =>
    simp only [State.step, State.notifySubmitted] at hstep
    split at hstep
    · obtain ⟨t, hnotify, rfl⟩ := Option.map_eq_some_iff.mp hstep
      exact counter_unchanged (by rw [State.notifyOne_eq hnotify]; rfl) rfl counter
    · cases hstep
  | notifyErased worker woken =>
    obtain ⟨t, pc', hnotify, -, rfl⟩ := State.notifyErased_quiet hstep
    exact counter_unchanged (by rw [State.notifyOne_eq hnotify]; rfl) rfl counter
  | infer worker outcome =>
    obtain ⟨pc', -, rfl⟩ := State.infer_quiet hstep
    exact counter_unchanged rfl rfl counter
  | drain thread =>
    simp only [State.step, State.runDrain] at hstep
    split at hstep
    case h_2 =>
      split at hstep <;> cases hstep
      exact counter_unchanged rfl rfl counter
    case h_5 =>
      split at hstep <;> cases hstep
      · exact counter_unchanged rfl rfl counter
      · exact counter_unchanged rfl rfl counter
    case h_6 => cases hstep
    all_goals
      cases hstep
      exact counter_unchanged rfl rfl counter
  | submit | wake | undefined | stopAccepting | beginDrain =>
    simp only [State.step] at hstep
    split at hstep <;> cases hstep
    exact counter_unchanged rfl rfl counter

end Steps

/-- The scheduler with a log of what is counted. -/
def ledger (setup : Setup) (start : Int) (condition : State setup → Event setup → Prop) :
    System (State setup × List Entry) (Event setup) :=
  ((system setup start).restrict condition).logged State.counts

/-- The counters are the numbers of entries in the log. -/
theorem ledger_counters {start : Int} {condition : State setup → Event setup → Prop} {s : State setup}
    {log : List Entry} (hreach : (ledger setup start condition).Reachable (s, log)) (counter : Counter) :
    counter.read s.metrics_ = log.countP (·.counter = counter) := by
  refine @System.Reachable.counter_of_logged _ _ _ ((system setup start).restrict condition) State.counts
    (fun s => counter.read s.metrics_) _ ?_ ?_ s log hreach
  · rintro s rfl
    cases counter <;> rfl
  · intro s event s' hstep
    exact State.step_counts hstep.1 counter

/-- The requests that were counted once are as many as the counter says. -/
theorem entries_ncard {log : List Entry} (hnodup : log.Nodup) (counter : Counter) :
    {request | ⟨counter, request⟩ ∈ log}.ncard = log.countP (·.counter = counter) := by
  have hset : {request | (⟨counter, request⟩ : Entry) ∈ log} =
      ((log.filter (·.counter = counter)).map Entry.request).toFinset := by
    ext request
    simp only [Set.mem_ofPred_eq, List.coe_toFinset, List.mem_map, List.mem_filter, decide_eq_true_eq]
    constructor
    · intro hmem
      exact ⟨_, ⟨hmem, rfl⟩, rfl⟩
    · rintro ⟨⟨_, _⟩, ⟨hmem, rfl⟩, rfl⟩
      exact hmem
  have hdistinct : ((log.filter (·.counter = counter)).map Entry.request).Nodup := by
    refine List.Nodup.map_on ?_ (hnodup.filter _)
    rintro ⟨_, _⟩ hfirst ⟨_, _⟩ hsecond rfl
    simp only [List.mem_filter, decide_eq_true_eq] at hfirst hsecond
    rw [hfirst.2, hsecond.2]
  rw [hset, Set.ncard_coe_finset, List.toFinset_card_of_nodup hdistinct, List.length_map,
    List.countP_eq_length_filter]

theorem entries_finite (log : List Entry) (counter : Counter) : {request | ⟨counter, request⟩ ∈ log}.Finite := by
  refine ((log.map Entry.request).toFinset.finite_toSet).subset ?_
  intro request hmem
  simp only [List.coe_toFinset, Set.mem_ofPred_eq, List.mem_map]
  exact ⟨_, hmem, rfl⟩

end neuriplo.batch
