import NeuriploRuntime.Llm.Answering

open neuriplo.scheduler neuriplo.tensor transition

namespace neuriplo.llm

variable {setup : Setup}

/-- The request a worker is about to count as timed out. -/
def WorkerPc.counts : WorkerPc → Option Nat
  | .finishing request (.countTimedOut :: _) => some request
  | _ => none

/-- The request a step counts as timed out. -/
def State.countsTimedOut (s : State setup) : Event setup → Option Nat
  | .submitter request =>
    match s.submits request with
    | .expiring .countTimedOut => some request
    | _ => none
  | .worker worker => (s.workers worker).counts
  | _ => none

/-- What is counted as timed out is cut off. -/
theorem State.Sound.countsTimedOut {past : List (State setup)} {s : State setup} (hsound : s.Sound past)
    {event : Event setup} {request : Nat} (hcounts : s.countsTimedOut event = some request) : s.CutOff request := by
  cases event with
  | submitter call =>
    simp only [State.countsTimedOut] at hcounts
    split at hcounts <;> cases hcounts
    rename_i hpc
    have hcall := hsound.submits request
    rwa [hpc] at hcall
  | worker worker =>
    simp only [State.countsTimedOut] at hcounts
    have hworker := hsound.workers worker
    unfold WorkerPc.counts at hcounts
    split at hcounts <;> cases hcounts
    rename_i hpc
    rw [hpc] at hworker
    exact hworker _ List.mem_cons_self
  | _ => cases hcounts

theorem WorkerPc.Quiet.counts {pc pc' : WorkerPc} (hquiet : pc.Quiet pc') : pc.counts = none := by
  cases hquiet <;> rfl

/-- One worker's step counts what it is about to count. -/
theorem State.Works.countsTimedOut {s s' : State setup} {worker : Fin setup.config.kv_cache_slots}
    (hworks : s.Works worker s') :
    s'.metrics_.requests_timed_out =
      s.metrics_.requests_timed_out + if (s.workers worker).counts.isSome then 1 else 0 := by
  have hsame {t : State setup} {pc : WorkerPc} (hpc : s.workers worker = pc) (hcounts : pc.counts = none)
      (hmetrics : t.metrics_.requests_timed_out = s.metrics_.requests_timed_out) :
      t.metrics_.requests_timed_out =
        s.metrics_.requests_timed_out + if (s.workers worker).counts.isSome then 1 else 0 := by
    rw [hpc, hcounts, hmetrics]
    rfl
  cases hworks with
  | quiet pc' hquiet => exact hsame rfl hquiet.counts rfl
  | popped request queue_ hpc => exact hsame hpc rfl rfl
  | late request pending hpc => exact hsame hpc rfl rfl
  | locked request stage timedOut hpc => exact hsame hpc rfl rfl
  | parked request hpc => exact hsame hpc rfl rfl
  | refused request stage hpc => exact hsame hpc rfl rfl
  | acquired request hpc => exact hsame hpc rfl rfl
  | drained request hpc => exact hsame hpc rfl rfl
  | overdue request pending hpc => exact hsame hpc rfl rfl
  | selected request hpc => exact hsame hpc rfl rfl
  | readToken request executor_index execution_started response hpc => exact hsame hpc rfl rfl
  | executed request executor_index execution_started response completed hpc => exact hsame hpc rfl rfl
  | performed request op ops pending hpc =>
    cases op with
    | countTimedOut =>
      rw [hpc]
      rfl
    | settle =>
      simp only [State.perform]
      split
      · exact hsame hpc rfl rfl
      · split <;> exact hsame hpc rfl rfl
    | setValue =>
      simp only [State.perform]
      split <;> exact hsame hpc rfl rfl
    | setToken => exact hsame hpc rfl rfl
    | decrementInflight => exact hsame hpc rfl rfl
    | releaseDecodeSlot =>
      have hmetrics (active_decodes_ : Nat) :
          ({ s with active_decodes_ }.setWorker worker (.finishing request ops)).metrics_ = s.metrics_ := rfl
      exact hsame hpc rfl (congrArg SchedulerMetrics.requests_timed_out (hmetrics (fetchSub s.active_decodes_)))
    | recordLatencies => exact hsame hpc rfl rfl
    | fulfillResult => exact hsame hpc rfl rfl

theorem State.Submits.countsTimedOut {s s' : State setup} {request : Nat} (hsubmits : s.Submits request s') :
    s'.metrics_.requests_timed_out =
      s.metrics_.requests_timed_out + if (s.countsTimedOut (.submitter request)).isSome then 1 else 0 := by
  have hsame {t : State setup} {pc : SubmitPc} (hpc : s.submits request = pc) (hcounts : pc ≠ .expiring .countTimedOut)
      (hmetrics : t.metrics_.requests_timed_out = s.metrics_.requests_timed_out) :
      t.metrics_.requests_timed_out =
        s.metrics_.requests_timed_out + if (s.countsTimedOut (.submitter request)).isSome then 1 else 0 := by
    have hnone : s.countsTimedOut (.submitter request) = none := by
      simp only [State.countsTimedOut, hpc]
    rw [hnone, hmetrics]
    rfl
  cases hsubmits with
  | early pc' metrics_ hpc hpc' hmetrics =>
    refine hsame rfl ?_ hmetrics
    intro hexpiring
    rw [hexpiring] at hpc
    cases hpc
  | counted hpc =>
    simp only [State.countsTimedOut, hpc]
    rfl
  | enqueued call enqueued_at deadline hpc => exact hsame hpc nofun rfl
  | answered pending result hpc => exact hsame hpc nofun rfl
  | late pending hpc => exact hsame hpc nofun rfl
  | tokenSet hpc => exact hsame hpc nofun rfl
  | cancelled pending hpc => exact hsame hpc nofun rfl
  | timedOut hpc => exact hsame hpc nofun rfl

/-- Every step raises the counter exactly when it counts a timeout. -/
theorem State.step_countsTimedOut {s s' : State setup} {event : Event setup} (hstep : s.step event = some s') :
    s'.metrics_.requests_timed_out =
      s.metrics_.requests_timed_out + if (s.countsTimedOut event).isSome then 1 else 0 := by
  cases event with
  | tick | cancel | stopAccepting =>
    cases hstep
    rfl
  | submit request call =>
    simp only [step] at hstep
    split at hstep <;> cases hstep
    rfl
  | submitter request => exact (State.runSubmit_submits hstep).countsTimedOut
  | worker worker => exact (State.runWorker_works hstep).countsTimedOut
  | infer worker outcome =>
    rw [(State.infer_works hstep).countsTimedOut]
    cases hpc : s.workers worker with
    | executing => rfl
    | _ => simp [State.step, infer, hpc] at hstep
  | beginDrain thread =>
    simp only [step] at hstep
    split at hstep <;> cases hstep
    rfl
  | drain thread => cases State.runDrain_drains hstep <;> rfl

end neuriplo.llm
