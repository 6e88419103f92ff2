import NeuriploRuntime.Batch.Moves
import NeuriploRuntime.Fallible.Except

open neuriplo.scheduler neuriplo.tensor transition fallible

namespace neuriplo.batch

variable {setup : Setup}

/-- The job that a worker has for an executor. -/
def WorkerPc.job : WorkerPc → Option Job
  | .selecting job => some job
  | .starting job _ => some job
  | .executing job _ _ => some job
  | .executed job _ _ _ => some job
  | _ => none

/-- A merged request never carries generation parameters. -/
def Job.Plain : Job → Prop
  | .single _ => True
  | .batched _ merged => merged.request.llm_params = none

/-- A merge has no generation parameters. -/
theorem mergeExecutionRequests_params {requests : List ExecutionRequest} {merged : MergedBatch}
    (hmerge : mergeExecutionRequests requests = .ok merged) : merged.request.llm_params = none := by
  unfold mergeExecutionRequests at hmerge
  split at hmerge
  · cases hmerge
  · split at hmerge
    · cases hmerge
    · dsimp only at hmerge
      split at hmerge
      · cases hmerge
      · obtain ⟨inputs, -, hmerged⟩ := bind_ok hmerge
        cases hmerged
        rfl

/-- What is dispatched is a single request, or a merge without parameters. -/
theorem dispatch_plain (s : State setup) (active_batch : List Nat) {job : Job}
    (hjob : (s.dispatch active_batch).job = some job) : job.Plain := by
  unfold State.dispatch at hjob
  split at hjob
  · cases hjob
  · cases hjob
  · split at hjob
    · cases hjob
    · cases hjob
      exact mergeExecutionRequests_params ‹_›

theorem wakeWorker_job (pc : WorkerPc) : (State.wakeWorker pc).job = pc.job := by
  cases pc <;> rfl

/-- A quiet step takes on no job that is not plain. -/
theorem WorkerPc.Quiet.job {pc pc' : WorkerPc} (hquiet : pc.Quiet pc')
    (hcollecting : ∀ active_batch, pc ≠ .collecting [] active_batch) {job : Job} (hjob : pc'.job = some job) :
    pc.job = some job ∨ job.Plain := by
  cases hquiet with
  | several active_batch merged => exact absurd rfl (hcollecting active_batch)
  | singleInTime request =>
    cases hjob
    exact .inr trivial
  | started job executor_index execution_started => exact .inl hjob
  | inferred job executor_index execution_started response => exact .inl hjob
  | _ => cases hjob

section Steps

variable {s s' : State setup} {worker : Fin setup.config.instances}

/-- A worker that performs straight-line steps has no job. -/
theorem State.performed_job {next : List WorkerOp → WorkerPc} {op : WorkerOp} {ops : List WorkerOp}
    (hperforms : (s.workers worker).Performs next (op :: ops)) (hperform : s.perform worker next ops op = some s') :
    ∃ pc' : WorkerPc, s'.workers = Function.update s.workers worker pc' ∧ pc'.job = none := by
  have hnext (ops' : List WorkerOp) : (next ops').job = none := by
    generalize s.workers worker = pc at hperforms
    cases hperforms <;> rfl
  cases op with
  | notifyOne => cases hperform
  | setValue request result =>
    simp only [State.perform] at hperform
    split at hperform <;> cases hperform
    · exact ⟨_, rfl, hnext _⟩
    · exact ⟨_, rfl, rfl⟩
  | _ =>
    cases hperform
    exact ⟨_, rfl, hnext _⟩

/-- A worker's step leads to a job of its own, or to one for a single request. -/
theorem State.Works.job (hworks : s.Works worker s')
    (hcollecting : ∀ active_batch, s.workers worker ≠ .collecting [] active_batch) :
    ∃ pc' : WorkerPc, s'.workers = Function.update s.workers worker pc' ∧
      ∀ job, pc'.job = some job → (s.workers worker).job = some job ∨ job.Plain := by
  have hnone {t : State setup} {pc' : WorkerPc} (hworkers : t.workers = Function.update s.workers worker pc')
      (hpc' : pc'.job = none) : ∃ pc' : WorkerPc, t.workers = Function.update s.workers worker pc' ∧
        ∀ job, pc'.job = some job → (s.workers worker).job = some job ∨ job.Plain := by
    refine ⟨pc', hworkers, ?_⟩
    intro job hjob
    rw [hpc'] at hjob
    cases hjob
  cases hworks with
  | quiet pc' hquiet => exact ⟨pc', rfl, fun job hjob => hquiet.job hcollecting hjob⟩
  | scanned formation delay_elapsed position made_progress hpc =>
    refine hnone rfl ?_
    split
    · split
      · rfl
      · split <;> rfl
    · rfl
    · rfl
  | selected job hpc =>
    refine ⟨.starting job _, rfl, ?_⟩
    rintro other ⟨⟩
    rw [hpc]
    exact .inl rfl
  | performed next op ops hperforms hperform =>
    obtain ⟨pc', hworkers, hpc'⟩ := State.performed_job hperforms hperform
    exact hnone hworkers hpc'
  | _ => exact hnone rfl rfl

/-- A job is either a step old or plain. -/
theorem State.step_job {event : Event setup} (hstep : s.step event = some s') {other : Fin setup.config.instances}
    {job : Job} (hjob : (s'.workers other).job = some job) : (s.workers other).job = some job ∨ job.Plain := by
  have hupdated {t : State setup} {acting : Fin setup.config.instances} {pc' : WorkerPc}
      (hworkers : s'.workers = Function.update t.workers acting pc')
      (hsame : (t.workers other).job = (s.workers other).job)
      (hpc' : other = acting → pc'.job = some job → (s.workers other).job = some job ∨ job.Plain) :
      (s.workers other).job = some job ∨ job.Plain := by
    rw [hworkers] at hjob
    by_cases hother : other = acting
    · rw [hother, Function.update_self] at hjob
      exact hpc' hother hjob
    · rw [Function.update_of_ne hother, hsame] at hjob
      exact .inl hjob
  have hleft {t : State setup} (hleaves : s.Leaves t) : (t.workers other).job = (s.workers other).job := by
    obtain hkept | hwoken := hleaves.workers other
    · rw [hkept]
    · rw [hwoken, wakeWorker_job]
  cases event with
  | worker acting =>
    by_cases hcollecting : ∃ active_batch, s.workers acting = .collecting [] active_batch
    · obtain ⟨active_batch, hpc⟩ := hcollecting
      simp only [State.step, State.runWorker, hpc, Option.some.injEq] at hstep
      subst hstep
      exact hupdated rfl rfl fun _ hdispatched => .inr (dispatch_plain s active_batch hdispatched)
    · obtain ⟨pc', hworkers, hpc'⟩ := (State.runWorker_works hstep).job (not_exists.mp hcollecting)
      refine hupdated hworkers rfl ?_
      rintro rfl hactor
      exact hpc' job hactor
  | notifyErased acting woken =>
    simp only [State.step, State.notifyErased] at hstep
    split at hstep
    · obtain ⟨t, hnotify, rfl⟩ := Option.map_eq_some_iff.mp hstep
      exact hupdated rfl (hleft (State.notifyOne_leaves hnotify)) fun _ hactor => by cases hactor
    · obtain ⟨t, hnotify, rfl⟩ := Option.map_eq_some_iff.mp hstep
      exact hupdated rfl (hleft (State.notifyOne_leaves hnotify)) fun _ hactor => by cases hactor
    · cases hstep
  | infer acting outcome =>
    simp only [State.step, State.infer] at hstep
    split at hstep
    · rename_i hpc
      cases hstep
      refine hupdated rfl rfl ?_
      rintro rfl hactor
      rw [hpc]
      exact .inl hactor
    · cases hstep
  | undefined acting formation queue_ =>
    simp only [State.step] at hstep
    split at hstep <;> cases hstep
    exact hupdated rfl rfl fun _ hactor => by cases hactor
  | _ =>
    rw [hleft (State.step_leaves hstep rfl)] at hjob
    exact .inl hjob

end Steps

/-- What an executor is handed for several requests is plain. -/
theorem plain_of_reachable {start : Int} {s : State setup} (hreach : (system setup start).Reachable s)
    {worker : Fin setup.config.instances} {job : Job} (hjob : (s.workers worker).job = some job) : job.Plain := by
  refine @System.Reachable.invariant _ _ (system setup start)
    (fun s => ∀ worker job, (s.workers worker).job = some job → job.Plain) ?_ ?_ s hreach worker job hjob
  · rintro s rfl worker job ⟨⟩
  · intro s event s' _ hplain hstep other job hjob
    obtain hwas | hnew := State.step_job hstep hjob
    · exact hplain other job hwas
    · exact hnew

end neuriplo.batch
