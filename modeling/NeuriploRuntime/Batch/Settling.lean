import NeuriploRuntime.Batch.Scanning
import NeuriploRuntime.Batch.Slices

open neuriplo.scheduler neuriplo.tensor transition

namespace neuriplo.batch

variable {setup : Setup}

/-- A worker whose executor has returned for a batch cuts no slice out of the
response that ends before its start. -/
def splitsForward (s : State setup) : Event setup → Bool
  | .worker worker =>
    match s.workers worker with
    | .executed (.batched active_batch merged) _ _ response =>
      !response.ok || slicesForward response merged.batch_sizes active_batch.length
    | _ => true
  | _ => true

/-- Workers use valid iterators only and split forward only. -/
def steadySteps (s : State setup) (event : Event setup) : Bool := scansFresh s event && splitsForward s event

/-- The scheduler all of whose steps are such. -/
def steady (setup : Setup) (start : Int) : System (State setup) (Event setup) :=
  (system setup start).restrict fun s event => steadySteps s event = true

/-- No exception has left the worker's thread, and none is about to. -/
def WorkerPc.Settles : WorkerPc → Prop
  | .throwing _ _ => False
  | .terminated _ => False
  | _ => True

section Steps

variable {s s' : State setup} {worker : Fin setup.config.instances}

/-- A worker throws only when it is to cut a slice backward. -/
theorem State.settleJob_throws {job : Job} {executor_index : Nat} {execution_started : Int}
    {response : ExecutionResponse} {ops : List WorkerOp}
    (hpc : s.workers worker = .executed job executor_index execution_started response)
    (hsettle : s.settleJob job executor_index execution_started response = .throwing job.members ops) :
    splitsForward s (.worker worker) = false := by
  cases job with
  | single request => cases hsettle
  | batched active_batch merged =>
    simp only [settleJob] at hsettle
    split at hsettle
    · cases hsettle
    · rename_i hthrew
      have hbackward :
          ¬ (response.ok = false ∨ slicesForward response merged.batch_sizes active_batch.length = true) := by
        have hsplits := @splitExecutionResponse_isOk response merged.batch_sizes
          (active_batch.map fun request => (s.pending request).request)
        rw [List.length_map, hthrew] at hsplits
        exact hsplits.not.mp (by rintro ⟨responses, ⟨⟩⟩)
      simp only [splitsForward, hpc, Bool.or_eq_false_iff, Bool.not_eq_false']
      exact ⟨Bool.eq_true_of_not_eq_false fun hok => hbackward (.inl hok),
        Bool.eq_false_iff.mpr fun hforward => hbackward (.inr hforward)⟩

/-- A worker that is to cut a slice backward ends the process with its next steps,
and the promises of its batch stay as they are. -/
theorem State.terminates_of_backward (hbackward : splitsForward s (.worker worker) = false) :
    ∃ active_batch, (∃ merged executor_index execution_started response,
        s.workers worker = .executed (.batched active_batch merged) executor_index execution_started response) ∧
      ∃ s', System.replay State.step s (List.replicate 4 (.worker worker)) = some s' ∧
        s'.workers worker = .terminated active_batch ∧ s'.requests = s.requests := by
  simp only [splitsForward] at hbackward
  split at hbackward
  · rename_i active_batch merged executor_index execution_started response hpc
    obtain ⟨hok, hslices⟩ := Bool.or_eq_false_iff.mp hbackward
    have hthrew : splitExecutionResponse response merged.batch_sizes
        (active_batch.map fun request => (s.pending request).request) = .error .thrown := by
      cases hsplit : splitExecutionResponse response merged.batch_sizes
          (active_batch.map fun request => (s.pending request).request) with
      | error error =>
        cases error
        rfl
      | ok responses =>
        obtain hfailed | hforward := splitExecutionResponse_isOk.mp ⟨responses, hsplit⟩
        · rw [hfailed] at hok
          cases hok
        · rw [List.length_map, hslices] at hforward
          cases hforward
    refine ⟨active_batch, ⟨merged, executor_index, execution_started, response, hpc⟩, ?_⟩
    simp only [List.replicate, System.replay, step, runWorker, hpc, settleJob, hthrew, Option.bind_some,
      setWorker_self, perform]
    exact ⟨_, rfl, setWorker_self .., rfl⟩
  · cases hbackward

/-- A quiet step leaves the worker settling. -/
theorem WorkerPc.Quiet.settles {pc pc' : WorkerPc} (hquiet : pc.Quiet pc') (hsettles : pc.Settles) : pc'.Settles := by
  cases hquiet with
  | threw => exact hsettles.elim
  | _ => trivial

/-- A straight-line step leaves the worker settling. -/
theorem WorkerPc.Performs.settles {pc : WorkerPc} {next : List WorkerOp → WorkerPc} {ops : List WorkerOp}
    (hperforms : pc.Performs next ops) (hsettles : pc.Settles) (ops' : List WorkerOp) : (next ops').Settles := by
  cases hperforms with
  | throwing => exact hsettles.elim
  | _ => trivial

theorem wakeWorker_settles {pc : WorkerPc} (hsettles : pc.Settles) : (State.wakeWorker pc).Settles := by
  cases pc <;> trivial

/-- A worker's step that cuts no slice backward throws nothing. -/
theorem State.Sound.work_settles (hsound : s.Sound) (hworks : s.Works worker s')
    (hsettles : (s.workers worker).Settles) (hforward : splitsForward s (.worker worker) = true) :
    (s'.workers worker).Settles := by
  cases hworks with
  | quiet pc' hquiet =>
    rw [setWorker_self]
    exact hquiet.settles hsettles
  | scanned =>
    rw [runScan, setWorker_self]
    split
    · split
      · trivial
      · split <;> trivial
    · trivial
    · trivial
  | unsplit job executor_index execution_started response ops hpc hsettle =>
    rw [settleJob_throws hpc hsettle] at hforward
    cases hforward
  | performed next op ops hperforms hperform =>
    cases State.perform_performed hperform with
    | kept | dropped | set =>
      rw [setWorker_self]
      exact hperforms.settles hsettles _
    | terminated request result hop hclosed =>
      exact absurd ((hsound.workers worker).open_of_setValue hperforms (by rw [hop]; rfl)) hclosed
  | _ =>
    rw [setWorker_self]
    trivial

/-- A step that uses valid iterators and cuts no slice backward lets no exception
out of a thread. -/
theorem State.Sound.step_settles (hsound : s.Sound) (hsettles : ∀ worker, (s.workers worker).Settles)
    {event : Event setup} (hforward : splitsForward s event = true) (hstep : s.step event = some s')
    (worker : Fin setup.config.instances) : (s'.workers worker).Settles := by
  by_cases hactor : event.actor = some worker
  · cases event with
    | worker acting =>
      obtain rfl : acting = worker := Option.some.inj hactor
      exact hsound.work_settles (State.runWorker_works hstep) (hsettles acting) hforward
    | notifyErased acting woken =>
      obtain rfl : acting = worker := Option.some.inj hactor
      obtain ⟨t, pc', hnotify, hquiet, rfl⟩ := State.notifyErased_quiet hstep
      rw [State.setWorker_self]
      apply hquiet.settles
      obtain hsame | hwoken := (State.notifyOne_leaves hnotify).workers acting
      · rw [hsame]
        exact hsettles acting
      · rw [hwoken]
        exact wakeWorker_settles (hsettles acting)
    | infer acting outcome =>
      obtain rfl : acting = worker := Option.some.inj hactor
      obtain ⟨pc', hquiet, rfl⟩ := State.infer_quiet hstep
      rw [State.setWorker_self]
      exact hquiet.settles (hsettles acting)
    | undefined acting formation queue_ =>
      rw [hsound.step_undefined] at hstep
      cases hstep
    | _ => cases hactor
  · obtain hsame | hwoken := hsound.step_others hstep hactor
    · rw [hsame]
      exact hsettles worker
    · rw [hwoken]
      exact wakeWorker_settles (hsettles worker)

end Steps

section Runs

variable {start : Int} {s : State setup}

theorem steady_scanning {event : Event setup} (hcondition : steadySteps s event = true) :
    scansFresh s event = true := (Bool.and_eq_true_iff.mp hcondition).1

/-- What is reachable by steady steps is reachable with valid iterators. -/
theorem scanning_of_steady (hreach : (steady setup start).Reachable s) : (scanning setup start).Reachable s :=
  hreach.weaken fun _ _ => steady_scanning

theorem scanning_run_of_steady {history : List (State setup)} (hrun : (steady setup start).Run history s) :
    (scanning setup start).Run history s :=
  hrun.weaken fun _ _ => steady_scanning

/-- In every run of steady steps the workers settle. -/
theorem settles_reachable (hreach : (steady setup start).Reachable s) (worker : Fin setup.config.instances) :
    (s.workers worker).Settles := by
  suffices ∀ worker, (s.workers worker).Settles from this worker
  refine @System.Reachable.invariant _ _ (steady setup start) (fun s => ∀ worker, (s.workers worker).Settles) ?_ ?_
    s hreach
  · rintro s rfl worker
    trivial
  · intro s event s' hreach hsettles hstep worker
    have hsound := sound_reachable (scanning_of_steady hreach)
    exact hsound.step_settles hsettles (Bool.and_eq_true_iff.mp hstep.2).2 hstep.1 worker

end Runs

end neuriplo.batch
