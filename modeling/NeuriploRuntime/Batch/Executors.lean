import NeuriploRuntime.Batch.Moves
import NeuriploRuntime.Scheduler.ExecutorUse

open neuriplo.scheduler neuriplo.tensor transition

namespace neuriplo.batch

variable {setup : Setup}

def WorkerOp.releases : WorkerOp → Option Nat
  | .release executor_index => some executor_index
  | _ => none

/-- The straight-line steps a worker has left to do. -/
def WorkerPc.ops : WorkerPc → List WorkerOp
  | .expiring _ _ _ ops => ops
  | .sweepExpiring _ _ _ _ ops => ops
  | .finishing ops => ops
  | .throwing _ ops => ops
  | _ => []

/-- The executor that a worker has selected and not released. -/
def WorkerPc.selected : WorkerPc → Option Nat
  | .starting _ executor_index => some executor_index
  | .executing _ executor_index _ => some executor_index
  | .executed _ executor_index _ _ => some executor_index
  | pc => pc.ops.findSome? (·.releases)

/-- How a `ModelScheduler` uses its executors. -/
def executorUse : ExecutorUse WorkerPc WorkerOp where
  ops := WorkerPc.ops
  releases := WorkerOp.releases
  selected := WorkerPc.selected

theorem executorUse_ops (pc : WorkerPc) : executorUse.ops pc = pc.ops := rfl

/-- What the workers of a `ModelScheduler` and its executors are to each other. -/
def State.executorPool (s : State setup) : ExecutorPool setup.config.instances where
  inflight_ := s.inflight_
  selected worker := (s.workers worker).selected

/-- The straight-line steps left at a place, before and after one of them. -/
theorem WorkerPc.Performs.ops {pc : WorkerPc} {next : List WorkerOp → WorkerPc} {ops : List WorkerOp}
    (hperforms : pc.Performs next ops) : pc.ops = ops ∧ ∀ ops', (next ops').ops = ops' := by
  cases hperforms <;> exact ⟨rfl, fun _ => rfl⟩

/-- Straight-line places have selected what they have yet to release. -/
theorem WorkerPc.Performs.straight {pc : WorkerPc} {next : List WorkerOp → WorkerPc} {ops : List WorkerOp}
    (hperforms : pc.Performs next ops) : executorUse.Straight pc ∧ ∀ ops', executorUse.Straight (next ops') := by
  cases hperforms <;> exact ⟨rfl, fun _ => rfl⟩

/-- A quiet step leaves the executor selected. -/
theorem WorkerPc.Quiet.selected {pc pc' : WorkerPc} (hquiet : pc.Quiet pc') : pc'.selected = pc.selected := by
  cases hquiet <;> rfl

theorem WorkerPc.Quiet.ops {pc pc' : WorkerPc} (hquiet : pc.Quiet pc') : pc'.ops = pc.ops.tail := by
  cases hquiet <;> rfl

/-- A quiet step leaves the release first. -/
theorem WorkerPc.Quiet.releasesFirst {pc pc' : WorkerPc} (hquiet : pc.Quiet pc')
    (hfirst : executorUse.ReleasesFirst pc) : executorUse.ReleasesFirst pc' := by
  apply ExecutorUse.ReleasesFirst.of_forall
  intro op hmem
  rw [executorUse_ops, hquiet.ops] at hmem
  exact hfirst op hmem

theorem wakeWorker_selected (pc : WorkerPc) : (State.wakeWorker pc).selected = pc.selected := by
  cases pc <;> rfl

theorem wakeWorker_ops (pc : WorkerPc) : (State.wakeWorker pc).ops = pc.ops := by
  cases pc <;> rfl

theorem expire_releases (request : Nat) : ∀ op ∈ expire request, op.releases = none := by
  simp [expire, WorkerOp.releases]

section Steps

variable {s s' : State setup} {worker : Fin setup.config.instances}

/-- A worker whose executor has returned releases it first, and nothing else. -/
theorem settleJob_releases (s : State setup) (job : Job) (executor_index : Nat) (execution_started : Int)
    (response : ExecutionResponse) :
    ∃ ops, (s.settleJob job executor_index execution_started response).ops = .release executor_index :: ops ∧
      ∀ op ∈ ops, op.releases = none := by
  cases job with
  | single request => exact ⟨_, rfl, by simp [WorkerOp.releases]⟩
  | batched active_batch merged =>
    simp only [State.settleJob]
    split
    · refine ⟨_, rfl, ?_⟩
      intro op hmem
      obtain rfl | hmem := List.mem_cons.mp hmem
      · rfl
      · rw [← List.map_uncurry_zip_eq_zipWith] at hmem
        obtain ⟨part, -, rfl⟩ := List.mem_map.mp hmem
        rfl
    · exact ⟨_, rfl, by simp [WorkerOp.releases]⟩

/-- Where a scan leaves its worker, nothing is to be released. -/
theorem runScan_releases (s : State setup) (worker : Fin setup.config.instances) (formation : Formation)
    (delay_elapsed : Bool) (position : Nat) (made_progress : Bool) :
    ∃ pc', (s.runScan worker formation delay_elapsed position made_progress).workers =
        Function.update s.workers worker pc' ∧ pc'.selected = none ∧ executorUse.ReleasesFirst pc' := by
  refine ⟨_, rfl, ?_⟩
  split
  · split
    · exact ⟨rfl, .of_nil rfl⟩
    · split <;> exact ⟨rfl, .of_nil rfl⟩
  · exact ⟨rfl, expire_releases _⟩
  · exact ⟨rfl, .of_nil rfl⟩

/-- What a worker's step does to the executors, with where it leaves the worker. -/
abbrev State.Shares (s : State setup) (worker : Fin setup.config.instances) (s' : State setup) : Prop :=
  executorUse.Shares worker s.inflight_ s'.inflight_ s.workers s'.workers

/-- A worker that performs a step other than a release has nothing to release. -/
theorem State.Shares.of_perform {next : List WorkerOp → WorkerPc} {op : WorkerOp} {ops : List WorkerOp}
    (hperforms : (s.workers worker).Performs next (op :: ops))
    (hfirst : executorUse.ReleasesFirst (s.workers worker)) (hperform : s.perform worker next ops op = some s') :
    s.Shares worker s' := by
  obtain ⟨hleft, hnext⟩ := hperforms.ops
  obtain ⟨hstraight, hstraight'⟩ := hperforms.straight
  have hops : ∀ left ∈ ops, left.releases = none := hfirst.rest hleft
  have hkept {t : State setup} {ops' : List WorkerOp}
      (hworkers : t.workers = Function.update s.workers worker (next ops'))
      (hinflight : t.inflight_ = s.inflight_) (hop : op.releases = none)
      (hops' : ∀ left ∈ ops', left.releases = none) : s.Shares worker t := by
    refine .performed hworkers hinflight hfirst hstraight hleft hop (hstraight' ops') ?_
    intro left hmem
    rw [executorUse_ops, hnext ops'] at hmem
    exact hops' left hmem
  have hcons {first : WorkerOp} (hreleases : first.releases = none) : ∀ left ∈ first :: ops, left.releases = none := by
    intro left hmem
    obtain rfl | hmem := List.mem_cons.mp hmem
    · exact hreleases
    · exact hops left hmem
  cases op with
  | notifyOne => cases hperform
  | setToken | countTimedOut | recordBatchExecution | recordLatencies =>
    cases hperform
    exact hkept rfl rfl rfl hops
  | fulfillResult request result | checkCancelled request execution_started execution_finished response =>
    cases hperform
    refine hkept rfl rfl rfl ?_
    split
    · exact hops
    · exact hcons rfl
  | settle request execution_started execution_finished batch_size response =>
    cases hperform
    refine hkept rfl rfl rfl ?_
    split
    · intro left hmem
      obtain hmem | hmem := List.mem_append.mp hmem
      · exact expire_releases request left hmem
      · exact hops left hmem
    · intro left hmem
      obtain rfl | hmem := List.mem_cons.mp hmem
      · rfl
      · exact hcons rfl left hmem
  | setValue request result =>
    simp only [State.perform] at hperform
    split at hperform <;> cases hperform
    · exact hkept rfl rfl rfl hops
    · -- the second `set_value` throws, and the process ends with nothing to release
      exact .performed rfl rfl hfirst hstraight hleft rfl rfl nofun
  | release executor_index =>
    cases hperform
    exact .release rfl rfl hfirst hstraight hleft rfl (hstraight' ops) (hnext ops)

/-- A worker's step selects, releases, or leaves the executors alone. -/
theorem State.Works.shares (hworks : s.Works worker s')
    (hfirst : executorUse.ReleasesFirst (s.workers worker)) : s.Shares worker s' := by
  have hkept {t : State setup} {pc pc' : WorkerPc} (hpc : s.workers worker = pc)
      (hworkers : t.workers = Function.update s.workers worker pc') (hinflight : t.inflight_ = s.inflight_)
      (hselected : pc'.selected = pc.selected) (hops : executorUse.ReleasesFirst pc') : s.Shares worker t := by
    refine .kept hworkers hinflight ?_ hops
    rw [hpc]
    exact hselected
  cases hworks with
  | quiet pc' hquiet => exact .kept rfl rfl hquiet.selected (hquiet.releasesFirst hfirst)
  | scanned formation delay_elapsed position made_progress hpc =>
    obtain ⟨pc', hworkers, hselected, hops⟩ := runScan_releases s worker formation delay_elapsed position made_progress
    obtain hpc | ⟨iterator, hpc⟩ := hpc
    · exact hkept hpc hworkers rfl hselected hops
    · exact hkept hpc hworkers rfl hselected hops
  | overdue now swept request rest hpc =>
    refine hkept hpc rfl rfl (List.findSome?_eq_none_iff.mpr (expire_releases request)) ?_
    exact .of_forall (expire_releases request)
  | singleLate request hpc =>
    refine hkept hpc rfl rfl (List.findSome?_eq_none_iff.mpr (expire_releases request)) ?_
    exact .of_forall (expire_releases request)
  | unmerged active_batch error hpc =>
    have hnone : ∀ op ∈ active_batch.map fun request =>
        WorkerOp.fulfillResult request (makeExecutorFailureResult error), op.releases = none := by
      intro op hmem
      obtain ⟨request, -, rfl⟩ := List.mem_map.mp hmem
      rfl
    exact hkept hpc rfl rfl (List.findSome?_eq_none_iff.mpr hnone) (.of_forall hnone)
  | selected job hpc =>
    refine .select rfl rfl ?_ rfl (.of_nil rfl)
    rw [hpc]
    rfl
  | executed job executor_index execution_started response ops hpc hsettle
  | unsplit job executor_index execution_started response ops hpc hsettle =>
    obtain ⟨left, hops, hnone⟩ := settleJob_releases s job executor_index execution_started response
    rw [hsettle] at hops
    cases hops
    exact hkept hpc rfl rfl rfl hnone
  | performed next op ops hperforms hperform => exact .of_perform hperforms hfirst hperform
  | popped _ _ hpc => exact hkept hpc rfl rfl rfl (.of_nil rfl)
  | exited hpc => exact hkept hpc rfl rfl rfl (.of_nil rfl)
  | stale _ _ _ hpc => exact hkept hpc rfl rfl rfl (.of_nil rfl)
  | formed _ _ hpc => exact hkept hpc rfl rfl rfl (.of_nil rfl)
  | processing _ hpc => exact hkept hpc rfl rfl rfl (.of_nil rfl)
  | dropped _ _ _ hpc => exact hkept hpc rfl rfl rfl (.of_nil rfl)
  | late _ _ _ hpc => exact hkept hpc rfl rfl rfl (.of_nil rfl)
  | active _ _ _ hpc => exact hkept hpc rfl rfl rfl (.of_nil rfl)
  | singleDropped _ hpc => exact hkept hpc rfl rfl rfl (.of_nil rfl)

/-- A step that leaves the workers alone leaves the pool alone. -/
theorem State.Leaves.executorPool (hleaves : s.Leaves s') : s'.executorPool = s.executorPool := by
  refine ExecutorPool.ext hleaves.inflight ?_
  funext worker
  simp only [State.executorPool]
  obtain hsame | hwoken := hleaves.workers worker
  · rw [hsame]
  · rw [hwoken, wakeWorker_selected]

theorem State.Leaves.releasesFirst (hleaves : s.Leaves s')
    (hfirst : ∀ worker, executorUse.ReleasesFirst (s.workers worker)) (worker : Fin setup.config.instances) :
    executorUse.ReleasesFirst (s'.workers worker) := by
  obtain hsame | hwoken := hleaves.workers worker
  · rw [hsame]
    exact hfirst worker
  · intro op hmem
    rw [hwoken, executorUse_ops, wakeWorker_ops] at hmem
    exact hfirst worker op hmem

/-- One step of the scheduler is at most one step of the pool. -/
theorem State.step_keeps (hfirst : ∀ worker, executorUse.ReleasesFirst (s.workers worker)) {event : Event setup}
    (hstep : s.step event = some s') : executorUse.Keeps s.inflight_ s'.inflight_ s.workers s'.workers := by
  obtain ⟨t, hleaves, hrest⟩ := State.step_frame hstep
  have hfirst' := hleaves.releasesFirst hfirst
  have hsame : executorUse.pool t.inflight_ t.workers = executorUse.pool s.inflight_ s.workers := hleaves.executorPool
  have hkeeps : executorUse.Keeps t.inflight_ s'.inflight_ t.workers s'.workers := by
    obtain rfl | ⟨worker, hworks⟩ | ⟨worker, formation, hpc, hinflight, hworkers⟩ := hrest
    · exact ⟨hfirst', .inl rfl⟩
    · exact (hworks.shares (hfirst' worker)).keeps hfirst'
    · have hshares : t.Shares worker s' := by
        refine .kept hworkers hinflight ?_ (.of_nil rfl)
        rw [hpc]
        rfl
      exact hshares.keeps hfirst'
  refine ⟨hkeeps.releasesFirst, ?_⟩
  rw [← hsame]
  exact hkeeps.pool

end Steps

/-- The scheduler refines the pool of its executors. -/
theorem executorPool_reachable {start : Int} {s : State setup} (hreach : (system setup start).Reachable s) :
    (poolSystem setup.executors setup.config.instances).Reachable s.executorPool := by
  refine @ExecutorUse.pool_reachable _ _ executorUse _ _ (system setup start) _ _ (·.inflight_) (·.workers) ?_ ?_ ?_
    s hreach
  · rintro s rfl worker
    exact .of_nil rfl
  · rintro s rfl
    rfl
  · intro s event s' hfirst hstep
    exact State.step_keeps hfirst hstep

end neuriplo.batch
