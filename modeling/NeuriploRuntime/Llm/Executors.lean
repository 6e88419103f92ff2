import NeuriploRuntime.Llm.Slots
import NeuriploRuntime.Scheduler.ExecutorUse

open neuriplo.scheduler neuriplo.tensor transition

namespace neuriplo.llm

variable {setup : Setup}

def WorkerOp.releases : WorkerOp → Option Nat
  | .decrementInflight executor_index => some executor_index
  | _ => none

/-- The straight-line steps a worker has left to do. -/
def WorkerPc.ops : WorkerPc → List WorkerOp
  | .finishing _ ops => ops
  | .terminated ops => ops
  | _ => []

/-- The executor that a worker has selected and not released. -/
def WorkerPc.selected : WorkerPc → Option Nat
  | .starting _ executor_index => some executor_index
  | .executing _ executor_index _ => some executor_index
  | .readingToken _ executor_index _ _ => some executor_index
  | .executed _ executor_index _ _ _ => some executor_index
  | pc => pc.ops.findSome? (·.releases)

/-- How an `LlmScheduler` uses its executors. -/
def executorUse : ExecutorUse WorkerPc WorkerOp where
  ops := WorkerPc.ops
  releases := WorkerOp.releases
  selected := WorkerPc.selected

/-- What the workers of an `LlmScheduler` and its executors are to each other. -/
def State.executorPool (s : State setup) : ExecutorPool setup.config.kv_cache_slots where
  inflight_ := s.inflight_
  selected worker := (s.workers worker).selected

/-- A quiet step leaves the executor selected. -/
theorem WorkerPc.Quiet.selected {pc pc' : WorkerPc} (hquiet : pc.Quiet pc') : pc'.selected = pc.selected := by
  cases hquiet <;> rfl

theorem WorkerPc.Quiet.ops {pc pc' : WorkerPc} (hquiet : pc.Quiet pc') : pc'.ops = [] := by
  cases hquiet <;> rfl

theorem expired_releases : ∀ op ∈ expired, op.releases = none := by
  simp [expired, WorkerOp.releases]

section Steps

variable {s s' : State setup} {worker : Fin setup.config.kv_cache_slots}

/-- What a worker's step does to the executors, with where it leaves the worker. -/
abbrev State.Shares (s : State setup) (worker : Fin setup.config.kv_cache_slots) (s' : State setup) : Prop :=
  executorUse.Shares worker s.inflight_ s'.inflight_ s.workers s'.workers

/-- A worker that performs a step other than a release has nothing to release. -/
theorem State.Shares.of_perform {request : Nat} {op : WorkerOp} {ops : List WorkerOp} {pending : PendingRequest}
    (hpc : s.workers worker = .finishing request (op :: ops))
    (hfirst : executorUse.ReleasesFirst (s.workers worker)) :
    s.Shares worker (s.perform worker request pending ops op) := by
  have hleft : executorUse.ops (s.workers worker) = op :: ops := by
    rw [hpc]
    rfl
  have hstraight : executorUse.Straight (s.workers worker) := by
    rw [hpc]
    rfl
  have hops : ∀ left ∈ ops, left.releases = none := hfirst.rest hleft
  have hkept {t : State setup} {pc' : WorkerPc} (hworkers : t.workers = Function.update s.workers worker pc')
      (hinflight : t.inflight_ = s.inflight_) (hop : op.releases = none) (hpc' : executorUse.Straight pc')
      (hops' : ∀ left ∈ pc'.ops, left.releases = none) : s.Shares worker t :=
    .performed hworkers hinflight hfirst hstraight hleft hop hpc' hops'
  have hcons {first : WorkerOp} (hreleases : first.releases = none) : ∀ left ∈ first :: ops, left.releases = none := by
    intro left hmem
    obtain rfl | hmem := List.mem_cons.mp hmem
    · exact hreleases
    · exact hops left hmem
  cases op with
  | setToken | countTimedOut | recordLatencies => exact hkept rfl rfl rfl rfl hops
  | releaseDecodeSlot =>
    have hreleased (active_decodes_ : Nat) :
        s.Shares worker ({ s with active_decodes_ }.setWorker worker (.finishing request ops)) :=
      hkept rfl rfl rfl rfl hops
    exact hreleased (fetchSub s.active_decodes_)
  | fulfillResult result =>
    refine hkept rfl rfl rfl rfl ?_
    simp only [WorkerPc.ops]
    split
    · exact hops
    · exact hcons rfl
  | settle execution_started execution_finished response =>
    simp only [State.perform]
    split
    · exact hkept rfl rfl rfl rfl hops
    · split
      · refine hkept rfl rfl rfl rfl ?_
        intro left hmem
        obtain hmem | hmem := List.mem_append.mp hmem
        · exact expired_releases left hmem
        · exact hops left hmem
      · refine hkept rfl rfl rfl rfl ?_
        intro left hmem
        obtain rfl | hmem := List.mem_cons.mp hmem
        · rfl
        · exact hcons rfl left hmem
  | setValue result =>
    simp only [State.perform]
    split
    · exact hkept rfl rfl rfl rfl hops
    · exact hkept rfl rfl rfl rfl hops
  | decrementInflight executor_index => exact .release rfl rfl hfirst hstraight hleft rfl rfl rfl

/-- A worker's step selects, releases, or leaves the executors alone. -/
theorem State.Works.shares (hworks : s.Works worker s')
    (hfirst : executorUse.ReleasesFirst (s.workers worker)) : s.Shares worker s' := by
  have hkept {t : State setup} {pc pc' : WorkerPc} (hpc : s.workers worker = pc)
      (hworkers : t.workers = Function.update s.workers worker pc') (hinflight : t.inflight_ = s.inflight_)
      (hselected : pc'.selected = pc.selected) (hops : executorUse.ReleasesFirst pc') : s.Shares worker t := by
    refine .kept hworkers hinflight ?_ hops
    rw [hpc]
    exact hselected
  cases hworks with
  | quiet pc' hquiet => exact .kept rfl rfl hquiet.selected (.of_nil hquiet.ops)
  | popped _ _ hpc => exact hkept hpc rfl rfl rfl (.of_nil rfl)
  | locked _ _ _ hpc => exact hkept hpc rfl rfl rfl (.of_nil rfl)
  | parked _ hpc => exact hkept hpc rfl rfl rfl (.of_nil rfl)
  | acquired _ hpc => exact hkept hpc rfl rfl rfl (.of_nil rfl)
  | readToken _ _ _ _ hpc => exact hkept hpc rfl rfl rfl (.of_nil rfl)
  | late request pending hpc =>
    exact hkept hpc rfl rfl (List.findSome?_eq_none_iff.mpr expired_releases) (.of_forall expired_releases)
  | refused request stage hpc =>
    refine hkept hpc rfl rfl rfl ?_
    simp [ExecutorUse.ReleasesFirst, executorUse, WorkerPc.ops, WorkerOp.releases]
  | drained request hpc =>
    refine hkept hpc rfl rfl rfl ?_
    simp [ExecutorUse.ReleasesFirst, executorUse, WorkerPc.ops, WorkerOp.releases]
  | overdue request pending hpc =>
    refine hkept hpc rfl rfl rfl ?_
    simp [ExecutorUse.ReleasesFirst, executorUse, WorkerPc.ops, WorkerOp.releases]
  | selected request hpc =>
    refine .select rfl rfl ?_ rfl (.of_nil rfl)
    rw [hpc]
    rfl
  | executed request executor_index execution_started response completed hpc =>
    refine hkept hpc rfl rfl rfl ?_
    intro op hmem
    obtain rfl | hmem := List.mem_cons.mp hmem
    · rfl
    · cases completed with
      | true =>
        rw [List.mem_singleton.mp hmem]
        rfl
      | false => exact expired_releases op hmem
  | performed request op ops pending hpc => exact .of_perform hpc hfirst

/-- One step of the scheduler is at most one step of the pool. -/
theorem State.step_keeps (hfirst : ∀ worker, executorUse.ReleasesFirst (s.workers worker)) {event : Event setup}
    (hstep : s.step event = some s') : executorUse.Keeps s.inflight_ s'.inflight_ s.workers s'.workers := by
  obtain ⟨worker, hworks, -⟩ | ⟨hworkers, -, hinflight⟩ := State.step_frame hstep
  · exact (hworks.shares (hfirst worker)).keeps hfirst
  · rw [hworkers, hinflight]
    exact ⟨hfirst, .inl rfl⟩

end Steps

/-- In every run the workers release before anything else. -/
theorem releasesFirst_reachable {start : Int} {s : State setup} (hreach : (system setup start).Reachable s)
    (worker : Fin setup.config.kv_cache_slots) : executorUse.ReleasesFirst (s.workers worker) := by
  refine @ExecutorUse.releasesFirst_reachable _ _ executorUse _ _ (system setup start) _ (·.inflight_) (·.workers) ?_ ?_
    s hreach worker
  · rintro s rfl worker
    exact .of_nil rfl
  · intro s event s' hfirst hstep
    exact State.step_keeps hfirst hstep

/-- The scheduler refines the pool of its executors. -/
theorem executorPool_reachable {start : Int} {s : State setup} (hreach : (system setup start).Reachable s) :
    (poolSystem setup.executors setup.config.kv_cache_slots).Reachable s.executorPool := by
  refine @ExecutorUse.pool_reachable _ _ executorUse _ _ (system setup start) _ _ (·.inflight_) (·.workers) ?_ ?_ ?_
    s hreach
  · rintro s rfl worker
    exact .of_nil rfl
  · rintro s rfl
    rfl
  · intro s event s' hfirst hstep
    exact State.step_keeps hfirst hstep

end neuriplo.llm
