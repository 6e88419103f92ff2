import NeuriploRuntime.Batch.Executors
import NeuriploRuntime.Llm.Deadline
import NeuriploRuntime.Llm.Executors
import NeuriploRuntime.Model.Load

open neuriplo.config neuriplo.scheduler transition

namespace neuriplo.model

/-- One executor is built for each instance. -/
theorem buildExecutors_length {factory : ExecutorFactory} {remaining call : Nat} {error : String}
    {built executors : List Executor}
    (hbuild : buildExecutors factory remaining call error built = .ok executors) :
    executors.length = built.length + remaining := by
  induction remaining generalizing call error built with
  | zero =>
    cases hbuild
    rfl
  | succ remaining ih =>
    obtain ⟨next, error', -, hrest⟩ := buildExecutors_succ hbuild
    have hlength := ih hrest
    rw [List.length_append, List.length_singleton] at hlength
    omega

/-- A `ModelScheduler` has as many executors as it is told instances. -/
theorem makeScheduler_instances {config : RuntimeConfig} {executors : List Executor} {id : Nat}
    {workers : Option (Option String)} {scheduler : Scheduler} {scheduler_config : SchedulerConfig}
    (hmake : makeScheduler config executors id workers = .ok scheduler)
    (hkind : scheduler.kind = .modelScheduler scheduler_config) : scheduler_config.instances = config.instances := by
  unfold makeScheduler at hmake
  cases workers with
  | some what => cases hmake
  | none =>
    simp only at hmake
    split at hmake
    · split at hmake <;> cases hmake
      cases hkind
    · cases hmake
      cases hkind
      rfl

/-- A `ModelScheduler` is built with as many executors as it has instances. -/
theorem ModelLifecycle.build_instances {config : RuntimeConfig} {factory : ExecutorFactory}
    {version_override : Option String} {id : Nat} {workers : Option (Option String)} {scheduler : Scheduler}
    {scheduler_config : SchedulerConfig}
    (hscheduler : (build config factory version_override id workers).scheduler = some scheduler)
    (hkind : scheduler.kind = .modelScheduler scheduler_config) :
    scheduler.executors.length = scheduler_config.instances := by
  have hlength := buildExecutors_length (build_scheduler hscheduler).2
  rw [List.length_nil, Nat.zero_add] at hlength
  rw [hlength]
  obtain ⟨front, rest, -, hmake, -⟩ := build_made hscheduler
  exact (makeScheduler_instances hmake hkind).symm

/-- Whatever the order of selections and releases, no executor is shared by more
than its part of the workers. Both schedulers use their executors so, and no
executor of a `ModelScheduler` that was loaded serves two workers at once. -/
theorem executors_shared_evenly :
    (∀ executors workers pool, 0 < executors → (poolSystem executors workers).Reachable pool →
      pool.EvenlyShared executors) ∧
    (∀ setup start (s : batch.State setup), (batch.system setup start).Reachable s →
      s.executorPool.EvenlyShared setup.executors) ∧
    (∀ setup start (s : llm.State setup), (llm.system setup start).Reachable s →
      s.executorPool.EvenlyShared setup.executors) ∧
    ∀ config factory version_override id workers scheduler setup start (s : batch.State setup),
      (ModelLifecycle.build config factory version_override id workers).scheduler = some scheduler →
      scheduler.kind = .modelScheduler setup.config → setup.executors = scheduler.executors.length →
      (batch.system setup start).Reachable s →
      ∀ worker other executor_index, (s.workers worker).selected = some executor_index →
        (s.workers other).selected = some executor_index → worker = other := by
  have hmodel (setup : batch.Setup) (start : Int) (s : batch.State setup)
      (hreach : (batch.system setup start).Reachable s) :
      s.executorPool.EvenlyShared setup.executors :=
    poolSystem_evenlyShared setup.hexecutors (batch.executorPool_reachable hreach)
  refine ⟨?_, hmodel, ?_, ?_⟩
  · intro executors workers pool hexecutors hreach
    exact poolSystem_evenlyShared hexecutors hreach
  · intro setup start s hreach
    exact poolSystem_evenlyShared setup.hexecutors (llm.executorPool_reachable hreach)
  · intro config factory version_override id workers scheduler setup start s hbuild hkind hexecutors hreach
      worker other executor_index hselected hother
    have hshared := hmodel setup start s hreach
    rw [hexecutors, ModelLifecycle.build_instances hbuild hkind] at hshared
    exact hshared.alone hselected hother

/-- Two instances of a model. -/
def pairConfig : RuntimeConfig where
  instances := 2

def pairFactory : ExecutorFactory := fun _ error => .executor { metadata := {} } error

/-- The scheduler that is made of them. -/
def pairSetup : batch.Setup where
  config := { instances := 2 }
  executors := 2
  hexecutors := Nat.two_pos
  hinstances := Nat.two_pos

/-- Two requests are queued, and both workers bring one of them to an executor. -/
def pairRun : List (batch.Event pairSetup) :=
  [.submit 0 {}, .submitter 0, .submitter 0, .submitter 0, .notifySubmitted 0 none,
    .submit 1 {}, .submitter 1, .submitter 1, .submitter 1, .notifySubmitted 1 none] ++
    List.replicate 12 (.worker ⟨0, by decide⟩) ++ List.replicate 12 (.worker ⟨1, by decide⟩)

/-- Two executors that are shared, and two that are not. -/
theorem executors_shared_evenly_pair :
    (∃ pool : ExecutorPool 3, pool.inflight_ = [1, 1] ∧ pool.EvenlyShared 2) ∧
    (∃ s : batch.State pairSetup, s.inflight_ = [1, 1] ∧ s.executorPool.EvenlyShared 2 ∧
      ∀ worker other executor_index, (s.workers worker).selected = some executor_index →
        (s.workers other).selected = some executor_index → worker = other) ∧
    ∃ s : llm.State llm.singleSlot, s.inflight_ = [1] ∧ s.executorPool.EvenlyShared 1 := by
  obtain ⟨hpool, hmodel, hllm, hloaded⟩ := executors_shared_evenly
  have hreplay : ∃ pool, System.replay ExecutorPool.step { inflight_ := List.replicate 2 0 }
      [.select (0 : Fin 3), .select 1, .release 0, .select 2] = some pool ∧ pool.inflight_ = [1, 1] :=
    ⟨_, rfl, rfl⟩
  have hreplay' : ∃ s, System.replay batch.State.step { now := 0 } pairRun = some s ∧ s.inflight_ = [1, 1] :=
    ⟨_, rfl, rfl⟩
  have hreplay'' : ∃ s, System.replay llm.State.step { now := 0 }
      (llm.queued ++ List.replicate 13 (.worker llm.onlyWorker)) = some s ∧ s.inflight_ = [1] := ⟨_, rfl, rfl⟩
  obtain ⟨pool, hpoolRun, hinflight⟩ := hreplay
  obtain ⟨s, hrun, hinflight'⟩ := hreplay'
  obtain ⟨t, hrun', hinflight''⟩ := hreplay''
  refine ⟨⟨pool, hinflight, ?_⟩, ⟨s, hinflight', ?_, ?_⟩, ⟨t, hinflight'', ?_⟩⟩
  · exact hpool 2 3 pool Nat.two_pos (System.reachable_of_replay hpoolRun)
  · exact hmodel pairSetup 0 s (System.reachable_of_replay hrun)
  · exact hloaded pairConfig pairFactory none 0 none _ pairSetup 0 s rfl rfl rfl (System.reachable_of_replay hrun)
  · exact hllm llm.singleSlot 0 t (System.reachable_of_replay hrun')

end neuriplo.model
