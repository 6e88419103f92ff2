import NeuriploRuntime.Model.Lifecycle

open neuriplo.config

namespace neuriplo.model

/-- What a finished build left in the handle it was given: a scheduler to serve
with, or a recorded reason why there is none. -/
inductive ModelHandle.Settled (handle : ModelHandle) : Prop where
  | ready (scheduler : Scheduler) (hstate : handle.state = .ready)
      (hscheduler : handle.scheduler = some scheduler)
      (hversions : handle.versions = handle.metadata.versions) (herror : handle.load_error = none)
  | failed (message : String) (hstate : handle.state = .failed)
      (hscheduler : handle.scheduler = none) (herror : handle.load_error = some message)

/-- A replacement handle, built with no registry lock held. It is always
settled: `load` catches whatever the factory throws. -/
structure BuiltHandle extends ModelHandle where
  settled : toModelHandle.Settled

/-- What was built is not loading any more. -/
theorem BuiltHandle.state_ne_loading (next : BuiltHandle) : next.state ≠ .loading := by
  intro hstate
  cases next.settled with
  | ready _ hready => simp [hstate] at hready
  | failed _ hfailed => simp [hstate] at hfailed

/-- A load that is marked as failed is settled. -/
theorem markLoadFailed_settled (handle : ModelHandle) (config : RuntimeConfig) (message : String)
    (hloading : handle.state = .loading) : (markLoadFailed handle config message).Settled :=
  .failed message (by simp [markLoadFailed, hloading, ModelState.markFailed, ModelState.transitionTo,
    isValidTransition]) rfl rfl

/-- Every path through `load` from a fresh handle ends Ready with a scheduler
or Failed with a message, whatever the factory does. -/
theorem ModelLifecycle.load_settled (config : RuntimeConfig) (factory : ExecutorFactory)
    (version_override : Option String) (id : Nat) (workers : Option (Option String)) :
    (load {} config factory version_override id workers).Settled := by
  have hloading : ModelState.unloaded.startLoad = .loading := rfl
  have hready : ModelState.loading.markReady = .ready := rfl
  unfold load
  simp only [ne_eq, not_true_eq_false, ↓reduceIte, hloading]
  cases buildExecutors factory config.instances 0 "" [] with
  | error message => exact markLoadFailed_settled _ config message rfl
  | ok executors =>
    cases executors with
    | nil => exact markLoadFailed_settled _ config _ rfl
    | cons front rest =>
      simp only
      cases makeScheduler config (front :: rest) id workers with
      | error message => exact markLoadFailed_settled _ config message rfl
      | ok scheduler => exact .ready scheduler hready rfl rfl rfl

/-- `load` into a fresh handle, as `loadModel`, `reload` and `switchVersion`
call it. -/
def ModelLifecycle.build (config : RuntimeConfig) (factory : ExecutorFactory)
    (version_override : Option String) (id : Nat) (workers : Option (Option String)) : BuiltHandle where
  toModelHandle := load {} config factory version_override id workers
  settled := load_settled config factory version_override id workers

/-- A scheduler is made of the executors that were built. -/
theorem makeScheduler_ok {config : RuntimeConfig} {executors : List Executor} {id : Nat}
    {workers : Option (Option String)} {scheduler : Scheduler}
    (hmake : makeScheduler config executors id workers = .ok scheduler) :
    scheduler.id = id ∧ scheduler.executors = executors := by
  unfold makeScheduler at hmake
  cases workers with
  | some what => cases hmake
  | none =>
    simp only at hmake
    split at hmake
    · split at hmake
      · cases hmake
      · cases hmake
        exact ⟨rfl, rfl⟩
    · cases hmake
      exact ⟨rfl, rfl⟩

/-- A handle with a scheduler went through all of `load`, and speaks for its first
executor, whatever version it is published under. -/
theorem ModelLifecycle.build_made {config : RuntimeConfig} {factory : ExecutorFactory}
    {version_override : Option String} {id : Nat} {workers : Option (Option String)}
    {scheduler : Scheduler}
    (hscheduler : (build config factory version_override id workers).scheduler = some scheduler) :
    ∃ front rest, buildExecutors factory config.instances 0 "" [] = .ok (front :: rest) ∧
      makeScheduler config (front :: rest) id workers = .ok scheduler ∧
      (build config factory version_override id workers).metadata.platform = front.metadata.platform := by
  simp only [build, load, ne_eq, not_true_eq_false, ↓reduceIte] at hscheduler ⊢
  cases hexecutors : buildExecutors factory config.instances 0 "" [] with
  | error message => simp [hexecutors, markLoadFailed] at hscheduler
  | ok executors =>
    cases executors with
    | nil => simp [hexecutors, markLoadFailed] at hscheduler
    | cons front rest =>
      simp only [hexecutors] at hscheduler
      cases hmake : makeScheduler config (front :: rest) id workers with
      | error message => simp [hmake, markLoadFailed] at hscheduler
      | ok made =>
        simp only [hmake, Option.some.injEq] at hscheduler
        subst hscheduler
        refine ⟨front, rest, rfl, hmake, ?_⟩
        simp only [hmake]
        cases version_override <;> rfl

/-- A scheduler in a built handle is the one object this build created. -/
theorem ModelLifecycle.build_scheduler {config : RuntimeConfig} {factory : ExecutorFactory}
    {version_override : Option String} {id : Nat} {workers : Option (Option String)}
    {scheduler : Scheduler}
    (hscheduler : (build config factory version_override id workers).scheduler = some scheduler) :
    scheduler.id = id ∧
      buildExecutors factory config.instances 0 "" [] = .ok scheduler.executors := by
  obtain ⟨front, rest, hexecutors, hmake, -⟩ := build_made hscheduler
  obtain ⟨hid, hmade⟩ := makeScheduler_ok hmake
  exact ⟨hid, by rw [hexecutors, hmade]⟩

/-- The loop goes on with an executor from the factory, or not at all. -/
theorem buildExecutors_succ {factory : ExecutorFactory} {remaining call : Nat} {error : String}
    {built executors : List Executor}
    (hbuild : buildExecutors factory (remaining + 1) call error built = .ok executors) :
    ∃ next error', factory call error = .executor next error' ∧
      buildExecutors factory remaining (call + 1) error' (built ++ [next]) = .ok executors := by
  simp only [buildExecutors] at hbuild
  cases hfactory : factory call error with
  | null message => simp [hfactory] at hbuild
  | threw what => simp [hfactory] at hbuild
  | executor next error' =>
    rw [hfactory] at hbuild
    exact ⟨next, error', rfl, hbuild⟩

/-- The executors come from the factory. -/
theorem mem_buildExecutors {factory : ExecutorFactory} {remaining call : Nat} {error : String}
    {built executors : List Executor}
    (hbuild : buildExecutors factory remaining call error built = .ok executors) {executor : Executor}
    (hmem : executor ∈ executors) :
    executor ∈ built ∨ ∃ call error error', factory call error = .executor executor error' := by
  induction remaining generalizing call error built with
  | zero =>
    cases hbuild
    exact .inl hmem
  | succ remaining ih =>
    obtain ⟨next, error', hfactory, hrest⟩ := buildExecutors_succ hbuild
    obtain hmem | hmem := ih hrest
    · obtain hmem | hmem := List.mem_append.mp hmem
      · exact .inl hmem
      · rw [List.mem_singleton] at hmem
        exact .inr ⟨call, error, error', hmem ▸ hfactory⟩
    · exact .inr hmem

/-- What a built model says of its backend comes from one of its executors. -/
theorem ModelLifecycle.build_platform {config : RuntimeConfig} {factory : ExecutorFactory}
    {version_override : Option String} {id : Nat} {workers : Option (Option String)}
    {scheduler : Scheduler}
    (hscheduler : (build config factory version_override id workers).scheduler = some scheduler) :
    ∃ front ∈ scheduler.executors,
      (build config factory version_override id workers).metadata.platform = front.metadata.platform := by
  obtain ⟨front, rest, -, hmake, hplatform⟩ := build_made hscheduler
  refine ⟨front, ?_, hplatform⟩
  rw [(makeScheduler_ok hmake).2]
  exact List.mem_cons_self

/-- A pinned version is the only one a Ready replacement publishes. -/
theorem ModelLifecycle.build_versions {config : RuntimeConfig} {factory : ExecutorFactory}
    {version : String} {id : Nat} {workers : Option (Option String)}
    (hready : (build config factory (some version) id workers).state = .ready) :
    (build config factory (some version) id workers).metadata.versions = [version] := by
  simp only [build, load, ne_eq, not_true_eq_false, ↓reduceIte] at hready ⊢
  have hfailed (handle : ModelHandle) (message : String) (hloading : handle.state = .loading) :
      (markLoadFailed handle config message).state ≠ .ready := by
    simp [markLoadFailed, hloading, ModelState.markFailed, ModelState.transitionTo, isValidTransition]
  cases hexecutors : buildExecutors factory config.instances 0 "" [] with
  | error message =>
    rw [hexecutors] at hready
    exact absurd hready (hfailed _ _ rfl)
  | ok executors =>
    rw [hexecutors] at hready
    cases executors with
    | nil => exact absurd hready (hfailed _ _ rfl)
    | cons front rest =>
      simp only at hready ⊢
      cases hmake : makeScheduler config (front :: rest) id workers with
      | error message =>
        rw [hmake] at hready
        exact absurd hready (hfailed _ _ rfl)
      | ok made => rfl

/-- What a handle keeps when its replacement never came up: everything but the
error, and a handle that was reset for the attempt is put back on Failed. -/
def ModelHandle.rejected (handle next : ModelHandle) : ModelHandle :=
  { handle with
    load_error := next.load_error
    state := if handle.state = .unloaded then .failed else handle.state }

/-- A reload that fails keeps the model and says why. -/
theorem ModelLifecycle.finishReload_failed (handle : ModelHandle) {next : ModelHandle}
    (hnext : next.state ≠ .ready) : finishReload handle next = (handle.rejected next, false) := by
  simp only [finishReload, hnext, ne_eq, not_false_eq_true, ↓reduceIte, ModelHandle.rejected]
  by_cases hstate : handle.state = .unloaded
  · rw [if_pos hstate, if_pos hstate]
    simp [hstate, ModelState.startLoad, ModelState.markFailed, ModelState.transitionTo, isValidTransition]
  · rw [if_neg hstate, if_neg hstate]

/-- A Ready replacement takes the handle over whole. -/
theorem ModelLifecycle.finishReload_ready {handle : ModelHandle}
    (hstate : handle.state = .ready ∨ handle.state = .unloaded) {next : BuiltHandle}
    (hnext : next.state = .ready) :
    finishReload handle next.toModelHandle = (next.toModelHandle, true) := by
  have herror : next.load_error = none := by
    cases next.settled with
    | ready _ _ _ _ herror => exact herror
    | failed _ hfailed => simp [hnext] at hfailed
  obtain ⟨⟨name, versions, state, metadata, scheduler, load_error⟩, hsettled⟩ := next
  simp only at hnext herror
  subst hnext herror
  obtain hstate | hstate := hstate
  · simp [finishReload, hstate]
  · simp [finishReload, hstate, ModelState.startLoad, ModelState.markReady, ModelState.transitionTo,
      isValidTransition]

end neuriplo.model
