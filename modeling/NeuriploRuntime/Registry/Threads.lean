import NeuriploRuntime.Pipeline.Build
import NeuriploRuntime.Registry.Sections
import NeuriploRuntime.Transition.System

open neuriplo.config neuriplo.model neuriplo.pipeline neuriplo.tensor transition

namespace neuriplo.registry

/-- The registry calls a thread can make. With `explicit` the build uses a
factory of the caller's; else an ensemble's executors are built first, by
`makePipelineFactory`, and any other model's by the backend it names. -/
inductive Request where
  | build (call : Call) (explicit : Bool)
  | unloadModel (model_name : String)
  | beginDrain (model_name : String)
  | completeUnload (model_name : String)
deriving DecidableEq

/-- A factory that is not a pipeline's: the executors it hands out resolve no
other model. -/
structure BackendFactory where
  factory : ExecutorFactory
  backend : ∀ call error executor error', factory call error = .executor executor error' →
    executor.model_steps = []

/-- A backend that was not compiled in, or refuses the model. -/
def BackendFactory.unavailable (error : String) : BackendFactory where
  factory _ _ := .null error
  backend _ _ _ _ hfactory := by cases hfactory

/-- A backend that serves a model with the given metadata. -/
def BackendFactory.serving (metadata : ModelMetadata) : BackendFactory where
  factory _ error := .executor { metadata } error
  backend _ _ _ _ hfactory := by cases hfactory; rfl

/-- Where a thread stands: `run` executes the locked section it is at, or the
notify, retire or return after it. -/
inductive Pc where
  | idle
  | preparing (call : Call) (construction : Construction) (prebuilt : Prebuilt)
  | entering (call : Call) (prebuilt : Option Prebuilt)
  | parked (call : Call) (prebuilt : Option Prebuilt) (wait : Wait)
  | woken (call : Call) (prebuilt : Option Prebuilt) (wait : Wait)
  | building (call : Call) (prebuilt : Option Prebuilt)
  | guarding (call : Call)
  | finishing (call : Call) (next : BuiltHandle)
  | notifying (call : Call) (answer : Option Bool) (old_snapshot : Option InferSnapshot)
  | retiring (call : Call) (answer : Option Bool) (old_snapshot : Option InferSnapshot)
  | unloading (model_name : String)
  | draining (model_name : String) (whole : Bool)
  | completing (model_name : String) (whole : Bool)
  | returned (request : Option Call) (answer : Option Bool)

/-- The choices of the environment are in the actions: what a graph file holds,
what the task layer builds, what a backend's factory does, whether the scheduler's
worker threads start (`workers` is what the exception says if not), and whether
something past the lifecycle's own catch-all throws. -/
inductive Action where
  | start (request : Request)
  | read (graph : Except String PipelineConfig)
  | resolve (builtins : BuiltinSteps)
  | build (backend : BackendFactory) (workers : Option (Option String))
  | throw
  | wake
  | run

def Request.start : Request → Pc
  | .build call explicit =>
    if call.config.backend = pipelineBackendId && !explicit then .preparing call .reading {}
    else .entering call none
  | .unloadModel model_name => .unloading model_name
  | .beginDrain model_name => .draining model_name false
  | .completeUnload model_name => .completing model_name false

def Pc.prepared (call : Call) : Progress → Pc
  | .building construction prebuilt => .preparing call construction prebuilt
  | .done prebuilt => .entering call (some prebuilt)

def Pc.entered (call : Call) (prebuilt : Option Prebuilt) : Entry → Pc
  | .answer answer => .returned (some call) (some answer)
  | .wait wait => .parked call prebuilt wait
  | .build => .building call prebuilt

/-- A woken caller holds the lock again: it parks once more, answers for the
load it joined, or starts its own loop over. -/
def Pc.rewoken (registry : ModelRegistry) (call : Call) (prebuilt : Option Prebuilt) (wait : Wait) : Pc :=
  if registry.waitOver call.model_name wait then
    match wait with
    | .firstLoad => .returned (some call) (some (registry.joined call.model_name))
    | .reloadPending => .entering call prebuilt
  else .parked call prebuilt wait

/-- The handle a call builds, with no lock held. -/
def Call.built (call : Call) (prebuilt : Option Prebuilt) (backend : BackendFactory)
    (workers : Option (Option String)) (id : Nat) : BuiltHandle :=
  ModelLifecycle.build call.build_config ((prebuilt.map (·.factory)).getD backend.factory)
    call.version_override id workers

/-- One step of a thread, as a function of the registry: each `run` at a locked
section is one atomic step. -/
def Pc.step (registry : ModelRegistry) : Pc → Action → Option (ModelRegistry × Pc)
  | .idle, .start request => some (registry, request.start)
  | .preparing call .reading prebuilt, .read graph =>
    some (registry, .prepared call (prebuilt.read call.config graph))
  | .preparing call (.resolving graph steps) prebuilt, .resolve builtins =>
    some (registry, .prepared call (prebuilt.resolve registry builtins call.config graph steps))
  | .entering call prebuilt, .run =>
    let (registry, entry) := registry.enter call
    some (registry, .entered call prebuilt entry)
  | .parked call prebuilt wait, .wake => some (registry, .woken call prebuilt wait)
  | .woken call prebuilt wait, .run => some (registry, .rewoken registry call prebuilt wait)
  | .building call prebuilt, .build backend workers =>
    some ({ registry with next_scheduler := registry.next_scheduler + 1 },
      .finishing call (call.built prebuilt backend workers registry.next_scheduler))
  | .building call _, .throw => some (registry, .guarding call)
  | .guarding call, .run => some (registry.resolvePending call.model_name, .notifying call none none)
  | .finishing call next, .run =>
    let finish := registry.finish call next.toModelHandle
    some (finish.after, .notifying call (some finish.answer) finish.old_snapshot)
  | .notifying call answer old_snapshot, .run => some (registry, .retiring call answer old_snapshot)
  | .retiring call answer old_snapshot, .run =>
    some (registry.retireSnapshot old_snapshot, .returned (some call) answer)
  | .unloading model_name, .run =>
    match registry.enterUnload model_name with
    | (registry, some answer) => some (registry, .returned none (some answer))
    | (registry, none) => some (registry, .draining model_name true)
  | .draining model_name whole, .run =>
    match registry.beginDrain model_name with
    | (registry, answer) =>
      if whole && answer then some (registry, .completing model_name whole)
      else some (registry, .returned none (some answer))
  | .completing model_name _, .run =>
    let (registry, answer) := registry.completeUnload model_name
    some (registry, .returned none (some answer))
  | .returned _ _, .run => some (registry, .idle)
  | _, _ => none

/-- `notify_all` reaches every thread parked on `load_cv_`, for any model. -/
def Pc.notified : Pc → Pc
  | .parked call prebuilt wait => .woken call prebuilt wait
  | pc => pc

def Pc.notifies : Pc → Bool
  | .notifying _ _ _ => true
  | _ => false

structure State where
  registry_ : ModelRegistry := {}
  threads : Nat → Pc := fun _ => .idle

inductive Event where
  | thread (thread : Nat) (action : Action)
  /-- The background task of a retired scheduler runs its `beginDrain`. -/
  | drainTask (scheduler : Nat)
  | setRepositoryCatalog (configs : List RuntimeConfig)

def State.move (s : State) (thread : Nat) (after : ModelRegistry × Pc) : State where
  registry_ := after.1
  threads := Function.update
    (if (s.threads thread).notifies then fun other => (s.threads other).notified else s.threads) thread after.2

def State.step (s : State) : Event → Option State
  | .thread thread action => ((s.threads thread).step s.registry_ action).map (s.move thread)
  | .drainTask scheduler =>
    if scheduler ∈ s.registry_.retire_queue_ then
      some { s with registry_ := { s.registry_ with draining := scheduler :: s.registry_.draining } }
    else none
  | .setRepositoryCatalog configs =>
    some { s with registry_ := { s.registry_ with
      catalog_ := fun model_name => configs.find? (·.model_name = model_name) } }

/-- A drain task takes one scheduler off the queue, and changes nothing else. -/
theorem State.step_drainTask {s s' : State} {scheduler : Nat} (hstep : s.step (.drainTask scheduler) = some s') :
    scheduler ∈ s.registry_.retire_queue_ ∧
      s' = { s with registry_ := { s.registry_ with draining := scheduler :: s.registry_.draining } } := by
  simp only [State.step] at hstep
  split at hstep
  · exact ⟨‹_›, (Option.some.inj hstep).symm⟩
  · cases hstep

/-- The registry under any number of threads, from an empty one: the models a
constructor loads are calls like any other. -/
def system : System State Event := System.ofStep {} State.step

/-- The steps of a call that no other thread disturbs, from its start to its
return. -/
def undisturbed (thread : Nat) (call : Call) (backend : BackendFactory) : List Event :=
  [.start (.build call true), .run, .build backend none, .run, .run, .run, .run].map (.thread thread)

/-- The state some events lead to. -/
def State.after (s : State) (events : List Event) : State :=
  (System.replay State.step s events).getD s

end neuriplo.registry
