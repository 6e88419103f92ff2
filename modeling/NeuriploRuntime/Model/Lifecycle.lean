import NeuriploRuntime.Config.RuntimeConfig
import NeuriploRuntime.Model.State
import NeuriploRuntime.Scheduler.Config
import NeuriploRuntime.Tensor.Metadata

open neuriplo.config neuriplo.scheduler neuriplo.tensor

namespace neuriplo.model

/-- A `model` step of a pipeline graph; an empty version asks for the model's
default one. -/
structure ModelStep where
  model_name : String
  model_version : String
deriving DecidableEq, Repr

/-- What the registry sees of an executor: its metadata, and the models a
pipeline resolves again on every request. A plain executor resolves none. -/
structure Executor where
  metadata : ModelMetadata
  model_steps : List ModelStep := []
deriving DecidableEq, Repr

inductive SchedulerKind where
  | modelScheduler (config : SchedulerConfig)
  | llmScheduler (config : LlmSchedulerConfig)
deriving DecidableEq, Repr

/-- A scheduler object. `id` is its identity: two handles share a scheduler
exactly when they hold the same id. -/
structure Scheduler where
  id : Nat
  kind : SchedulerKind
  executors : List Executor
deriving DecidableEq, Repr

structure ModelHandle where
  name : String := ""
  versions : List String := []
  state : ModelState := .unloaded
  metadata : ModelMetadata := {}
  scheduler : Option Scheduler := none
  load_error : Option String := none
deriving DecidableEq, Repr

/-- One call of an executor factory. The factory also writes the `error`
string its caller passes in, which later calls see again. -/
inductive FactoryResult where
  | executor (executor : Executor) (error : String)
  | null (error : String)
  | threw (what : Option String)

/-- A factory's behaviour: the outcome of each call in turn, given the error
string at that point. -/
abbrev ExecutorFactory := Nat → String → FactoryResult

/-- The caught message, or the fixed text for what is not a `std::exception`. -/
def caughtMessage (what : Option String) : String :=
  what.getD "executor build threw"

/-- The loop of `load` that builds one executor for each instance. -/
def buildExecutors (factory : ExecutorFactory) :
    Nat → Nat → String → List Executor → Except String (List Executor)
  | 0, _, _, executors => .ok executors
  | remaining + 1, call, error, executors =>
    match factory call error with
    | .executor executor error =>
      buildExecutors factory remaining (call + 1) error (executors ++ [executor])
    | .null error => .error (if error.isEmpty then "failed to create executor" else error)
    | .threw what => .error (caughtMessage what)

/-- The part of a configuration that a `ModelScheduler` is made with. -/
def modelSchedulerConfig (config : RuntimeConfig) : SchedulerConfig where
  max_queue_size := config.max_queue_size
  request_timeout_ms := config.request_timeout_ms
  instances := config.instances
  dynamic_batching := {
    enabled := config.dynamic_batching_enabled
    max_batch_size := config.max_batch_size
    max_queue_delay_us := config.max_queue_delay_us
    preferred_batch_sizes := config.preferred_batch_sizes }

/-- The part of it that an `LlmScheduler` is made with. -/
def llmSchedulerConfig (config : RuntimeConfig) : LlmSchedulerConfig where
  max_queue_size := config.max_queue_size
  request_timeout_ms := config.request_timeout_ms
  instances := config.instances
  context_length := config.context_length
  kv_cache_slots := config.kv_cache_slots
  max_tokens := config.max_tokens
  memory_budget_bytes := config.memory_budget_bytes

/-- `makeLlmScheduler` refuses a configuration without KV-cache slots, and both
constructors may fail to start their worker threads (`workers` is then what the
exception says). -/
def makeScheduler (config : RuntimeConfig) (executors : List Executor) (id : Nat)
    (workers : Option (Option String)) : Except String Scheduler :=
  match workers with
  | some what => .error (caughtMessage what)
  | none =>
    if usesLlmScheduler config.scheduler_strategy config.backend then
      if config.kv_cache_slots = 0 then .error "kv cache slots must be greater than 0"
      else .ok { id, executors, kind := .llmScheduler (llmSchedulerConfig config) }
    else .ok { id, executors, kind := .modelScheduler (modelSchedulerConfig config) }

def markLoadFailed (handle : ModelHandle) (config : RuntimeConfig) (message : String) : ModelHandle :=
  { handle with
    state := handle.state.markFailed
    load_error := some message
    metadata := { handle.metadata with
      name := config.model_name
      versions := handle.versions
      platform := "neuriplo_" ++ config.backend }
    scheduler := none }

namespace ModelLifecycle

/-- `load`, into a handle of the caller's. `id` is the identity of the
scheduler object the call may create. -/
def load (handle : ModelHandle) (config : RuntimeConfig) (factory : ExecutorFactory)
    (version_override : Option String) (id : Nat) (workers : Option (Option String)) : ModelHandle :=
  if handle.state ≠ .unloaded then handle
  else
    let handle := { handle with
      name := config.model_name
      versions := [version_override.getD "1"]
      load_error := none
      state := handle.state.startLoad }
    match buildExecutors factory config.instances 0 "" [] with
    | .error message => markLoadFailed handle config message
    | .ok [] => markLoadFailed handle config "no executor instances configured"
    | .ok (front :: rest) =>
      let metadata := match version_override with
        | some version => { front.metadata with versions := [version] }
        | none => front.metadata
      let handle := { handle with metadata, name := metadata.name, versions := metadata.versions }
      match makeScheduler config (front :: rest) id workers with
      | .error message => markLoadFailed handle config message
      | .ok scheduler => { handle with scheduler := some scheduler, state := handle.state.markReady }

/-- A lifecycle operation's effect: the handle afterwards, the scheduler it
called `stopAccepting` on, the scheduler it handed out for retirement, and its
answer. -/
structure Outcome where
  handle : ModelHandle
  stopped : Option Scheduler := none
  retired : Option Scheduler := none
  ok : Bool

def beginDrain (handle : ModelHandle) : Outcome :=
  match handle.scheduler with
  | none => { handle, ok := false }
  | some scheduler =>
    { handle := if handle.state = .ready then { handle with state := handle.state.beginUnload } else handle
      stopped := some scheduler
      ok := true }

/-- The scheduler is handed out through `retired_scheduler`, which `beginReload`
does not pass. -/
def completeUnload (handle : ModelHandle) : Outcome :=
  if handle.state ≠ .unloading then { handle, ok := false }
  else
    { handle := { handle with
        scheduler := none
        metadata := {}
        versions := []
        load_error := none
        state := handle.state.completeUnload }
      stopped := handle.scheduler
      retired := handle.scheduler
      ok := isValidTransition handle.state .unloaded }

def beginReload (handle : ModelHandle) : Outcome :=
  match handle.state with
  | .loading => { handle, ok := false }
  | .ready => { handle, ok := true }
  | .unloading => { completeUnload handle with retired := none }
  | .failed | .unavailable => { handle := { handle with state := handle.state.reset }, ok := true }
  | .unloaded => { handle, ok := true }

def finishReload (handle next : ModelHandle) : ModelHandle × Bool :=
  if next.state ≠ .ready then
    let handle := { handle with load_error := next.load_error }
    if handle.state = .unloaded then
      ({ handle with state := handle.state.startLoad.markFailed }, false)
    else (handle, false)
  else
    let handle := { handle with
      name := next.name
      versions := next.versions
      metadata := next.metadata
      scheduler := next.scheduler
      load_error := none }
    if handle.state ≠ .ready then
      let state := if handle.state ≠ .unloaded then handle.state.reset else handle.state
      ({ handle with state := state.startLoad.markReady }, true)
    else (handle, true)

end ModelLifecycle

end neuriplo.model
