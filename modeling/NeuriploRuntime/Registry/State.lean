import Mathlib.Logic.Function.Basic
import NeuriploRuntime.Model.Load
import NeuriploRuntime.Model.Snapshot

open neuriplo.config neuriplo.model neuriplo.tensor

namespace neuriplo.registry

abbrev InferSnapshot := Snapshot Scheduler

def InferSnapshot.fromHandle (handle : ModelHandle) : InferSnapshot where
  name := handle.name
  versions := handle.versions
  state := handle.state
  metadata := handle.metadata
  scheduler := handle.scheduler
  load_error := handle.load_error

/-- The label a version switch compares and indexes by; empty without one. -/
def versionFromSnapshot : Option InferSnapshot → String
  | none => ""
  | some snapshot =>
    match snapshot.metadata.versions, snapshot.versions with
    | version :: _, _ => version
    | [], version :: _ => version
    | [], [] => ""

structure ModelSlot where
  handle : ModelHandle
  config : RuntimeConfig
  active_snapshot : Option InferSnapshot := none
  version_snapshots : String → Option InferSnapshot := fun _ => none
  reload_pending : Bool := false

/-- The registry, with the schedulers it handed out beside it. Only the flag
`draining_` of a scheduler matters here: `draining` lists the schedulers whose
flag is up, `retire_queue_` those ever passed to `SchedulerRetireQueue::retire`,
and `next_scheduler` is the identity of the next one to be created. -/
structure ModelRegistry where
  models_ : String → Option ModelSlot := fun _ => none
  catalog_ : String → Option RuntimeConfig := fun _ => none
  draining : List Nat := []
  retire_queue_ : List Nat := []
  next_scheduler : Nat := 0

namespace ModelRegistry

/-- `Scheduler::isReady`, the same for both kinds of scheduler. -/
def schedulerReady (registry : ModelRegistry) (scheduler : Option Scheduler) : Bool :=
  scheduler.any fun scheduler => !registry.draining.contains scheduler.id

def handleReady (registry : ModelRegistry) (handle : ModelHandle) : Bool :=
  handle.state = .ready && registry.schedulerReady handle.scheduler

/-- `InferSnapshot::isReady` -/
def snapshotReady (registry : ModelRegistry) (snapshot : InferSnapshot) : Bool :=
  snapshot.state = .ready && registry.schedulerReady snapshot.scheduler

/-- A snapshot is ready when the handle that it is taken from is. -/
@[simp] theorem snapshotReady_fromHandle (registry : ModelRegistry) (handle : ModelHandle) :
    registry.snapshotReady (.fromHandle handle) = registry.handleReady handle := rfl

def findHandle (registry : ModelRegistry) (model_name : String) : Option InferSnapshot :=
  (registry.models_ model_name).bind (·.active_snapshot)

/-- The per-version index first, then the versions the active snapshot knows. -/
def findHandleVersion (registry : ModelRegistry) (model_name version : String) :
    Option InferSnapshot :=
  match registry.models_ model_name with
  | none => none
  | some slot =>
    match slot.version_snapshots version with
    | some snapshot => some snapshot
    | none =>
      match slot.active_snapshot with
      | none => none
      | some snapshot =>
        let known_versions :=
          if snapshot.metadata.versions.isEmpty then snapshot.versions else snapshot.metadata.versions
        if version ∈ known_versions then some snapshot else none

def ready (registry : ModelRegistry) (model_name : String) : Bool :=
  (registry.findHandle model_name).any registry.snapshotReady

def readyVersion (registry : ModelRegistry) (model_name version : String) : Bool :=
  (registry.findHandleVersion model_name version).any registry.snapshotReady

def defaultVersion (registry : ModelRegistry) (model_name : String) : Option String :=
  match registry.findHandle model_name with
  | none => none
  | some snapshot =>
    match snapshot.metadata.versions, snapshot.versions with
    | version :: _, _ => some version
    | [], version :: _ => some version
    | [], [] => none

def modelConfig (registry : ModelRegistry) (model_name : String) : Option RuntimeConfig :=
  (registry.models_ model_name).map (·.config)

def catalogConfig (registry : ModelRegistry) (model_name : String) : Option RuntimeConfig :=
  registry.catalog_ model_name

/-- The resolver `makePipelineFactory` builds, which a pipeline also calls
again on every request. -/
def resolve (registry : ModelRegistry) (step : ModelStep) : Option InferSnapshot :=
  if step.model_version.isEmpty then registry.findHandle step.model_name
  else registry.findHandleVersion step.model_name step.model_version

def setSlot (registry : ModelRegistry) (model_name : String) (slot : ModelSlot) : ModelRegistry :=
  { registry with models_ := Function.update registry.models_ model_name (some slot) }

def eraseSlot (registry : ModelRegistry) (model_name : String) : ModelRegistry :=
  { registry with models_ := Function.update registry.models_ model_name none }

/-- `Scheduler::stopAccepting` raises the flag. -/
def stopAccepting (registry : ModelRegistry) (scheduler : Option Scheduler) : ModelRegistry :=
  { registry with draining := (scheduler.map (·.id)).toList ++ registry.draining }

/-- `SchedulerRetireQueue::retire` starts a task that drains the scheduler; the
task itself is a step of its own. -/
def retire (registry : ModelRegistry) (scheduler : Option Scheduler) : ModelRegistry :=
  { registry with retire_queue_ := (scheduler.map (·.id)).toList ++ registry.retire_queue_ }

def retireSnapshot (registry : ModelRegistry) (snapshot : Option InferSnapshot) : ModelRegistry :=
  registry.retire (snapshot.bind (·.scheduler))

section Fields

variable (registry : ModelRegistry) (model_name : String) (slot : ModelSlot)
  (scheduler : Option Scheduler)

@[simp] theorem setSlot_draining : (registry.setSlot model_name slot).draining = registry.draining := rfl
@[simp] theorem setSlot_retire_queue_ :
    (registry.setSlot model_name slot).retire_queue_ = registry.retire_queue_ := rfl
@[simp] theorem setSlot_next_scheduler :
    (registry.setSlot model_name slot).next_scheduler = registry.next_scheduler := rfl

@[simp] theorem eraseSlot_draining : (registry.eraseSlot model_name).draining = registry.draining := rfl
@[simp] theorem eraseSlot_retire_queue_ :
    (registry.eraseSlot model_name).retire_queue_ = registry.retire_queue_ := rfl
@[simp] theorem eraseSlot_next_scheduler :
    (registry.eraseSlot model_name).next_scheduler = registry.next_scheduler := rfl

@[simp] theorem stopAccepting_models_ : (registry.stopAccepting scheduler).models_ = registry.models_ := rfl
@[simp] theorem stopAccepting_retire_queue_ :
    (registry.stopAccepting scheduler).retire_queue_ = registry.retire_queue_ := rfl
@[simp] theorem stopAccepting_next_scheduler :
    (registry.stopAccepting scheduler).next_scheduler = registry.next_scheduler := rfl

@[simp] theorem retire_models_ : (registry.retire scheduler).models_ = registry.models_ := rfl
@[simp] theorem retire_draining : (registry.retire scheduler).draining = registry.draining := rfl
@[simp] theorem retire_next_scheduler :
    (registry.retire scheduler).next_scheduler = registry.next_scheduler := rfl

/-- To store a slot changes what stands under its name. -/
@[simp] theorem setSlot_models_ :
    (registry.setSlot model_name slot).models_ = Function.update registry.models_ model_name (some slot) :=
  rfl

/-- To remove a slot leaves nothing under its name. -/
@[simp] theorem eraseSlot_models_ :
    (registry.eraseSlot model_name).models_ = Function.update registry.models_ model_name none := rfl

variable {registry model_name slot}

/-- What stands under a name after a slot was stored. -/
theorem setSlot_eq_some {other : String} {slot' : ModelSlot} :
    (registry.setSlot model_name slot).models_ other = some slot' ↔
      (other = model_name ∧ slot = slot') ∨ (other ≠ model_name ∧ registry.models_ other = some slot') := by
  by_cases hname : other = model_name
  · subst hname
    simp
  · simp [hname]

/-- What stands under a name after a slot was removed. -/
theorem eraseSlot_eq_some {other : String} {slot' : ModelSlot} :
    (registry.eraseSlot model_name).models_ other = some slot' ↔
      other ≠ model_name ∧ registry.models_ other = some slot' := by
  by_cases hname : other = model_name
  · subst hname
    simp
  · simp [hname]

end Fields

end ModelRegistry

end neuriplo.registry
