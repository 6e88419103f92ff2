import NeuriploRuntime.Registry.State

open neuriplo.config neuriplo.model neuriplo.tensor

namespace neuriplo.registry

/-- The registry calls that build a replacement handle. -/
inductive Call where
  | loadModel (config : RuntimeConfig)
  | reload (model_name : String) (config : RuntimeConfig)
  | switchVersion (model_name version : String) (config : RuntimeConfig)
deriving DecidableEq

namespace Call

def model_name : Call → String
  | loadModel config => config.model_name
  | reload model_name _ => model_name
  | switchVersion model_name _ _ => model_name

/-- The configuration the call was made with, which its pipeline factory uses. -/
def config : Call → RuntimeConfig
  | loadModel config => config
  | reload _ config => config
  | switchVersion _ _ config => config

/-- The configuration the call builds with: `version_config` in a version
switch. -/
def build_config : Call → RuntimeConfig
  | loadModel config => config
  | reload _ config => config
  | switchVersion model_name version config => { config with model_name, model_version := version }

def version_override : Call → Option String
  | loadModel config => config.version_override
  | reload _ config => config.version_override
  | switchVersion _ version _ => some version

end Call

/-- What a caller parked on `load_cv_` waits for: the end of the first load it
joined, or of the reload or version switch in flight. -/
inductive Wait where
  | firstLoad
  | reloadPending
deriving DecidableEq

/-- How the locked section that opens a call leaves it: answered, parked, or
with the slot reserved for its own build. -/
inductive Entry where
  | answer (answer : Bool)
  | wait (wait : Wait)
  | build
deriving DecidableEq

/-- How the locked section that closes a call leaves it: its answer, and the
snapshot it goes on to retire. -/
structure Finish where
  after : ModelRegistry
  answer : Bool
  old_snapshot : Option InferSnapshot := none

def ModelSlot.publishSnapshot (slot : ModelSlot) : ModelSlot :=
  { slot with active_snapshot := some (.fromHandle slot.handle) }

/-- The slot a first load reserves before it builds. -/
def ModelSlot.placeholder (config : RuntimeConfig) : ModelSlot :=
  { config
    handle := { name := config.model_name, state := ModelState.unloaded.startLoad } : ModelSlot }.publishSnapshot

/-- `slot->version_snapshots[version] = snapshot`, for a snapshot that has a
version to be found under. -/
def indexSnapshot (version_snapshots : String → Option InferSnapshot) (snapshot : Option InferSnapshot) :
    String → Option InferSnapshot :=
  if snapshot.isSome && !(versionFromSnapshot snapshot).isEmpty then
    Function.update version_snapshots (versionFromSnapshot snapshot) snapshot
  else version_snapshots

namespace ModelRegistry

/-- The predicate of `load_cv_.wait`. -/
def waitOver (registry : ModelRegistry) (model_name : String) : Wait → Bool
  | .firstLoad => (registry.models_ model_name).all fun slot => slot.handle.state ≠ .loading
  | .reloadPending => (registry.models_ model_name).all fun slot => !slot.reload_pending

def enterLoad (registry : ModelRegistry) (config : RuntimeConfig) : ModelRegistry × Entry :=
  match registry.models_ config.model_name with
  | some existing =>
    if existing.handle.state ≠ .loading then (registry, .answer false) else (registry, .wait .firstLoad)
  | none => (registry.setSlot config.model_name (.placeholder config), .build)

/-- The loop body of `reload`, and of `switchVersion` after its check for the
active version. -/
def enterReload (registry : ModelRegistry) (model_name : String) : ModelRegistry × Entry :=
  match registry.models_ model_name with
  | none => (registry, .answer false)
  | some slot =>
    if slot.handle.state = .loading && !slot.reload_pending then (registry, .wait .firstLoad)
    else if slot.reload_pending then (registry, .wait .reloadPending)
    else
      let begun := ModelLifecycle.beginReload slot.handle
      let registry := registry.stopAccepting begun.stopped
      if begun.ok then
        (registry.setSlot model_name { slot with handle := begun.handle, reload_pending := true }, .build)
      else (registry.setSlot model_name { slot with handle := begun.handle }, .answer false)

def enterSwitch (registry : ModelRegistry) (model_name version : String) : ModelRegistry × Entry :=
  match registry.models_ model_name with
  | none => (registry, .answer false)
  | some slot =>
    if versionFromSnapshot slot.active_snapshot = version &&
        slot.active_snapshot.any registry.snapshotReady then (registry, .answer true)
    else registry.enterReload model_name

def enter (registry : ModelRegistry) : Call → ModelRegistry × Entry
  | .loadModel config => registry.enterLoad config
  | .reload model_name _ => registry.enterReload model_name
  | .switchVersion model_name version _ => registry.enterSwitch model_name version

/-- What a caller that joined a first load answers once it is over, whatever
version that load published. -/
def joined (registry : ModelRegistry) (model_name : String) : Bool :=
  (registry.models_ model_name).any fun slot => registry.handleReady slot.handle

def finishLoad (registry : ModelRegistry) (config : RuntimeConfig) (built : ModelHandle) : Finish :=
  match registry.models_ config.model_name with
  | none => { after := registry, answer := false }
  | some slot =>
    { after := registry.setSlot config.model_name { slot with config, handle := built }.publishSnapshot
      answer := true }

def finishReload (registry : ModelRegistry) (model_name : String) (config : RuntimeConfig)
    (next : ModelHandle) : Finish :=
  match registry.models_ model_name with
  | none => { after := registry, answer := false }
  | some slot =>
    let (handle, success) := ModelLifecycle.finishReload slot.handle next
    let slot' := { slot with handle, reload_pending := false }
    if success then
      { after := registry.setSlot model_name { slot' with config }.publishSnapshot
        answer := registry.handleReady handle
        old_snapshot := slot.active_snapshot }
    else { after := registry.setSlot model_name slot'.publishSnapshot, answer := false }

/-- The closing section of `switchVersion` differs from `reload`'s in that it
also indexes the old and the new snapshot under their versions. -/
def finishSwitch (registry : ModelRegistry) (model_name : String) (version_config : RuntimeConfig)
    (next : ModelHandle) : Finish :=
  match registry.models_ model_name with
  | none => { after := registry, answer := false }
  | some slot =>
    let (handle, success) := ModelLifecycle.finishReload slot.handle next
    let slot' := { slot with handle, reload_pending := false }
    if success then
      let slot' := { slot' with config := version_config }.publishSnapshot
      let version_snapshots :=
        indexSnapshot (indexSnapshot slot.version_snapshots slot.active_snapshot) slot'.active_snapshot
      { after := registry.setSlot model_name { slot' with version_snapshots }
        answer := slot'.active_snapshot.any registry.snapshotReady
        old_snapshot := slot.active_snapshot }
    else { after := registry.setSlot model_name slot'.publishSnapshot, answer := false }

def finish (registry : ModelRegistry) (call : Call) (next : ModelHandle) : Finish :=
  match call with
  | .loadModel config => registry.finishLoad config next
  | .reload model_name config => registry.finishReload model_name config next
  | .switchVersion model_name _ _ => registry.finishSwitch model_name call.build_config next

/-- The destructor of an uncommitted `PendingLoadGuard`. -/
def resolvePending (registry : ModelRegistry) (model_name : String) : ModelRegistry :=
  match registry.models_ model_name with
  | none => registry
  | some slot =>
    if slot.handle.state = .loading && !slot.reload_pending then
      registry.setSlot model_name { slot with
        handle := { slot.handle with
          state := slot.handle.state.markFailed
          load_error := some "executor build threw" } }.publishSnapshot
    else if slot.reload_pending then
      registry.setSlot model_name { slot with
        reload_pending := false
        handle := { slot.handle with load_error := some "executor build threw" } }.publishSnapshot
    else registry

/-- The first section of `unloadModel`; `none` when it goes on to drain. -/
def enterUnload (registry : ModelRegistry) (model_name : String) : ModelRegistry × Option Bool :=
  match registry.models_ model_name with
  | none => (registry, some false)
  | some slot =>
    if slot.reload_pending || slot.handle.state = .loading then (registry, some false)
    else if slot.handle.state = .failed && slot.handle.scheduler.isNone then
      (registry.eraseSlot model_name, some true)
    else (registry, none)

def beginDrain (registry : ModelRegistry) (model_name : String) : ModelRegistry × Bool :=
  match registry.models_ model_name with
  | none => (registry, false)
  | some slot =>
    if slot.reload_pending then (registry, false)
    else
      let drained := ModelLifecycle.beginDrain slot.handle
      if drained.ok then
        ((registry.stopAccepting drained.stopped).setSlot model_name
          { slot with handle := drained.handle }.publishSnapshot, true)
      else (registry, false)

def completeUnload (registry : ModelRegistry) (model_name : String) : ModelRegistry × Bool :=
  match registry.models_ model_name with
  | none => (registry, false)
  | some slot =>
    let completed := ModelLifecycle.completeUnload slot.handle
    let registry := registry.stopAccepting completed.stopped
    if completed.ok then ((registry.retire completed.retired).eraseSlot model_name, true)
    else (registry.setSlot model_name { slot with handle := completed.handle }, false)

end ModelRegistry

end neuriplo.registry
