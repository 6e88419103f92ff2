import NeuriploRuntime.Registry.Sections

open neuriplo.config neuriplo.model neuriplo.model.ModelLifecycle neuriplo.tensor

namespace neuriplo.registry

def ModelSlot.Published (slot : ModelSlot) : Prop :=
  slot.active_snapshot = some (.fromHandle slot.handle)

/-- The phases of a slot. A slot is published as it is, except while a handle
that served nobody is being replaced: there the snapshot of what it was stays
up until the replacement is known. -/
inductive ModelSlot.Phase (slot : ModelSlot) : Prop where
  | loading (hstate : slot.handle.state = .loading) (hpending : slot.reload_pending = false)
      (hscheduler : slot.handle.scheduler = none)
      (hversions : slot.version_snapshots = fun _ => none) (hpublished : slot.Published)
  | ready (scheduler : Scheduler) (hstate : slot.handle.state = .ready)
      (hscheduler : slot.handle.scheduler = some scheduler) (hpublished : slot.Published)
  | failed (message : String) (hstate : slot.handle.state = .failed)
      (hpending : slot.reload_pending = false) (hscheduler : slot.handle.scheduler = none)
      (herror : slot.handle.load_error = some message) (hpublished : slot.Published)
  | unloading (scheduler : Scheduler) (hstate : slot.handle.state = .unloading)
      (hpending : slot.reload_pending = false) (hscheduler : slot.handle.scheduler = some scheduler)
      (hpublished : slot.Published)
  | unloaded (hstate : slot.handle.state = .unloaded) (hpending : slot.reload_pending = false)
      (hscheduler : slot.handle.scheduler = none) (hpublished : slot.Published)
  | rebuilding (snapshot : InferSnapshot) (hstate : slot.handle.state = .unloaded)
      (hpending : slot.reload_pending = true) (hscheduler : slot.handle.scheduler = none)
      (hsnapshot : slot.active_snapshot = some snapshot) (hserving : snapshot.state ≠ .ready)

/-- The build in flight for a slot, named by what another caller waits for. -/
def ModelSlot.inFlight (slot : ModelSlot) : Option Wait :=
  if slot.reload_pending then some .reloadPending
  else if slot.handle.state = .loading then some .firstLoad
  else none

namespace ModelRegistry

def inFlight (registry : ModelRegistry) (model_name : String) : Option Wait :=
  (registry.models_ model_name).bind ModelSlot.inFlight

def Phased (registry : ModelRegistry) : Prop :=
  ∀ model_name slot, registry.models_ model_name = some slot → slot.Phase

/-- A slot that is stored decides what is in flight for its model. -/
theorem inFlight_setSlot (registry : ModelRegistry) (model_name : String) (slot : ModelSlot) :
    (registry.setSlot model_name slot).inFlight =
      Function.update registry.inFlight model_name slot.inFlight := by
  funext other
  by_cases hname : other = model_name
  · subst hname
    simp [inFlight]
  · simp [inFlight, Function.update_of_ne hname]

theorem inFlight_eraseSlot (registry : ModelRegistry) (model_name : String) :
    (registry.eraseSlot model_name).inFlight = Function.update registry.inFlight model_name none := by
  funext other
  by_cases hname : other = model_name
  · subst hname
    simp [inFlight]
  · simp [inFlight, Function.update_of_ne hname]

theorem inFlight_of_slot {registry : ModelRegistry} {model_name : String} {slot : ModelSlot}
    (hslot : registry.models_ model_name = some slot) : registry.inFlight model_name = slot.inFlight := by
  rw [inFlight, hslot, Option.bind_some]

/-- A slot in a phase may be stored. -/
theorem Phased.setSlot {registry : ModelRegistry} (hphased : registry.Phased) (model_name : String)
    {slot : ModelSlot} (hphase : slot.Phase) : (registry.setSlot model_name slot).Phased := by
  intro other slot' hslot'
  obtain ⟨-, rfl⟩ | ⟨-, hslot'⟩ := setSlot_eq_some.mp hslot'
  · exact hphase
  · exact hphased other slot' hslot'

/-- A slot may be removed. -/
theorem Phased.eraseSlot {registry : ModelRegistry} (hphased : registry.Phased) (model_name : String) :
    (registry.eraseSlot model_name).Phased := by
  intro other slot' hslot'
  exact hphased other slot' (eraseSlot_eq_some.mp hslot').2

theorem setSlot_self {registry : ModelRegistry} {model_name : String} {slot : ModelSlot}
    (hslot : registry.models_ model_name = some slot) : registry.setSlot model_name slot = registry := by
  rw [setSlot, ← hslot, Function.update_eq_self]

end ModelRegistry

namespace ModelSlot

section States

variable {slot : ModelSlot} (hphase : slot.Phase)
include hphase

/-- A ready slot has published its scheduler. -/
theorem Phase.of_ready (hstate : slot.handle.state = .ready) :
    ∃ scheduler, slot.handle.scheduler = some scheduler ∧ slot.Published := by
  cases hphase with
  | ready scheduler _ hscheduler hpublished => exact ⟨scheduler, hscheduler, hpublished⟩
  | _ => simp_all

/-- A loading slot has no scheduler and no version yet. -/
theorem Phase.of_loading (hstate : slot.handle.state = .loading) :
    slot.reload_pending = false ∧ slot.handle.scheduler = none ∧ (slot.version_snapshots = fun _ => none) ∧
      slot.Published := by
  cases hphase with
  | loading _ hpending hscheduler hversions hpublished => exact ⟨hpending, hscheduler, hversions, hpublished⟩
  | _ => simp_all

/-- A failed slot has no scheduler. -/
theorem Phase.of_failed (hstate : slot.handle.state = .failed) : slot.handle.scheduler = none ∧ slot.Published := by
  cases hphase with
  | failed _ _ _ hscheduler _ hpublished => exact ⟨hscheduler, hpublished⟩
  | _ => simp_all

/-- An unloading slot still has its scheduler, and no reload in flight. -/
theorem Phase.of_unloading (hstate : slot.handle.state = .unloading) :
    ∃ scheduler, slot.reload_pending = false ∧ slot.handle.scheduler = some scheduler := by
  cases hphase with
  | unloading scheduler _ hpending hscheduler _ => exact ⟨scheduler, hpending, hscheduler⟩
  | _ => simp_all

/-- A handle with a scheduler is published. -/
theorem Phase.of_scheduler {scheduler : Scheduler} (hscheduler : slot.handle.scheduler = some scheduler) :
    slot.Published := by
  cases hphase with
  | ready _ _ _ hpublished => exact hpublished
  | unloading _ _ _ _ hpublished => exact hpublished
  | _ => simp_all

end States

/-- A first load is in flight exactly while the slot is loading. -/
theorem Phase.inFlight_firstLoad {slot : ModelSlot} (hphase : slot.Phase) :
    slot.inFlight = some .firstLoad ↔ slot.handle.state = .loading := by
  cases hphase <;> simp_all [ModelSlot.inFlight]

/-- A reload is in flight exactly while it is pending. -/
theorem inFlight_reloadPending (slot : ModelSlot) :
    slot.inFlight = some .reloadPending ↔ slot.reload_pending = true := by
  unfold ModelSlot.inFlight
  split
  · simp_all
  · split <;> simp_all

/-- The serving states in which nothing is in flight. -/
theorem Phase.idle_cases {slot : ModelSlot} (hphase : slot.Phase) (hidle : slot.inFlight = none) :
    slot.reload_pending = false ∧
      (slot.handle.state = .ready ∨ slot.handle.state = .failed ∨ slot.handle.state = .unloading ∨
        slot.handle.state = .unloaded) := by
  cases hphase <;> simp_all [ModelSlot.inFlight]

/-- A slot under replacement is one that goes on serving, or one that serves
nobody. -/
theorem Phase.pending_state {slot : ModelSlot} (hphase : slot.Phase) (hpending : slot.reload_pending = true) :
    slot.handle.state = .ready ∨ slot.handle.state = .unloaded := by
  cases hphase <;> simp_all

end ModelSlot

/-- The slot that a load starts with is in a phase. -/
theorem ModelSlot.placeholder_phase (config : RuntimeConfig) : (ModelSlot.placeholder config).Phase :=
  .loading rfl rfl rfl rfl rfl

/-- The end of a first load: whatever the build gave is published. -/
theorem ModelSlot.loaded_phase (slot : ModelSlot) (config : RuntimeConfig) (built : BuiltHandle)
    (hpending : slot.reload_pending = false) :
    ModelSlot.Phase { slot with config, handle := built.toModelHandle : ModelSlot }.publishSnapshot := by
  cases built.settled with
  | ready scheduler hstate hscheduler _ _ => exact .ready scheduler hstate hscheduler rfl
  | failed message hstate hscheduler herror =>
    exact .failed message hstate hpending hscheduler herror rfl

/-- A reload may begin on any slot with nothing in flight. A slot that serves
is left as it is; any other ends up Unloaded, and a scheduler it still held was
told to stop. -/
theorem ModelSlot.beginReload_spec {slot : ModelSlot} (hphase : slot.Phase)
    (hidle : slot.inFlight = none) :
    (beginReload slot.handle).ok = true ∧
      ModelSlot.Phase { slot with handle := (beginReload slot.handle).handle, reload_pending := true } ∧
      ((slot.handle.state = .ready ∧ (beginReload slot.handle).handle = slot.handle ∧
          (beginReload slot.handle).stopped = none) ∨
        (slot.handle.state ≠ .ready ∧ (beginReload slot.handle).handle.state = .unloaded ∧
          (beginReload slot.handle).handle.scheduler = none ∧
          (beginReload slot.handle).stopped = slot.handle.scheduler)) := by
  cases hphase with
  | loading hstate hpending => simp [ModelSlot.inFlight, hstate, hpending] at hidle
  | ready scheduler hstate hscheduler hpublished =>
    have hbegin : beginReload slot.handle = { handle := slot.handle, ok := true } := by
      simp [beginReload, hstate]
    rw [hbegin]
    exact ⟨rfl, .ready scheduler hstate hscheduler hpublished, .inl ⟨hstate, rfl, rfl⟩⟩
  | failed message hstate hpending hscheduler herror hpublished =>
    have hbegin : beginReload slot.handle =
        { handle := { slot.handle with state := .unloaded }, ok := true } := by
      simp [beginReload, hstate, ModelState.reset, ModelState.transitionTo, isValidTransition]
    rw [hbegin]
    exact ⟨rfl, .rebuilding _ rfl rfl hscheduler hpublished (by simp [InferSnapshot.fromHandle, hstate]),
      .inr ⟨by simp [hstate], rfl, hscheduler, hscheduler.symm⟩⟩
  | unloading scheduler hstate hpending hscheduler hpublished =>
    have hvalid : isValidTransition ModelState.unloading .unloaded = true := rfl
    have hbegin : beginReload slot.handle =
        { handle := { slot.handle with
            scheduler := none, metadata := {}, versions := [], load_error := none, state := .unloaded }
          stopped := slot.handle.scheduler, ok := true } := by
      simp [beginReload, completeUnload, hstate, ModelState.completeUnload, ModelState.transitionTo, hvalid]
    rw [hbegin]
    exact ⟨rfl, .rebuilding _ rfl rfl rfl hpublished (by simp [InferSnapshot.fromHandle, hstate]),
      .inr ⟨by simp [hstate], rfl, rfl, rfl⟩⟩
  | unloaded hstate hpending hscheduler hpublished =>
    have hbegin : beginReload slot.handle = { handle := slot.handle, ok := true } := by
      simp [beginReload, hstate]
    rw [hbegin]
    exact ⟨rfl, .rebuilding _ hstate rfl hscheduler hpublished (by simp [InferSnapshot.fromHandle, hstate]),
      .inr ⟨by simp [hstate], hstate, hscheduler, hscheduler.symm⟩⟩
  | rebuilding snapshot hstate hpending => simp [ModelSlot.inFlight, hpending] at hidle

/-- A failed replacement leaves a slot that serves serving, and any other on
Failed with the new error. -/
theorem ModelSlot.rejected_phase {slot : ModelSlot} (hphase : slot.Phase)
    (hpending : slot.reload_pending = true) {next : BuiltHandle} (hnext : next.state ≠ .ready) :
    ModelSlot.Phase ({ slot with
      handle := slot.handle.rejected next.toModelHandle, reload_pending := false } : ModelSlot).publishSnapshot := by
  obtain ⟨message, herror⟩ : ∃ message, next.load_error = some message := by
    cases next.settled with
    | ready _ hstate => exact absurd hstate hnext
    | failed message _ _ herror => exact ⟨message, herror⟩
  cases hphase with
  | ready scheduler hstate hscheduler _ =>
    exact .ready scheduler (by simp [publishSnapshot, ModelHandle.rejected, hstate]) hscheduler rfl
  | rebuilding snapshot hstate _ hscheduler _ _ =>
    exact .failed message (by simp [publishSnapshot, ModelHandle.rejected, hstate]) rfl hscheduler herror rfl
  | loading _ hidle => simp [hidle] at hpending
  | failed _ _ hidle => simp [hidle] at hpending
  | unloading _ _ hidle => simp [hidle] at hpending
  | unloaded _ hidle => simp [hidle] at hpending

/-- A Ready replacement makes the slot Ready, whatever is recorded beside it. -/
theorem ModelSlot.replaced_phase (slot : ModelSlot) {next : BuiltHandle} (hnext : next.state = .ready)
    (hhandle : slot.handle = next.toModelHandle) (hpublished : slot.Published) : slot.Phase := by
  cases next.settled with
  | ready scheduler hstate hscheduler => exact .ready scheduler (hhandle ▸ hstate) (hhandle ▸ hscheduler) hpublished
  | failed _ hstate => simp [hnext] at hstate

end neuriplo.registry
