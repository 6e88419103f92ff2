import NeuriploRuntime.Registry.Phase
import NeuriploRuntime.Registry.Threads

open neuriplo.config neuriplo.model neuriplo.model.ModelLifecycle neuriplo.pipeline neuriplo.tensor

namespace neuriplo.registry

/-- What other callers of the same model wait for while the call builds. -/
def Call.kind : Call → Wait
  | .loadModel _ => .firstLoad
  | .reload _ _ => .reloadPending
  | .switchVersion _ _ _ => .reloadPending

namespace Pc

/-- The build the thread has in flight. -/
def holds : Pc → Option (String × Wait)
  | .building call _ => some (call.model_name, call.kind)
  | .guarding call => some (call.model_name, call.kind)
  | .finishing call _ => some (call.model_name, call.kind)
  | _ => none

/-- The replacement the thread has built and not yet published. -/
def next : Pc → Option BuiltHandle
  | .finishing _ next => some next
  | _ => none

/-- The snapshot the thread has displaced and not yet retired. -/
def retires : Pc → Option InferSnapshot
  | .notifying _ _ old_snapshot => old_snapshot
  | .retiring _ _ old_snapshot => old_snapshot
  | _ => none

end Pc

/-- The slot after a replacement that came up Ready. Only a version switch
touches the per-version index. -/
def ModelSlot.replaced (slot : ModelSlot) (call : Call) (next : ModelHandle) : ModelSlot :=
  { slot with
    handle := next
    config := call.build_config
    reload_pending := false
    active_snapshot := some (.fromHandle next)
    version_snapshots := match call with
      | .switchVersion _ _ _ =>
        indexSnapshot (indexSnapshot slot.version_snapshots slot.active_snapshot) (some (.fromHandle next))
      | _ => slot.version_snapshots }

/-- The slot after a replacement that did not come up. -/
def ModelSlot.kept (slot : ModelSlot) (next : ModelHandle) : ModelSlot :=
  { slot with handle := slot.handle.rejected next, reload_pending := false : ModelSlot }.publishSnapshot

/-- The slot after a build that threw past the lifecycle. -/
def ModelSlot.resolved (slot : ModelSlot) : ModelSlot :=
  { slot with
    reload_pending := false
    handle := { slot.handle with
      state := if slot.handle.state = .loading then .failed else slot.handle.state
      load_error := some "executor build threw" } : ModelSlot }.publishSnapshot

def ModelSlot.begun (slot : ModelSlot) : ModelSlot :=
  { slot with handle := (beginReload slot.handle).handle, reload_pending := true }

def ModelSlot.drained (slot : ModelSlot) : ModelSlot :=
  { slot with handle := { slot.handle with state := .unloading } : ModelSlot }.publishSnapshot

/-- All a thread's step can do to the registry. `stay` gathers the steps that
leave it alone; the others are the outcomes of the locked sections, with what
the section found. -/
inductive Effect (registry : ModelRegistry) : Pc → ModelRegistry → Pc → Prop where
  | stay {pc pc' : Pc} (hholds : pc'.holds = pc.holds) (hnext : pc.next = none) (hnext' : pc'.next = none)
      (hretires : pc'.retires = pc.retires) : Effect registry pc registry pc'
  | reserved (config : RuntimeConfig) (prebuilt : Option Prebuilt)
      (hslot : registry.models_ config.model_name = none) :
      Effect registry (.entering (.loadModel config) prebuilt)
        (registry.setSlot config.model_name (.placeholder config)) (.building (.loadModel config) prebuilt)
  | begun (call : Call) (prebuilt : Option Prebuilt) (slot : ModelSlot) (hkind : call.kind = .reloadPending)
      (hslot : registry.models_ call.model_name = some slot) (hidle : slot.inFlight = none) :
      Effect registry (.entering call prebuilt)
        ((registry.stopAccepting (beginReload slot.handle).stopped).setSlot call.model_name slot.begun)
        (.building call prebuilt)
  | built (call : Call) (prebuilt : Option Prebuilt) (backend : BackendFactory)
      (workers : Option (Option String)) :
      Effect registry (.building call prebuilt)
        { registry with next_scheduler := registry.next_scheduler + 1 }
        (.finishing call (call.built prebuilt backend workers registry.next_scheduler))
  | loaded (config : RuntimeConfig) (next : BuiltHandle) (slot : ModelSlot)
      (hslot : registry.models_ config.model_name = some slot) (hstate : slot.handle.state = .loading)
      (hpending : slot.reload_pending = false) :
      Effect registry (.finishing (.loadModel config) next)
        (registry.setSlot config.model_name
          { slot with config, handle := next.toModelHandle : ModelSlot }.publishSnapshot)
        (.notifying (.loadModel config) (some true) none)
  | replaced (call : Call) (next : BuiltHandle) (slot : ModelSlot) (hkind : call.kind = .reloadPending)
      (hslot : registry.models_ call.model_name = some slot) (hpending : slot.reload_pending = true)
      (hnext : next.state = .ready) :
      Effect registry (.finishing call next)
        (registry.setSlot call.model_name (slot.replaced call next.toModelHandle))
        (.notifying call (some (registry.handleReady next.toModelHandle)) slot.active_snapshot)
  | rejected (call : Call) (next : BuiltHandle) (slot : ModelSlot) (hkind : call.kind = .reloadPending)
      (hslot : registry.models_ call.model_name = some slot) (hpending : slot.reload_pending = true)
      (hnext : next.state ≠ .ready) :
      Effect registry (.finishing call next)
        (registry.setSlot call.model_name (slot.kept next.toModelHandle)) (.notifying call (some false) none)
  | resolved (call : Call) (slot : ModelSlot) (hslot : registry.models_ call.model_name = some slot)
      (hflight : slot.inFlight = some call.kind) :
      Effect registry (.guarding call) (registry.setSlot call.model_name slot.resolved)
        (.notifying call none none)
  | retired (call : Call) (answer : Option Bool) (old_snapshot : Option InferSnapshot) :
      Effect registry (.retiring call answer old_snapshot) (registry.retireSnapshot old_snapshot)
        (.returned (some call) answer)
  | erased (model_name : String) (slot : ModelSlot) (hslot : registry.models_ model_name = some slot)
      (hstate : slot.handle.state = .failed) (hpending : slot.reload_pending = false) :
      Effect registry (.unloading model_name) (registry.eraseSlot model_name) (.returned none (some true))
  | drained (model_name : String) (whole : Bool) (slot : ModelSlot) (scheduler : Scheduler) {pc' : Pc}
      (hslot : registry.models_ model_name = some slot) (hpending : slot.reload_pending = false)
      (hstate : slot.handle.state = .ready ∨ slot.handle.state = .unloading)
      (hscheduler : slot.handle.scheduler = some scheduler)
      (hpc' : pc'.holds = none ∧ pc'.next = none ∧ pc'.retires = none) :
      Effect registry (.draining model_name whole)
        ((registry.stopAccepting (some scheduler)).setSlot model_name slot.drained) pc'
  | completed (model_name : String) (whole : Bool) (slot : ModelSlot) (scheduler : Scheduler)
      (hslot : registry.models_ model_name = some slot) (hpending : slot.reload_pending = false)
      (hstate : slot.handle.state = .unloading) (hscheduler : slot.handle.scheduler = some scheduler) :
      Effect registry (.completing model_name whole)
        (((registry.stopAccepting (some scheduler)).retire (some scheduler)).eraseSlot model_name)
        (.returned none (some true))

section Sections

variable {registry : ModelRegistry}

/-- To enter without a build changes nothing. -/
theorem Pc.entered_stay (call : Call) (prebuilt : Option Prebuilt) {entry : Entry} (hbuild : entry ≠ .build) :
    Effect registry (.entering call prebuilt) registry (.entered call prebuilt entry) := by
  cases entry with
  | answer answer => exact .stay rfl rfl rfl rfl
  | wait wait => exact .stay rfl rfl rfl rfl
  | build => exact absurd rfl hbuild

/-- A thread enters a reload. -/
theorem Effect.enterReload (hphased : registry.Phased) {call : Call} (hkind : call.kind = .reloadPending)
    (prebuilt : Option Prebuilt) :
    Effect registry (.entering call prebuilt) (registry.enterReload call.model_name).1
      (.entered call prebuilt (registry.enterReload call.model_name).2) := by
  unfold ModelRegistry.enterReload
  cases hslot : registry.models_ call.model_name with
  | none => exact Pc.entered_stay call prebuilt nofun
  | some slot =>
    by_cases hloading : slot.handle.state = .loading ∧ slot.reload_pending = false
    · simp only [hloading.1, hloading.2, decide_true, Bool.not_false, Bool.and_self, ↓reduceIte]
      exact Pc.entered_stay call prebuilt nofun
    · by_cases hpending : slot.reload_pending = true
      · simp only [hpending, Bool.not_true, Bool.and_false, Bool.false_eq_true, ↓reduceIte]
        exact Pc.entered_stay call prebuilt nofun
      · have hstate : slot.handle.state ≠ .loading := by
          intro hstate
          exact hloading ⟨hstate, by simpa using hpending⟩
        have hidle : slot.inFlight = none := by
          simp [ModelSlot.inFlight, hpending, hstate]
        obtain ⟨hok, -, -⟩ := ModelSlot.beginReload_spec (hphased _ slot hslot) hidle
        simp only [hstate, decide_false, hpending, Bool.false_and, Bool.false_eq_true, ↓reduceIte, hok]
        exact .begun call prebuilt slot hkind hslot hidle

/-- A thread enters a load. -/
theorem Effect.enter (hphased : registry.Phased) (call : Call) (prebuilt : Option Prebuilt) :
    Effect registry (.entering call prebuilt) (registry.enter call).1
      (.entered call prebuilt (registry.enter call).2) := by
  cases call with
  | loadModel config =>
    simp only [ModelRegistry.enter, ModelRegistry.enterLoad]
    cases hslot : registry.models_ config.model_name with
    | none => exact .reserved config prebuilt hslot
    | some existing =>
      by_cases hstate : existing.handle.state = .loading
      · simp only [hstate, ne_eq, not_true_eq_false, ↓reduceIte]
        exact Pc.entered_stay _ prebuilt nofun
      · simp only [hstate, ne_eq, not_false_eq_true, ↓reduceIte]
        exact Pc.entered_stay _ prebuilt nofun
  | reload model_name config => exact Effect.enterReload hphased rfl prebuilt
  | switchVersion model_name version config =>
    simp only [ModelRegistry.enter, ModelRegistry.enterSwitch]
    cases hslot : registry.models_ model_name with
    | none => exact Pc.entered_stay _ prebuilt nofun
    | some slot =>
      simp only
      split
      · exact Pc.entered_stay _ prebuilt nofun
      · have hkind : (Call.switchVersion model_name version config).kind = .reloadPending := rfl
        exact Effect.enterReload hphased hkind prebuilt

/-- A build in flight finds the slot it was started for. -/
theorem ModelRegistry.slot_of_inFlight {model_name : String} {wait : Wait}
    (hflight : registry.inFlight model_name = some wait) :
    ∃ slot, registry.models_ model_name = some slot ∧ slot.inFlight = some wait :=
  Option.bind_eq_some_iff.mp hflight

/-- A thread stores what it has built. -/
theorem Effect.finish (hphased : registry.Phased) (call : Call) (next : BuiltHandle)
    (hflight : registry.inFlight call.model_name = some call.kind) :
    Effect registry (.finishing call next) (registry.finish call next.toModelHandle).after
      (.notifying call (some (registry.finish call next.toModelHandle).answer)
        (registry.finish call next.toModelHandle).old_snapshot) := by
  obtain ⟨slot, hslot, hflight⟩ := ModelRegistry.slot_of_inFlight hflight
  have hphase := hphased _ slot hslot
  cases call with
  | loadModel config =>
    have hstate := hphase.inFlight_firstLoad.mp hflight
    obtain ⟨hpending, -⟩ := hphase.of_loading hstate
    simp only [Call.model_name] at hslot
    simp only [ModelRegistry.finish, ModelRegistry.finishLoad, hslot]
    exact .loaded config next slot hslot hstate hpending
  | reload model_name config =>
    have hpending := slot.inFlight_reloadPending.mp hflight
    simp only [Call.model_name] at hslot
    by_cases hnext : next.state = .ready
    · have heffect := Effect.replaced (.reload model_name config) next slot rfl hslot hpending hnext
      simp only [ModelRegistry.finish, ModelRegistry.finishReload, hslot,
        finishReload_ready (hphase.pending_state hpending) hnext, ↓reduceIte]
      exact heffect
    · have heffect := Effect.rejected (.reload model_name config) next slot rfl hslot hpending hnext
      simp only [ModelRegistry.finish, ModelRegistry.finishReload, hslot,
        finishReload_failed slot.handle hnext, Bool.false_eq_true, ↓reduceIte]
      exact heffect
  | switchVersion model_name version config =>
    have hpending := slot.inFlight_reloadPending.mp hflight
    simp only [Call.model_name] at hslot
    by_cases hnext : next.state = .ready
    · have heffect := Effect.replaced (.switchVersion model_name version config) next slot rfl hslot hpending hnext
      simp only [ModelRegistry.finish, ModelRegistry.finishSwitch, hslot,
        finishReload_ready (hphase.pending_state hpending) hnext, ↓reduceIte]
      exact heffect
    · have heffect := Effect.rejected (.switchVersion model_name version config) next slot rfl hslot hpending hnext
      simp only [ModelRegistry.finish, ModelRegistry.finishSwitch, hslot,
        finishReload_failed slot.handle hnext, Bool.false_eq_true, ↓reduceIte]
      exact heffect

/-- A thread whose build threw takes its flag back. -/
theorem Effect.resolvePending (hphased : registry.Phased) (call : Call)
    (hflight : registry.inFlight call.model_name = some call.kind) :
    Effect registry (.guarding call) (registry.resolvePending call.model_name) (.notifying call none none) := by
  obtain ⟨slot, hslot, hflight⟩ := ModelRegistry.slot_of_inFlight hflight
  have heffect := Effect.resolved call slot hslot hflight
  suffices registry.resolvePending call.model_name = registry.setSlot call.model_name slot.resolved by
    rw [this]
    exact heffect
  have hfailed : ModelState.loading.markFailed = .failed := rfl
  unfold ModelRegistry.resolvePending
  cases hphased _ slot hslot with
  | loading hstate hpending => simp [hslot, hstate, hpending, ModelSlot.resolved, hfailed]
  | ready scheduler hstate =>
    have hpending : slot.reload_pending = true := by
      by_contra hpending
      simp [ModelSlot.inFlight, hstate, hpending] at hflight
    simp [hslot, hstate, hpending, ModelSlot.resolved]
  | rebuilding snapshot hstate hpending => simp [hslot, hstate, hpending, ModelSlot.resolved]
  | failed message hstate hpending => simp [ModelSlot.inFlight, hstate, hpending] at hflight
  | unloading scheduler hstate hpending => simp [ModelSlot.inFlight, hstate, hpending] at hflight
  | unloaded hstate hpending => simp [ModelSlot.inFlight, hstate, hpending] at hflight

/-- A thread enters an unload. -/
theorem Effect.enterUnload (model_name : String) :
    Effect registry (.unloading model_name) (registry.enterUnload model_name).1
      (match (registry.enterUnload model_name).2 with
        | some answer => .returned none (some answer)
        | none => .draining model_name true) := by
  unfold ModelRegistry.enterUnload
  cases hslot : registry.models_ model_name with
  | none => exact .stay rfl rfl rfl rfl
  | some slot =>
    simp only
    split
    · exact .stay rfl rfl rfl rfl
    · rename_i hidle
      simp only [Bool.or_eq_true, decide_eq_true_eq, not_or, Bool.not_eq_true] at hidle
      split
      · rename_i hfailed
        simp only [Bool.and_eq_true, decide_eq_true_eq] at hfailed
        exact .erased model_name slot hslot hfailed.1 hidle.1
      · exact .stay rfl rfl rfl rfl

/-- A thread starts to drain a model. -/
theorem Effect.beginDrain (hphased : registry.Phased) (model_name : String) (whole : Bool) {pc' : Pc}
    (hpc' : pc'.holds = none ∧ pc'.next = none ∧ pc'.retires = none) :
    Effect registry (.draining model_name whole) (registry.beginDrain model_name).1 pc' := by
  have hstay : Effect registry (.draining model_name whole) registry pc' :=
    .stay hpc'.1 rfl hpc'.2.1 hpc'.2.2
  unfold ModelRegistry.beginDrain
  cases hslot : registry.models_ model_name with
  | none => exact hstay
  | some slot =>
    by_cases hpending : slot.reload_pending = true
    · simpa only [hpending, ↓reduceIte] using hstay
    · rw [Bool.not_eq_true] at hpending
      cases hphased _ slot hslot with
      | ready scheduler hstate hscheduler hpublished =>
        have heffect := Effect.drained model_name whole slot scheduler hslot hpending (.inl hstate) hscheduler hpc'
        simpa [hpending, ModelLifecycle.beginDrain, hstate, hscheduler, ModelSlot.drained,
          ModelState.beginUnload, ModelState.transitionTo, isValidTransition] using heffect
      | unloading scheduler hstate _ hscheduler hpublished =>
        have heffect := Effect.drained model_name whole slot scheduler hslot hpending (.inr hstate) hscheduler hpc'
        have hhandle : ({ slot.handle with state := .unloading } : ModelHandle) = slot.handle := by
          rw [← hstate]
        rw [ModelSlot.drained, hhandle] at heffect
        simpa [hpending, ModelLifecycle.beginDrain, hstate, hscheduler] using heffect
      | loading _ _ hscheduler => simpa [hpending, ModelLifecycle.beginDrain, hscheduler] using hstay
      | failed _ _ _ hscheduler => simpa [hpending, ModelLifecycle.beginDrain, hscheduler] using hstay
      | unloaded _ _ hscheduler => simpa [hpending, ModelLifecycle.beginDrain, hscheduler] using hstay
      | rebuilding _ _ hrebuilding => simp [hpending] at hrebuilding

/-- A thread removes the slot that it has drained. -/
theorem Effect.completeUnload (hphased : registry.Phased) (model_name : String) (whole : Bool) :
    Effect registry (.completing model_name whole) (registry.completeUnload model_name).1
      (.returned none (some (registry.completeUnload model_name).2)) := by
  unfold ModelRegistry.completeUnload
  cases hslot : registry.models_ model_name with
  | none => exact .stay rfl rfl rfl rfl
  | some slot =>
    by_cases hstate : slot.handle.state = .unloading
    · obtain ⟨scheduler, hpending, hscheduler⟩ := (hphased _ slot hslot).of_unloading hstate
      have hvalid : isValidTransition ModelState.unloading .unloaded = true := rfl
      have heffect := Effect.completed model_name whole slot scheduler hslot hpending hstate hscheduler
      simpa [ModelLifecycle.completeUnload, hstate, hscheduler, hvalid] using heffect
    · have hrefused : ModelLifecycle.completeUnload slot.handle = { handle := slot.handle, ok := false } := by
        simp [ModelLifecycle.completeUnload, hstate]
      have hsame : (registry.stopAccepting none).setSlot model_name slot = registry :=
        ModelRegistry.setSlot_self hslot
      simp only [hrefused, Bool.false_eq_true, ↓reduceIte, hsame]
      exact .stay rfl rfl rfl rfl

end Sections

/-- Every step of a thread has one of the effects, once the slots are in their
phases and the builds in flight are recorded. -/
theorem Pc.step_effect {registry registry' : ModelRegistry} {pc pc' : Pc} {action : Action}
    (hphased : registry.Phased)
    (hflight : ∀ model_name wait, pc.holds = some (model_name, wait) →
      registry.inFlight model_name = some wait)
    (hstep : pc.step registry action = some (registry', pc')) : Effect registry pc registry' pc' := by
  have hstart (request : Request) : Effect registry .idle registry request.start := by
    refine .stay ?_ rfl ?_ ?_ <;> cases request <;> simp only [Request.start] <;> (try split) <;> rfl
  have hprepared (call : Call) (construction : Construction) (prebuilt : Prebuilt) (progress : Progress) :
      Effect registry (.preparing call construction prebuilt) registry (.prepared call progress) := by
    refine .stay ?_ rfl ?_ ?_ <;> cases progress <;> rfl
  unfold Pc.step at hstep
  split at hstep
  case h_1 request =>
    cases hstep
    exact hstart request
  case h_2 call prebuilt graph =>
    cases hstep
    exact hprepared call _ prebuilt _
  case h_3 call graph steps prebuilt builtins =>
    cases hstep
    exact hprepared call _ prebuilt _
  case h_4 call prebuilt =>
    cases hstep
    exact Effect.enter hphased call prebuilt
  case h_5 =>
    cases hstep
    exact .stay rfl rfl rfl rfl
  case h_6 call prebuilt wait =>
    cases hstep
    refine .stay ?_ rfl ?_ ?_ <;> cases wait <;> simp only [Pc.rewoken] <;> split <;> rfl
  case h_7 call prebuilt backend workers =>
    cases hstep
    exact .built call prebuilt backend workers
  case h_8 =>
    cases hstep
    exact .stay rfl rfl rfl rfl
  case h_9 call =>
    cases hstep
    exact Effect.resolvePending hphased call (hflight _ _ rfl)
  case h_10 call next =>
    cases hstep
    exact Effect.finish hphased call next (hflight _ _ rfl)
  case h_11 =>
    cases hstep
    exact .stay rfl rfl rfl rfl
  case h_12 call answer old_snapshot =>
    cases hstep
    exact .retired call answer old_snapshot
  case h_13 model_name =>
    have heffect : Effect registry (.unloading model_name) (registry.enterUnload model_name).1 _ :=
      Effect.enterUnload model_name
    split at hstep <;> rename_i hsection <;> rw [hsection] at heffect <;> cases hstep <;> exact heffect
  case h_14 model_name whole =>
    have heffect {pc : Pc} (hpc : pc.holds = none ∧ pc.next = none ∧ pc.retires = none) :=
      Effect.beginDrain hphased model_name whole hpc
    simp only at hstep
    split at hstep <;> cases hstep <;> exact heffect ⟨rfl, rfl, rfl⟩
  case h_15 model_name whole =>
    cases hstep
    exact Effect.completeUnload hphased model_name whole
  case h_16 =>
    cases hstep
    exact .stay rfl rfl rfl rfl
  case h_17 => cases hstep

end neuriplo.registry
