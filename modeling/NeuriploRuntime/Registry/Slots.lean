import NeuriploRuntime.Registry.Invariant

open neuriplo.config neuriplo.model neuriplo.model.ModelLifecycle neuriplo.pipeline neuriplo.tensor transition

namespace neuriplo.registry

variable {registry registry' : ModelRegistry} {pc pc' : Pc}

/-- A flag that is taken back leaves the slot in a phase. -/
theorem ModelSlot.resolved_phase {slot : ModelSlot} (hphase : slot.Phase) (hidle : slot.inFlight ≠ none) :
    slot.resolved.Phase := by
  cases hphase with
  | loading hstate _ hscheduler _ _ =>
    exact .failed _ (by simp [resolved, publishSnapshot, hstate]) rfl hscheduler rfl rfl
  | ready scheduler hstate hscheduler _ =>
    exact .ready scheduler (by simp [resolved, publishSnapshot, hstate]) hscheduler rfl
  | rebuilding snapshot hstate _ hscheduler _ _ =>
    exact .unloaded (by simp [resolved, publishSnapshot, hstate]) rfl hscheduler rfl
  | failed _ hstate hpending => simp [inFlight, hstate, hpending] at hidle
  | unloading _ hstate hpending => simp [inFlight, hstate, hpending] at hidle
  | unloaded hstate hpending => simp [inFlight, hstate, hpending] at hidle

/-- Every effect leaves every slot in one of its phases. -/
theorem Effect.phased (heffect : Effect registry pc registry' pc') (hphased : registry.Phased) :
    registry'.Phased := by
  cases heffect with
  | stay => exact hphased
  | reserved config => exact hphased.setSlot _ (ModelSlot.placeholder_phase config)
  | begun call _ slot _ hslot hidle =>
    have hphased' : (registry.stopAccepting (beginReload slot.handle).stopped).Phased := hphased
    exact hphased'.setSlot _ (ModelSlot.beginReload_spec (hphased _ slot hslot) hidle).2.1
  | built => exact hphased
  | loaded config next slot _ _ hpending =>
    exact hphased.setSlot _ (slot.loaded_phase config next hpending)
  | replaced call next slot _ _ _ hnext =>
    exact hphased.setSlot _ ((slot.replaced call next.toModelHandle).replaced_phase hnext rfl rfl)
  | rejected call next slot _ hslot hpending hnext =>
    exact hphased.setSlot _ (ModelSlot.rejected_phase (hphased _ slot hslot) hpending hnext)
  | resolved call slot hslot hflight =>
    exact hphased.setSlot _ (ModelSlot.resolved_phase (hphased _ slot hslot) (by simp [hflight]))
  | retired => exact hphased
  | erased model_name => exact hphased.eraseSlot model_name
  | drained model_name _ slot scheduler _ hpending _ hscheduler =>
    have hphased' : (registry.stopAccepting (some scheduler)).Phased := hphased
    exact hphased'.setSlot _ (.unloading scheduler rfl hpending hscheduler rfl)
  | completed model_name _ slot scheduler =>
    have hphased' : ((registry.stopAccepting (some scheduler)).retire (some scheduler)).Phased := hphased
    exact hphased'.eraseSlot model_name

/-- A phase in which the handle is settled has nothing in flight. -/
theorem ModelSlot.inFlight_eq_none {slot : ModelSlot} (hpending : slot.reload_pending = false)
    (hstate : slot.handle.state ≠ .loading) : slot.inFlight = none := by
  simp [inFlight, hpending, hstate]

/-- What the state of a slot may be while something is in flight for it. -/
theorem ModelSlot.Phase.inFlight_state {slot : ModelSlot} (hphase : slot.Phase) {wait : Wait}
    (hflight : slot.inFlight = some wait) :
    slot.handle.state = .loading ∨ slot.handle.state = .ready ∨ slot.handle.state = .unloaded := by
  cases hphase with
  | loading hstate => exact .inl hstate
  | ready _ hstate => exact .inr (.inl hstate)
  | rebuilding _ hstate => exact .inr (.inr hstate)
  | unloaded hstate => exact .inr (.inr hstate)
  | failed _ hstate hpending => simp [inFlight, hstate, hpending] at hflight
  | unloading _ hstate hpending => simp [inFlight, hstate, hpending] at hflight

/-- What an effect does to the builds in flight: nothing, take a free name, or
give a name back on the way to `notify_all`. -/
theorem Effect.inFlight (heffect : Effect registry pc registry' pc') (hphased : registry.Phased) :
    (pc'.holds = pc.holds ∧ registry'.inFlight = registry.inFlight) ∨
    (∃ model_name wait, pc.holds = none ∧ pc'.holds = some (model_name, wait) ∧
      registry.inFlight model_name = none ∧
      registry'.inFlight = Function.update registry.inFlight model_name (some wait)) ∨
    (∃ model_name wait, pc.holds = some (model_name, wait) ∧ pc'.holds = none ∧ pc'.notifies = true ∧
      registry'.inFlight = Function.update registry.inFlight model_name none) := by
  have hsame {registry₀ : ModelRegistry} (hregistry : registry₀.inFlight = registry.inFlight)
      {model_name : String} {slot slot' : ModelSlot} (hslot : registry.models_ model_name = some slot)
      (hslot' : slot'.inFlight = slot.inFlight) :
      (registry₀.setSlot model_name slot').inFlight = registry.inFlight := by
    rw [ModelRegistry.inFlight_setSlot, hregistry, hslot', ← ModelRegistry.inFlight_of_slot hslot,
      Function.update_eq_self]
  have hgone {registry₀ : ModelRegistry} (hregistry : registry₀.inFlight = registry.inFlight)
      {model_name : String} {slot : ModelSlot} (hslot : registry.models_ model_name = some slot)
      (hidle : slot.inFlight = none) : (registry₀.eraseSlot model_name).inFlight = registry.inFlight := by
    rw [ModelRegistry.inFlight_eraseSlot, hregistry, ← hidle, ← ModelRegistry.inFlight_of_slot hslot,
      Function.update_eq_self]
  have hrelease (model_name : String) {slot' : ModelSlot} (hslot' : slot'.inFlight = none) :
      (registry.setSlot model_name slot').inFlight = Function.update registry.inFlight model_name none := by
    rw [ModelRegistry.inFlight_setSlot, hslot']
  cases heffect with
  | stay hholds => exact .inl ⟨hholds, rfl⟩
  | reserved config prebuilt hslot =>
    refine .inr (.inl ⟨config.model_name, .firstLoad, rfl, rfl, ?_, ?_⟩)
    · rw [ModelRegistry.inFlight, hslot, Option.bind_none]
    · rw [ModelRegistry.inFlight_setSlot]
      rfl
  | begun call prebuilt slot hkind hslot hidle =>
    refine .inr (.inl ⟨call.model_name, .reloadPending, rfl, ?_, ?_, ?_⟩)
    · rw [Pc.holds, hkind]
    · rw [ModelRegistry.inFlight_of_slot hslot, hidle]
    · rw [ModelRegistry.inFlight_setSlot]
      rfl
  | built => exact .inl ⟨rfl, rfl⟩
  | loaded config next slot hslot hstate hpending =>
    refine .inr (.inr ⟨config.model_name, .firstLoad, rfl, rfl, rfl, hrelease _ ?_⟩)
    exact ModelSlot.inFlight_eq_none hpending next.state_ne_loading
  | replaced call next slot hkind hslot hpending hnext =>
    refine .inr (.inr ⟨call.model_name, call.kind, rfl, rfl, rfl, hrelease _ ?_⟩)
    exact ModelSlot.inFlight_eq_none rfl next.state_ne_loading
  | rejected call next slot hkind hslot hpending hnext =>
    refine .inr (.inr ⟨call.model_name, call.kind, rfl, rfl, rfl, hrelease _ ?_⟩)
    refine ModelSlot.inFlight_eq_none rfl ?_
    rcases (hphased _ slot hslot).pending_state hpending with hstate | hstate <;>
      simp [ModelSlot.kept, ModelSlot.publishSnapshot, ModelHandle.rejected, hstate]
  | resolved call slot hslot hflight =>
    refine .inr (.inr ⟨call.model_name, call.kind, rfl, rfl, rfl, hrelease _ ?_⟩)
    refine ModelSlot.inFlight_eq_none rfl ?_
    simp only [ModelSlot.resolved, ModelSlot.publishSnapshot]
    split <;> simp_all
  | retired => exact .inl ⟨rfl, rfl⟩
  | erased model_name slot hslot hstate hpending =>
    exact .inl ⟨rfl, hgone rfl hslot (ModelSlot.inFlight_eq_none hpending (by simp [hstate]))⟩
  | drained model_name whole slot scheduler hslot hpending hstate hscheduler hpc' =>
    refine .inl ⟨hpc'.1, hsame rfl hslot ?_⟩
    have hstate' : slot.handle.state ≠ .loading := by
      rcases hstate with hstate | hstate <;> simp [hstate]
    rw [ModelSlot.inFlight_eq_none hpending hstate']
    exact ModelSlot.inFlight_eq_none hpending (by simp [ModelSlot.drained, ModelSlot.publishSnapshot])
  | completed model_name whole slot scheduler hslot hpending hstate =>
    exact .inl ⟨rfl, hgone rfl hslot (ModelSlot.inFlight_eq_none hpending (by simp [hstate]))⟩

/-- A build ends only on the way to `notify_all`. -/
theorem Effect.inFlight_ends (heffect : Effect registry pc registry' pc') (hphased : registry.Phased)
    {model_name : String} {wait : Wait} (hflight : registry.inFlight model_name = some wait) :
    registry'.inFlight model_name = some wait ∨ pc'.notifies = true := by
  rcases heffect.inFlight hphased with ⟨-, hsame⟩ | ⟨taken, kind, -, -, hfree, hupdate⟩ |
    ⟨released, kind, -, -, hnotifies, -⟩
  · exact .inl (by rw [hsame, hflight])
  · have hne : model_name ≠ taken := by
      rintro rfl
      rw [hfree] at hflight
      cases hflight
    exact .inl (by rw [hupdate, Function.update_of_ne hne, hflight])
  · exact .inr hnotifies

/-- The threads' builds and the slots' flags stay in step. -/
theorem Effect.exclusive {s : State} {thread : Nat}
    (heffect : Effect s.registry_ (s.threads thread) registry' pc') (hphased : s.registry_.Phased)
    (hexclusive : Exclusive s.registry_.inFlight s.builds) :
    Exclusive registry'.inFlight (s.move thread (registry', pc')).builds := by
  rw [State.move_builds]
  rcases heffect.inFlight hphased with ⟨hholds, hsame⟩ | ⟨model_name, wait, hholds, hholds', hfree, hupdate⟩ |
    ⟨model_name, wait, hholds, hholds', -, hupdate⟩
  · have hbuilds : Function.update s.builds thread pc'.holds = s.builds := by
      rw [hholds]
      exact Function.update_eq_self thread s.builds
    rw [hsame, hbuilds]
    exact hexclusive
  · rw [hupdate, hholds']
    exact hexclusive.acquire hfree hholds
  · rw [hupdate, hholds']
    exact hexclusive.release hholds

/-- A slot that is not ready serves nothing. -/
theorem ModelSlot.serves_of_state {slot : ModelSlot} (hstate : slot.handle.state ≠ .ready) :
    slot.serves = none := by
  simp [serves, hstate]

/-- A thread that has built serves what it has built. -/
theorem BuiltHandle.serves (call : Call) (next : BuiltHandle) :
    (Pc.finishing call next).serves = next.scheduler.map (·.id) := rfl

/-- A settled handle serves exactly when it is Ready. -/
theorem ModelSlot.serves_of_built {slot : ModelSlot} {next : BuiltHandle}
    (hhandle : slot.handle = next.toModelHandle) : slot.serves = next.scheduler.map (·.id) := by
  cases next.settled with
  | ready scheduler hstate hscheduler => simp [serves, hhandle, hstate]
  | failed message hstate hscheduler => simp [serves, hhandle, hstate, hscheduler]

namespace State

variable {s : State} {thread : Nat}

/-- A published scheduler serves, or was told to stop. -/
theorem Inv.snapshot_scheduler (hinv : s.Inv) {model_name : String} {slot : ModelSlot}
    {snapshot : InferSnapshot} {scheduler : Scheduler} (hslot : s.registry_.models_ model_name = some slot)
    (hsnapshot : slot.active_snapshot = some snapshot) (hscheduler : snapshot.scheduler = some scheduler) :
    s.serves (.slot model_name) = some scheduler.id ∨ scheduler.id ∈ s.registry_.draining := by
  by_cases hstate : slot.handle.state = .ready
  · refine .inl ?_
    obtain ⟨-, -, hpublished⟩ := (hinv.phased _ slot hslot).of_ready hstate
    rw [hpublished, Option.some.injEq] at hsnapshot
    subst hsnapshot
    have hheld : slot.handle.scheduler = some scheduler := hscheduler
    simp [serves, hslot, ModelSlot.serves, hstate, hheld]
  · exact .inr (hinv.stopped _ slot snapshot scheduler hslot hstate hsnapshot hscheduler)

/-- The scheduler of a slot serves, or drains. -/
theorem Inv.handle_scheduler (hinv : s.Inv) {model_name : String} {slot : ModelSlot}
    {scheduler : Scheduler} (hslot : s.registry_.models_ model_name = some slot)
    (hscheduler : slot.handle.scheduler = some scheduler) :
    s.serves (.slot model_name) = some scheduler.id ∨ scheduler.id ∈ s.registry_.draining := by
  have hpublished := (hinv.phased _ slot hslot).of_scheduler hscheduler
  exact hinv.snapshot_scheduler hslot hpublished hscheduler

/-- A step that leaves the slots alone and displaces nothing new. -/
theorem custody_same_models {next : Nat} (hcustody : Custody s.serves s.Displaced next)
    (hmodels : registry'.models_ = s.registry_.models_) (hserves : pc'.serves = none)
    (hdraining : registry'.draining = s.registry_.draining)
    (hretired : ∀ scheduler, scheduler ∈ registry'.retire_queue_ → s.Displaced scheduler)
    (hretires : ∀ snapshot, pc'.retires = some snapshot → (s.threads thread).retires = some snapshot) :
    Custody (s.move thread (registry', pc')).serves (s.move thread (registry', pc')).Displaced next := by
  refine hcustody.shrink ?_ ?_
  · intro place scheduler hplace
    rw [move_serves_same hmodels, hserves] at hplace
    exact (update_none_eq_some_iff.mp hplace).2
  · intro scheduler hdisplaced
    have hdisplaced' : s.Displaced scheduler ∨ False := by
      refine displaced_move ?_ ?_ ?_ hdisplaced
      · exact fun hmem => .inl (.stopped (hdraining ▸ hmem))
      · exact fun hmem => .inl (hretired scheduler hmem)
      · exact fun snapshot held hsnapshot hheld hid =>
          .inl (.retiring thread snapshot held (hretires _ hsnapshot) hheld hid)
    exact .inl (hdisplaced'.resolve_right id)

/-- A step after which one slot serves with what it served with, or not at all;
only that scheduler may be displaced. -/
theorem custody_slot {next : Nat} (hcustody : Custody s.serves s.Displaced next) {model_name : String}
    {slot' : Option ModelSlot}
    (hmodels : registry'.models_ = Function.update s.registry_.models_ model_name slot')
    (hserves : ∀ scheduler, slot'.bind ModelSlot.serves = some scheduler →
      s.serves (.slot model_name) = some scheduler)
    (hpc' : pc'.serves = none) (hretires : pc'.retires = none)
    (hdraining : ∀ scheduler, scheduler ∈ registry'.draining → s.Displaced scheduler ∨
      (s.serves (.slot model_name) = some scheduler ∧ slot'.bind ModelSlot.serves = none))
    (hretired : ∀ scheduler, scheduler ∈ registry'.retire_queue_ → s.Displaced scheduler) :
    Custody (s.move thread (registry', pc')).serves (s.move thread (registry', pc')).Displaced next := by
  refine hcustody.shrink ?_ ?_
  · intro place scheduler hplace
    rw [move_serves hmodels, hpc'] at hplace
    obtain ⟨rfl, hslot⟩ | ⟨-, hbefore⟩ := update_eq_some_iff.mp (update_none_eq_some_iff.mp hplace).2
    · exact hserves scheduler hslot
    · exact hbefore
  · intro scheduler hdisplaced
    rcases displaced_move (hdraining scheduler) (fun hmem => .inl (hretired scheduler hmem))
      (fun snapshot held hsnapshot => by simp [hretires] at hsnapshot) hdisplaced with hold | ⟨hheld, hnone⟩
    · exact .inl hold
    · refine .inr ⟨.slot model_name, hheld, ?_⟩
      rw [move_serves hmodels, Function.update_of_ne (by simp), Function.update_self]
      exact hnone

/-- A step that publishes what the thread had built. -/
theorem custody_publish {next : Nat} (hcustody : Custody s.serves s.Displaced next) {model_name : String}
    {slot' : ModelSlot} {scheduler : Nat}
    (hmodels : registry'.models_ = Function.update s.registry_.models_ model_name (some slot'))
    (hthread : (s.threads thread).serves = some scheduler) (hslot' : slot'.serves = some scheduler)
    (hpc' : pc'.serves = none) (hdraining : registry'.draining = s.registry_.draining)
    (hretired : registry'.retire_queue_ = s.registry_.retire_queue_)
    (hretires : ∀ snapshot held, pc'.retires = some snapshot → snapshot.scheduler = some held →
      s.Displaced held.id ∨ s.serves (.slot model_name) = some held.id) :
    Custody (s.move thread (registry', pc')).serves (s.move thread (registry', pc')).Displaced next := by
  have hsource : s.serves (.thread thread) = some scheduler := hthread
  have hne : Place.thread thread ≠ .slot model_name := by simp
  rw [move_serves hmodels, Option.bind_some, hslot', hpc']
  refine hcustody.move hsource hne ?_
  intro other hother
  refine displaced_move (fun hmem => .inl (.stopped (hdraining ▸ hmem)))
    (fun hmem => .inl (.retired (hretired ▸ hmem))) ?_ hother
  intro snapshot held hsnapshot hheld hid
  exact hid ▸ hretires snapshot held hsnapshot hheld

end State

end neuriplo.registry
