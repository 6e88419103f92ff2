import NeuriploRuntime.Registry.Reachable

open neuriplo.config neuriplo.model neuriplo.model.ModelLifecycle neuriplo.pipeline neuriplo.tensor transition

namespace neuriplo.registry

/-- Only the thread that builds for a flagged slot touches it, and not even
that thread erases it. -/
theorem Effect.flagged_slot {registry registry' : ModelRegistry} {pc pc' : Pc}
    (heffect : Effect registry pc registry' pc') {model_name : String} {slot : ModelSlot}
    (hslot : registry.models_ model_name = some slot) (hflagged : slot.Flagged) :
    registry'.models_ model_name = some slot ∨
      (∃ wait, pc.holds = some (model_name, wait)) ∧
        ∃ slot', registry'.models_ model_name = some slot' := by
  have hflight : slot.inFlight ≠ none := by
    obtain ⟨wait, hflight⟩ := ModelSlot.flagged_iff.mp hflagged
    simp [hflight]
  have hset {registry₀ : ModelRegistry} (hmodels : registry₀.models_ = registry.models_) {name : String}
      {slot' : ModelSlot} (hholds : name = model_name → ∃ wait, pc.holds = some (model_name, wait)) :
      (registry₀.setSlot name slot').models_ model_name = some slot ∨
        (∃ wait, pc.holds = some (model_name, wait)) ∧
          ∃ slot'', (registry₀.setSlot name slot').models_ model_name = some slot'' := by
    by_cases hname : model_name = name
    · exact .inr ⟨hholds hname.symm, slot', ModelRegistry.setSlot_eq_some.mpr (.inl ⟨hname, rfl⟩)⟩
    · exact .inl (ModelRegistry.setSlot_eq_some.mpr (.inr ⟨hname, by rw [hmodels, hslot]⟩))
  -- the sections that open a call or unload a model refuse a flagged slot
  have hidle {name : String} {other : ModelSlot} (hother : registry.models_ name = some other)
      (hnone : other.inFlight = none) : model_name ≠ name := by
    rintro rfl
    rw [hslot, Option.some.injEq] at hother
    exact hflight (hother ▸ hnone)
  cases heffect with
  | stay => exact .inl hslot
  | built => exact .inl hslot
  | retired => exact .inl hslot
  | reserved config prebuilt hfree =>
    refine hset rfl ?_
    rintro rfl
    rw [hfree] at hslot
    cases hslot
  | begun call prebuilt other hkind hother hnone =>
    exact hset rfl fun hname => absurd hname.symm (hidle hother hnone)
  | loaded config next =>
    exact hset rfl fun hname => ⟨.firstLoad, by rw [← hname]; rfl⟩
  | replaced call => exact hset rfl fun hname => ⟨call.kind, by rw [← hname]; rfl⟩
  | rejected call => exact hset rfl fun hname => ⟨call.kind, by rw [← hname]; rfl⟩
  | resolved call => exact hset rfl fun hname => ⟨call.kind, by rw [← hname]; rfl⟩
  | erased name other hother hstate hpending =>
    have hname := hidle hother (ModelSlot.inFlight_eq_none hpending (by simp [hstate]))
    exact .inl (ModelRegistry.eraseSlot_eq_some.mpr ⟨hname, hslot⟩)
  | drained name whole other scheduler hother hpending hstate =>
    have hstate' : other.handle.state ≠ .loading := by
      rcases hstate with hstate | hstate <;> simp [hstate]
    exact hset rfl fun hname => absurd hname.symm (hidle hother (ModelSlot.inFlight_eq_none hpending hstate'))
  | completed name whole other scheduler hother hpending hstate =>
    have hname := hidle hother (ModelSlot.inFlight_eq_none hpending (by simp [hstate]))
    exact .inl (ModelRegistry.eraseSlot_eq_some.mpr ⟨hname, hslot⟩)

/-- The frame rule for a build: until its own thread steps, no step of the
system changes the slot it was started for. -/
theorem State.Inv.flagged_slot {s s' : State} (hinv : s.Inv) {event : Event}
    (hstep : s.step event = some s') {model_name : String} {slot : ModelSlot}
    (hslot : s.registry_.models_ model_name = some slot) (hflagged : slot.Flagged) :
    s'.registry_.models_ model_name = some slot ∨
      (∃ thread action, event = .thread thread action ∧ s.Building thread model_name) ∧
        ∃ slot', s'.registry_.models_ model_name = some slot' := by
  cases event with
  | thread thread action =>
    obtain ⟨registry', pc', heffect, -, rfl⟩ := hinv.effect hstep
    obtain hsame | ⟨hholds, hslot'⟩ := heffect.flagged_slot hslot hflagged
    · exact .inl hsame
    · exact .inr ⟨⟨thread, action, rfl, hholds⟩, hslot'⟩
  | drainTask scheduler =>
    obtain ⟨-, rfl⟩ := State.step_drainTask hstep
    exact .inl hslot
  | setRepositoryCatalog configs =>
    cases hstep
    exact .inl hslot

/-- What the closing section of a build stores: the replacement when it came
up, and why it did not otherwise. -/
theorem State.Inv.finish_slot {s s' : State} (hinv : s.Inv) {thread : Nat} {call : Call}
    {next : BuiltHandle} (hpc : s.threads thread = .finishing call next)
    (hstep : s.step (.thread thread .run) = some s') :
    ∃ slot, s'.registry_.models_ call.model_name = some slot ∧
      slot.handle.load_error = next.load_error ∧
      (next.state = .ready → slot.handle = next.toModelHandle) := by
  obtain ⟨registry', pc', heffect, -, rfl⟩ := hinv.effect hstep
  rw [hpc] at heffect
  cases heffect with
  | stay _ hnext => cases hnext
  | loaded config _ slot =>
    exact ⟨_, ModelRegistry.setSlot_eq_some.mpr (.inl ⟨rfl, rfl⟩), rfl, fun _ => rfl⟩
  | replaced _ _ slot hkind hslot hpending hnext =>
    exact ⟨_, ModelRegistry.setSlot_eq_some.mpr (.inl ⟨rfl, rfl⟩), rfl, fun _ => rfl⟩
  | rejected _ _ slot hkind hslot hpending hnext =>
    exact ⟨_, ModelRegistry.setSlot_eq_some.mpr (.inl ⟨rfl, rfl⟩), rfl, fun hready => absurd hready hnext⟩

/-- In every state that any interleaving of the registry's operations reaches,
every slot keeps the invariant: it is Loading or `reload_pending` exactly while
one build of its name is in flight, such a slot is never erased and only that
build's thread changes it, so what the build gave is stored where it was meant
to go, and a Ready slot has a scheduler nobody told to stop. -/
theorem slot_invariant {s : State} (hreach : system.Reachable s) :
    (∀ model_name slot, s.registry_.models_ model_name = some slot → SlotInvariant s model_name slot) ∧
    (∀ thread model_name, s.Building thread model_name →
      ∃ slot, s.registry_.models_ model_name = some slot ∧ slot.Flagged) ∧
    (∀ model_name slot event s', s.registry_.models_ model_name = some slot → slot.Flagged →
      s.step event = some s' → s'.registry_.models_ model_name = some slot ∨
        (∃ thread action, event = .thread thread action ∧ s.Building thread model_name) ∧
          ∃ slot', s'.registry_.models_ model_name = some slot') ∧
    (∀ thread call next s', s.threads thread = .finishing call next →
      s.step (.thread thread .run) = some s' →
      ∃ slot, s'.registry_.models_ call.model_name = some slot ∧
        slot.handle.load_error = next.load_error ∧
        (next.state = .ready → slot.handle = next.toModelHandle)) := by
  have hinv := inv_reachable hreach
  refine ⟨?_, ?_, ?_, ?_⟩
  · intro model_name slot hslot
    exact hinv.slotInvariant hslot
  · intro thread model_name hbuilding
    exact hinv.building_slot hbuilding
  · intro model_name slot event s' hslot hflagged hstep
    exact hinv.flagged_slot hstep hslot hflagged
  · intro thread call next s' hpc hstep
    exact hinv.finish_slot hpc hstep

/-- A first load with its placeholder reserved and its build running. -/
def firstLoad : List Event :=
  [.thread 0 (.start (.build (.loadModel {}) false)), .thread 0 .run]

/-- The slot of a first load. -/
theorem slot_invariant_firstLoad :
    ∃ s slot, System.replay State.step {} firstLoad = some s ∧
      s.registry_.models_ "demo" = some slot ∧ slot.Flagged ∧ SlotInvariant s "demo" slot :=
  ⟨_, _, rfl, rfl, .inl rfl,
    (slot_invariant (@System.reachable_of_replay _ _ _ _ _ firstLoad rfl)).1 "demo" _ rfl⟩

end neuriplo.registry
