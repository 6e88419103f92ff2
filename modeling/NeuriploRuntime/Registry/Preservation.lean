import NeuriploRuntime.Registry.Slots

open neuriplo.config neuriplo.model neuriplo.model.ModelLifecycle neuriplo.pipeline neuriplo.tensor transition

namespace neuriplo.registry

variable {s : State} {thread : Nat} {registry' : ModelRegistry} {pc' : Pc}

/-- What `stopAccepting` adds to the flags. -/
theorem ModelRegistry.mem_stopAccepting {registry : ModelRegistry} {scheduler : Option Scheduler} {id : Nat} :
    id ∈ (registry.stopAccepting scheduler).draining ↔
      (∃ stopped, scheduler = some stopped ∧ stopped.id = id) ∨ id ∈ registry.draining := by
  cases scheduler <;> simp [stopAccepting, eq_comm]

/-- What waits in the queue after a scheduler was retired. -/
theorem ModelRegistry.mem_retire {registry : ModelRegistry} {scheduler : Option Scheduler} {id : Nat} :
    id ∈ (registry.retire scheduler).retire_queue_ ↔
      (∃ retired, scheduler = some retired ∧ retired.id = id) ∨ id ∈ registry.retire_queue_ := by
  cases scheduler <;> simp [retire, eq_comm]

/-- A slot without a scheduler serves nothing. -/
theorem ModelSlot.serves_eq_none_of_scheduler {slot : ModelSlot} (hscheduler : slot.handle.scheduler = none) :
    slot.serves = none := by
  simp [serves, hscheduler]

/-- Replacements are numbered as they are created. -/
theorem Call.built_scheduler (call : Call) (prebuilt : Option Prebuilt) (backend : BackendFactory)
    (workers : Option (Option String)) (id : Nat) :
    (Pc.finishing call (call.built prebuilt backend workers id)).serves = none ∨
      (Pc.finishing call (call.built prebuilt backend workers id)).serves = some id := by
  rw [BuiltHandle.serves]
  cases hscheduler : (call.built prebuilt backend workers id).scheduler with
  | none => exact .inl rfl
  | some scheduler =>
    refine .inr ?_
    rw [Option.map_some, (ModelLifecycle.build_scheduler hscheduler).1]

/-- Every effect keeps custody of the schedulers: each is served from one place,
and none is served again after it was displaced. -/
theorem Effect.custody (hinv : s.Inv) (heffect : Effect s.registry_ (s.threads thread) registry' pc') :
    Custody (s.move thread (registry', pc')).serves (s.move thread (registry', pc')).Displaced
      registry'.next_scheduler := by
  have hcustody := hinv.custody
  have hstopped (scheduler : Nat) (hmem : scheduler ∈ s.registry_.draining) : s.Displaced scheduler :=
    .stopped hmem
  have hretired (scheduler : Nat) (hmem : scheduler ∈ s.registry_.retire_queue_) : s.Displaced scheduler :=
    .retired hmem
  generalize hpc : s.threads thread = pc at heffect
  cases heffect with
  | stay hholds hnext hnext' hretires =>
    refine State.custody_same_models hcustody rfl (by simp [Pc.serves, hnext']) rfl hretired ?_
    intro snapshot hsnapshot
    rw [hpc, ← hretires, hsnapshot]
  | reserved config prebuilt hslot =>
    refine State.custody_slot hcustody rfl ?_ rfl rfl (fun id hmem => .inl (hstopped id hmem)) hretired
    intro scheduler hserves
    rw [Option.bind_some, ModelSlot.serves_eq_none_of_scheduler rfl] at hserves
    cases hserves
  | begun call prebuilt slot hkind hslot hidle =>
    obtain ⟨-, -, hhandle⟩ := ModelSlot.beginReload_spec (hinv.phased _ slot hslot) hidle
    have hserves : s.serves (.slot call.model_name) = slot.serves := by
      simp [State.serves, hslot]
    refine State.custody_slot hcustody rfl ?_ rfl rfl ?_ hretired
    · intro scheduler hscheduler
      rw [hserves]
      obtain ⟨-, hsame, -⟩ | ⟨-, -, hnone, -⟩ := hhandle
      · simpa [ModelSlot.serves, ModelSlot.begun, hsame] using hscheduler
      · rw [Option.bind_some, ModelSlot.serves_eq_none_of_scheduler hnone] at hscheduler
        cases hscheduler
    · intro scheduler hmem
      refine .inl ?_
      obtain ⟨stopped, hstop, rfl⟩ | hmem := ModelRegistry.mem_stopAccepting.mp hmem
      · obtain ⟨-, -, hnone⟩ | ⟨hstate, -, -, hsame⟩ := hhandle
        · rw [hnone] at hstop
          cases hstop
        · rw [hsame] at hstop
          obtain hready | hdraining := hinv.handle_scheduler hslot hstop
          · rw [hserves, ModelSlot.serves_of_state hstate] at hready
            cases hready
          · exact hstopped _ hdraining
      · exact hstopped _ hmem
  | built call prebuilt backend workers =>
    have hmodels : ({ s.registry_ with next_scheduler := s.registry_.next_scheduler + 1 } :
        ModelRegistry).models_ = s.registry_.models_ := rfl
    obtain hserves | hserves := call.built_scheduler prebuilt backend workers s.registry_.next_scheduler
    · refine (State.custody_same_models hcustody hmodels hserves rfl hretired ?_).mono (Nat.le_succ _)
      intro snapshot hsnapshot
      cases hsnapshot
    · refine (hcustody.create (.thread thread)).shrink ?_ ?_
      · intro place scheduler hplace
        rw [State.move_serves_same hmodels, hserves] at hplace
        exact hplace
      · intro scheduler hdisplaced
        have hdisplaced' : s.Displaced scheduler ∨ False := by
          refine State.displaced_move ?_ ?_ ?_ hdisplaced
          · exact fun hmem => .inl (hstopped _ hmem)
          · exact fun hmem => .inl (hretired _ hmem)
          · intro snapshot held hsnapshot
            cases hsnapshot
        exact .inl (hdisplaced'.resolve_right id)
  | loaded config next slot hslot hstate hpending =>
    have hnone : s.serves (.slot config.model_name) = none := by
      simp [State.serves, hslot, ModelSlot.serves, hstate]
    have hthread : (s.threads thread).serves = next.scheduler.map (·.id) := by
      rw [hpc, BuiltHandle.serves]
    have hslot' : ({ slot with config, handle := next.toModelHandle : ModelSlot }.publishSnapshot).serves =
        next.scheduler.map (·.id) := ModelSlot.serves_of_built rfl
    cases hscheduler : next.scheduler with
    | none =>
      refine State.custody_slot hcustody rfl ?_ rfl rfl (fun id hmem => .inl (hstopped id hmem)) hretired
      intro scheduler hserves
      rw [Option.bind_some, hslot', hscheduler] at hserves
      cases hserves
    | some scheduler =>
      rw [hscheduler] at hthread hslot'
      refine State.custody_publish hcustody rfl hthread hslot' rfl rfl rfl ?_
      intro snapshot held hsnapshot
      cases hsnapshot
  | replaced call next slot hkind hslot hpending hnext =>
    obtain ⟨scheduler, hscheduler⟩ : ∃ scheduler, next.scheduler = some scheduler := by
      cases next.settled with
      | ready scheduler _ hscheduler => exact ⟨scheduler, hscheduler⟩
      | failed _ hstate => simp [hnext] at hstate
    have hthread : (s.threads thread).serves = some scheduler.id := by
      rw [hpc, BuiltHandle.serves, hscheduler, Option.map_some]
    have hslot' : (slot.replaced call next.toModelHandle).serves = some scheduler.id := by
      rw [ModelSlot.serves_of_built rfl, hscheduler, Option.map_some]
    refine State.custody_publish hcustody rfl hthread hslot' rfl rfl rfl ?_
    intro snapshot held hsnapshot hheld
    obtain hserves | hdraining := hinv.snapshot_scheduler hslot hsnapshot hheld
    · exact .inr hserves
    · exact .inl (hstopped _ hdraining)
  | rejected call next slot hkind hslot hpending hnext =>
    refine State.custody_slot hcustody rfl ?_ rfl rfl (fun id hmem => .inl (hstopped id hmem)) hretired
    intro scheduler hserves
    rw [State.serves, hslot, Option.bind_some]
    obtain hstate | hstate := (hinv.phased _ slot hslot).pending_state hpending
    · simpa [ModelSlot.serves, ModelSlot.kept, ModelSlot.publishSnapshot, ModelHandle.rejected, hstate]
        using hserves
    · simp [ModelSlot.serves, ModelSlot.kept, ModelSlot.publishSnapshot, ModelHandle.rejected, hstate]
        at hserves
  | resolved call slot hslot hflight =>
    refine State.custody_slot hcustody rfl ?_ rfl rfl (fun id hmem => .inl (hstopped id hmem)) hretired
    intro scheduler hserves
    rw [State.serves, hslot, Option.bind_some]
    by_cases hstate : slot.handle.state = .loading
    · simp [ModelSlot.serves, ModelSlot.resolved, ModelSlot.publishSnapshot, hstate] at hserves
    · simpa [ModelSlot.serves, ModelSlot.resolved, ModelSlot.publishSnapshot, hstate] using hserves
  | retired call answer old_snapshot =>
    refine State.custody_same_models hcustody rfl rfl rfl ?_ (fun snapshot hsnapshot => by cases hsnapshot)
    intro scheduler hmem
    obtain ⟨retired, hretire, rfl⟩ | hmem := ModelRegistry.mem_retire.mp hmem
    · obtain ⟨snapshot, hsnapshot, hheld⟩ := Option.bind_eq_some_iff.mp hretire
      exact .retiring thread snapshot retired (by rw [hpc, Pc.retires, hsnapshot]) hheld rfl
    · exact hretired _ hmem
  | erased model_name slot hslot hstate hpending =>
    refine State.custody_slot hcustody rfl ?_ rfl rfl (fun id hmem => .inl (hstopped id hmem)) hretired
    intro scheduler hserves
    cases hserves
  | drained model_name whole slot scheduler hslot hpending hstate hscheduler hpc' =>
    have hnone : slot.drained.serves = none :=
      ModelSlot.serves_of_state (by simp [ModelSlot.drained, ModelSlot.publishSnapshot])
    refine State.custody_slot hcustody rfl ?_ ?_ hpc'.2.2 ?_ hretired
    · intro scheduler' hserves
      rw [Option.bind_some, hnone] at hserves
      cases hserves
    · simp [Pc.serves, hpc'.2.1]
    · intro id hmem
      obtain ⟨stopped, hstop, rfl⟩ | hmem := ModelRegistry.mem_stopAccepting.mp hmem
      · cases hstop
        obtain hserves | hdraining := hinv.handle_scheduler hslot hscheduler
        · exact .inr ⟨hserves, hnone⟩
        · exact .inl (hstopped _ hdraining)
      · exact .inl (hstopped _ hmem)
  | completed model_name whole slot scheduler hslot hpending hstate hscheduler =>
    have hdraining : scheduler.id ∈ s.registry_.draining := by
      obtain hserves | hdraining := hinv.handle_scheduler hslot hscheduler
      · rw [State.serves, hslot, Option.bind_some, ModelSlot.serves_of_state (by simp [hstate])] at hserves
        cases hserves
      · exact hdraining
    refine State.custody_slot hcustody rfl ?_ rfl rfl ?_ ?_
    · intro scheduler' hserves
      cases hserves
    · intro id hmem
      obtain ⟨stopped, hstop, rfl⟩ | hmem := ModelRegistry.mem_stopAccepting.mp hmem
      · cases hstop
        exact .inl (hstopped _ hdraining)
      · exact .inl (hstopped _ hmem)
    · intro id hmem
      obtain ⟨retired, hretire, rfl⟩ | hmem := ModelRegistry.mem_retire.mp hmem
      · cases hretire
        exact hstopped _ hdraining
      · exact hretired _ hmem

/-- A flag once up stays up. -/
theorem Effect.draining {registry : ModelRegistry} {pc : Pc} (heffect : Effect registry pc registry' pc')
    {scheduler : Nat} (hmem : scheduler ∈ registry.draining) : scheduler ∈ registry'.draining := by
  cases heffect with
  | begun => exact ModelRegistry.mem_stopAccepting.mpr (.inr hmem)
  | drained => exact ModelRegistry.mem_stopAccepting.mpr (.inr hmem)
  | completed => exact ModelRegistry.mem_stopAccepting.mpr (.inr hmem)
  | _ => exact hmem

/-- The published scheduler of a slot that no longer serves was told to stop. -/
theorem Effect.stopped (hinv : s.Inv) (heffect : Effect s.registry_ (s.threads thread) registry' pc') :
    ∀ model_name slot snapshot scheduler, registry'.models_ model_name = some slot →
      slot.handle.state ≠ .ready → slot.active_snapshot = some snapshot →
      snapshot.scheduler = some scheduler → scheduler.id ∈ registry'.draining := by
  intro model_name slot snapshot scheduler hslot hstate hsnapshot hscheduler
  have hold (hsame : s.registry_.models_ model_name = some slot) : scheduler.id ∈ registry'.draining :=
    heffect.draining (hinv.stopped _ slot snapshot scheduler hsame hstate hsnapshot hscheduler)
  -- only a published slot that is being unloaded still names a scheduler
  have hpublished (hphase : slot.Phase) (hpublished : slot.Published)
      (hunloading : slot.handle.state ≠ .unloading) : False := by
    rw [hpublished, Option.some.injEq] at hsnapshot
    subst hsnapshot
    have hheld : slot.handle.scheduler = some scheduler := hscheduler
    cases hphase <;> simp_all
  have hphase : slot.Phase := heffect.phased hinv.phased model_name slot hslot
  generalize hpc : s.threads thread = pc at heffect
  cases heffect with
  | stay => exact hold hslot
  | built => exact hold hslot
  | retired => exact hold hslot
  | reserved config =>
    obtain ⟨rfl, rfl⟩ | ⟨-, hslot⟩ := ModelRegistry.setSlot_eq_some.mp hslot
    · cases hsnapshot
      cases hscheduler
    · exact hold hslot
  | begun call prebuilt slot₀ hkind hslot₀ hidle =>
    obtain ⟨rfl, rfl⟩ | ⟨-, hslot⟩ := ModelRegistry.setSlot_eq_some.mp hslot
    · obtain ⟨-, -, hhandle⟩ := ModelSlot.beginReload_spec (hinv.phased _ slot₀ hslot₀) hidle
      have hstate₀ : slot₀.handle.state ≠ .ready := by
        obtain ⟨hready, hsame, -⟩ | ⟨hstate₀, -⟩ := hhandle
        · simp [ModelSlot.begun, hsame, hready] at hstate
        · exact hstate₀
      exact ModelRegistry.mem_stopAccepting.mpr
        (.inr (hinv.stopped _ slot₀ snapshot scheduler hslot₀ hstate₀ hsnapshot hscheduler))
    · exact hold hslot
  | loaded config next slot₀ hslot₀ hstate₀ hpending =>
    obtain ⟨rfl, rfl⟩ | ⟨-, hslot⟩ := ModelRegistry.setSlot_eq_some.mp hslot
    · refine absurd ?_ (hpublished hphase rfl)
      cases next.settled with
      | ready _ hready => simp [ModelSlot.publishSnapshot, hready]
      | failed _ hfailed => simp [ModelSlot.publishSnapshot, hfailed]
    · exact hold hslot
  | replaced call next slot₀ hkind hslot₀ hpending hnext =>
    obtain ⟨rfl, rfl⟩ | ⟨-, hslot⟩ := ModelRegistry.setSlot_eq_some.mp hslot
    · exact absurd hnext hstate
    · exact hold hslot
  | rejected call next slot₀ hkind hslot₀ hpending hnext =>
    obtain ⟨rfl, rfl⟩ | ⟨-, hslot⟩ := ModelRegistry.setSlot_eq_some.mp hslot
    · refine absurd ?_ (hpublished hphase rfl)
      rcases (hinv.phased _ slot₀ hslot₀).pending_state hpending with hstate₀ | hstate₀ <;>
        simp [ModelSlot.kept, ModelSlot.publishSnapshot, ModelHandle.rejected, hstate₀]
    · exact hold hslot
  | resolved call slot₀ hslot₀ hflight =>
    obtain ⟨rfl, rfl⟩ | ⟨-, hslot⟩ := ModelRegistry.setSlot_eq_some.mp hslot
    · refine absurd ?_ (hpublished hphase rfl)
      have hstate₀ : slot₀.handle.state ≠ .unloading := by
        rcases (hinv.phased _ slot₀ hslot₀).inFlight_state hflight with hstate₀ | hstate₀ | hstate₀ <;>
          simp [hstate₀]
      simp only [ModelSlot.resolved, ModelSlot.publishSnapshot]
      split <;> simp [hstate₀]
    · exact hold hslot
  | erased name =>
    exact hold (ModelRegistry.eraseSlot_eq_some.mp hslot).2
  | drained name whole slot₀ scheduler₀ hslot₀ hpending hstate₀ hscheduler₀ =>
    obtain ⟨rfl, rfl⟩ | ⟨-, hslot⟩ := ModelRegistry.setSlot_eq_some.mp hslot
    · cases hsnapshot
      have hheld : slot₀.handle.scheduler = some scheduler := hscheduler
      rw [hscheduler₀] at hheld
      exact ModelRegistry.mem_stopAccepting.mpr (.inl ⟨scheduler₀, rfl, by cases hheld; rfl⟩)
    · exact hold hslot
  | completed name =>
    exact hold (ModelRegistry.eraseSlot_eq_some.mp hslot).2

end neuriplo.registry
