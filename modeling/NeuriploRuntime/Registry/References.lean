import NeuriploRuntime.Registry.Provenance
import NeuriploRuntime.Transition.Acyclic

open neuriplo.config neuriplo.model neuriplo.model.ModelLifecycle neuriplo.pipeline neuriplo.tensor transition

namespace neuriplo.registry

/-- What a resolver finds in a slot for a version; the empty one asks for the
active snapshot. -/
def ModelSlot.resolve (slot : ModelSlot) (version : String) : Option InferSnapshot :=
  if version.isEmpty then slot.active_snapshot
  else match slot.version_snapshots version with
    | some snapshot => some snapshot
    | none => slot.active_snapshot.bind fun snapshot =>
      if version ∈ (if snapshot.metadata.versions.isEmpty then snapshot.versions else snapshot.metadata.versions)
      then some snapshot else none

namespace ModelRegistry

/-- A step's reference is resolved in the slot of the model that it names. -/
theorem resolve_eq (registry : ModelRegistry) (step : ModelStep) :
    registry.resolve step =
      (registry.models_ step.model_name).bind fun slot => slot.resolve step.model_version := by
  unfold resolve findHandle findHandleVersion ModelSlot.resolve
  cases registry.models_ step.model_name with
  | none => simp
  | some slot =>
    by_cases hversion : step.model_version.isEmpty = true
    · simp [hversion]
    · simp only [hversion, Bool.false_eq_true, ↓reduceIte, Option.bind_some]
      cases slot.version_snapshots step.model_version with
      | some snapshot => rfl
      | none => cases slot.active_snapshot <;> rfl

/-- One scheduler's executor has a model step that a request would now take to
another scheduler. -/
def Leads (registry : ModelRegistry) (a b : Scheduler) : Prop :=
  ∃ executor ∈ a.executors, ∃ step ∈ executor.model_steps, ∃ snapshot,
    registry.resolve step = some snapshot ∧ registry.snapshotReady snapshot = true ∧
      snapshot.scheduler = some b

end ModelRegistry

/-- Only a snapshot of an ensemble has model steps behind it. -/
def InferSnapshot.Declared (snapshot : InferSnapshot) : Prop :=
  ∀ scheduler, snapshot.scheduler = some scheduler → ∀ executor ∈ scheduler.executors,
    executor.model_steps ≠ [] → snapshot.metadata.platform = "ensemble"

def ModelSlot.Declared (slot : ModelSlot) : Prop :=
  (∀ snapshot, slot.active_snapshot = some snapshot → snapshot.Declared) ∧
    ∀ version snapshot, slot.version_snapshots version = some snapshot → snapshot.Declared

/-- A snapshot without a scheduler has nothing to declare. -/
theorem InferSnapshot.declared_of_scheduler {snapshot : InferSnapshot} (hscheduler : snapshot.scheduler = none) :
    snapshot.Declared := by
  intro scheduler hheld
  rw [hscheduler] at hheld
  cases hheld

/-- A replacement built from a pipeline's executors is declared an ensemble, and
one built by a backend has no model steps. -/
theorem Call.built_declared (call : Call) (prebuilt : Option Prebuilt) (backend : BackendFactory)
    (workers : Option (Option String)) (id : Nat) :
    (InferSnapshot.fromHandle (call.built prebuilt backend workers id).toModelHandle).Declared := by
  intro scheduler hscheduler executor hmem hsteps
  have hheld : (call.built prebuilt backend workers id).scheduler = some scheduler := hscheduler
  obtain ⟨front, hfront, hplatform⟩ := ModelLifecycle.build_platform hheld
  obtain ⟨-, hexecutors⟩ := ModelLifecycle.build_scheduler hheld
  have hfactory (other : Executor) (hother : other ∈ scheduler.executors) :
      ∃ call error error', (prebuilt.map (·.factory)).getD backend.factory call error = .executor other error' := by
    obtain hnone | hfactory := mem_buildExecutors hexecutors hother
    · cases hnone
    · exact hfactory
  cases prebuilt with
  | none =>
    obtain ⟨call', error, error', hcall⟩ := hfactory executor hmem
    exact absurd (backend.backend call' error executor error' hcall) hsteps
  | some prebuilt =>
    obtain ⟨call', error, error', hcall⟩ := hfactory front hfront
    change _ = _ at hplatform
    simp only [Option.map_some, Option.getD_some, Prebuilt.factory] at hcall
    cases hpipeline : prebuilt.executors[call']? with
    | none => simp [hpipeline] at hcall
    | some pipeline =>
      simp only [hpipeline, FactoryResult.executor.injEq] at hcall
      obtain ⟨rfl, -⟩ := hcall
      exact hplatform

/-- What is found under a version was published under it, or is the active
snapshot. -/
theorem indexSnapshot_some {version_snapshots : String → Option InferSnapshot}
    {snapshot : Option InferSnapshot} {version : String} {found : InferSnapshot}
    (hfound : indexSnapshot version_snapshots snapshot version = some found) :
    snapshot = some found ∧ version = versionFromSnapshot snapshot ∨ version_snapshots version = some found := by
  unfold indexSnapshot at hfound
  split at hfound
  · by_cases hversion : version = versionFromSnapshot snapshot
    · subst hversion
      rw [Function.update_self] at hfound
      exact .inl ⟨hfound, rfl⟩
    · rw [Function.update_of_ne hversion] at hfound
      exact .inr hfound
  · exact .inr hfound

/-- What is published again with another error or state declares what it
declared: its scheduler and metadata are the ones published before. -/
theorem ModelSlot.Phase.fromHandle_declared {slot : ModelSlot} (hphase : slot.Phase)
    (hdeclared : slot.Declared) : (InferSnapshot.fromHandle slot.handle).Declared := by
  cases hphase with
  | ready _ _ _ hpublished => exact hdeclared.1 _ hpublished
  | unloading _ _ _ _ hpublished => exact hdeclared.1 _ hpublished
  | loading _ _ hscheduler => exact InferSnapshot.declared_of_scheduler hscheduler
  | failed _ _ _ hscheduler => exact InferSnapshot.declared_of_scheduler hscheduler
  | unloaded _ _ hscheduler => exact InferSnapshot.declared_of_scheduler hscheduler
  | rebuilding _ _ _ hscheduler => exact InferSnapshot.declared_of_scheduler hscheduler

/-- To publish what is declared declares no more. -/
theorem ModelSlot.Declared.republish {slot slot' : ModelSlot} (hdeclared : slot.Declared) (hphase : slot.Phase)
    (hscheduler : slot'.handle.scheduler = slot.handle.scheduler)
    (hmetadata : slot'.handle.metadata = slot.handle.metadata)
    (hversions : slot'.version_snapshots = slot.version_snapshots) : slot'.publishSnapshot.Declared := by
  refine ⟨?_, ?_⟩
  · intro snapshot hsnapshot scheduler hheld executor hmem hsteps
    cases hsnapshot
    have hfrom := hphase.fromHandle_declared hdeclared
    have hheld' : slot'.handle.scheduler = some scheduler := hheld
    have hplatform := hfrom scheduler (by rw [← hheld', hscheduler]; rfl) executor hmem hsteps
    rw [← hplatform]
    exact congrArg ModelMetadata.platform hmetadata
  · intro version snapshot hsnapshot
    exact hdeclared.2 version snapshot (by rw [← hsnapshot]; exact (congrFun hversions version).symm)

def State.Declared (s : State) : Prop :=
  ∀ model_name slot, s.registry_.models_ model_name = some slot → slot.Declared

theorem Effect.declared {s : State} {thread : Nat} {registry' : ModelRegistry} {pc' : Pc} (hinv : s.Inv)
    (hprovenance : s.Provenance) (hdeclared : s.Declared)
    (heffect : Effect s.registry_ (s.threads thread) registry' pc') :
    ∀ model_name slot, registry'.models_ model_name = some slot → slot.Declared := by
  intro model_name slot hslot
  have hold := hdeclared model_name slot
  have hbuilt (call : Call) (next : BuiltHandle) (hpc : s.threads thread = .finishing call next) :
      (InferSnapshot.fromHandle next.toModelHandle).Declared := by
    obtain ⟨prebuilt, backend, workers, id, rfl⟩ := hprovenance thread call next hpc
    exact call.built_declared prebuilt backend workers id
  generalize hpc : s.threads thread = pc at heffect
  cases heffect with
  | stay => exact hold hslot
  | built => exact hold hslot
  | retired => exact hold hslot
  | reserved config =>
    obtain ⟨-, rfl⟩ | ⟨-, hslot⟩ := ModelRegistry.setSlot_eq_some.mp hslot
    · refine ⟨?_, nofun⟩
      intro snapshot hsnapshot
      cases hsnapshot
      exact InferSnapshot.declared_of_scheduler rfl
    · exact hold hslot
  | begun call prebuilt slot₀ hkind hslot₀ hidle =>
    obtain ⟨-, rfl⟩ | ⟨-, hslot⟩ := ModelRegistry.setSlot_eq_some.mp hslot
    · exact hdeclared _ slot₀ hslot₀
    · exact hold hslot
  | loaded config next slot₀ hslot₀ =>
    obtain ⟨-, rfl⟩ | ⟨-, hslot⟩ := ModelRegistry.setSlot_eq_some.mp hslot
    · refine ⟨?_, (hdeclared _ slot₀ hslot₀).2⟩
      intro snapshot hsnapshot
      cases hsnapshot
      exact hbuilt _ next hpc
    · exact hold hslot
  | replaced call next slot₀ hkind hslot₀ hpending hnext =>
    obtain ⟨-, rfl⟩ | ⟨-, hslot⟩ := ModelRegistry.setSlot_eq_some.mp hslot
    · obtain ⟨hactive, hindexed⟩ := hdeclared _ slot₀ hslot₀
      refine ⟨?_, ?_⟩
      · intro snapshot hsnapshot
        cases hsnapshot
        exact hbuilt _ next hpc
      · intro version snapshot hsnapshot
        cases call with
        | loadModel => exact hindexed version snapshot hsnapshot
        | reload => exact hindexed version snapshot hsnapshot
        | switchVersion =>
          obtain ⟨hnew, -⟩ | hsnapshot := indexSnapshot_some hsnapshot
          · cases hnew
            exact hbuilt _ next hpc
          · obtain ⟨hsame, -⟩ | hsnapshot := indexSnapshot_some hsnapshot
            · exact hactive snapshot hsame
            · exact hindexed version snapshot hsnapshot
    · exact hold hslot
  | rejected call next slot₀ hkind hslot₀ =>
    obtain ⟨-, rfl⟩ | ⟨-, hslot⟩ := ModelRegistry.setSlot_eq_some.mp hslot
    · exact (hdeclared _ slot₀ hslot₀).republish (hinv.phased _ slot₀ hslot₀) rfl rfl rfl
    · exact hold hslot
  | resolved call slot₀ hslot₀ =>
    obtain ⟨-, rfl⟩ | ⟨-, hslot⟩ := ModelRegistry.setSlot_eq_some.mp hslot
    · exact (hdeclared _ slot₀ hslot₀).republish (hinv.phased _ slot₀ hslot₀) rfl rfl rfl
    · exact hold hslot
  | erased => exact hold (ModelRegistry.eraseSlot_eq_some.mp hslot).2
  | drained name whole slot₀ scheduler hslot₀ =>
    obtain ⟨-, rfl⟩ | ⟨-, hslot⟩ := ModelRegistry.setSlot_eq_some.mp hslot
    · exact (hdeclared _ slot₀ hslot₀).republish (hinv.phased _ slot₀ hslot₀) rfl rfl rfl
    · exact hold hslot
  | completed => exact hold (ModelRegistry.eraseSlot_eq_some.mp hslot).2

/-- In every run what is published is declared. -/
theorem declared_reachable {s : State} (hreach : system.Reachable s) : s.Declared := by
  refine hreach.invariant ?_ ?_
  · rintro s rfl model_name slot hslot
    cases hslot
  · intro s event s' hreach hdeclared hstep
    cases event with
    | thread thread action =>
      obtain ⟨registry', pc', heffect, -, rfl⟩ := (inv_reachable hreach).effect hstep
      exact heffect.declared (inv_reachable hreach) (provenance_reachable hreach) hdeclared
    | drainTask scheduler =>
      obtain ⟨-, rfl⟩ := State.step_drainTask hstep
      exact hdeclared
    | setRepositoryCatalog configs =>
      cases hstep
      exact hdeclared

end neuriplo.registry
