import NeuriploRuntime.Registry.Reachable

open neuriplo.config neuriplo.model neuriplo.model.ModelLifecycle neuriplo.pipeline neuriplo.tensor transition

namespace neuriplo.registry

/-- The per-version index agrees with the active snapshot where both speak of
the active version, and indexes nothing under the empty label. -/
structure ModelSlot.Indexed (slot : ModelSlot) : Prop where
  unlabelled : slot.version_snapshots "" = none
  active : slot.handle.state = .ready → ∀ snapshot,
    slot.version_snapshots (versionFromSnapshot slot.active_snapshot) = some snapshot →
    snapshot.state = .ready ∧ snapshot.scheduler = slot.handle.scheduler

/-- The condition on a step: a reload does not publish a version that the slot
already has in its per-version index. -/
def publishesNewVersion (s : State) : Event → Bool
  | .thread thread _ =>
    match s.threads thread with
    | .finishing (.reload model_name _) next =>
      next.state ≠ .ready || (s.registry_.models_ model_name).all fun slot =>
        (slot.version_snapshots (versionFromSnapshot (some (.fromHandle next.toModelHandle)))).isNone
    | _ => true
  | _ => true

/-- Nothing is published under the empty version. -/
theorem indexSnapshot_unlabelled {version_snapshots : String → Option InferSnapshot}
    {snapshot : Option InferSnapshot} (hunlabelled : version_snapshots "" = none) :
    indexSnapshot version_snapshots snapshot "" = none := by
  unfold indexSnapshot
  split
  · rename_i hindexed
    have hne : "" ≠ versionFromSnapshot snapshot := by
      intro hversion
      simp [← hversion] at hindexed
    rw [Function.update_of_ne hne, hunlabelled]
  · exact hunlabelled

/-- A snapshot is found under its own version once it is indexed. -/
theorem indexSnapshot_self {version_snapshots : String → Option InferSnapshot} {snapshot found : InferSnapshot}
    (hunlabelled : version_snapshots "" = none)
    (hfound : indexSnapshot version_snapshots (some snapshot) (versionFromSnapshot (some snapshot)) = some found) :
    found = snapshot := by
  unfold indexSnapshot at hfound
  by_cases hversion : versionFromSnapshot (some snapshot) = ""
  · simp [hversion, hunlabelled] at hfound
  · have hlabelled : (versionFromSnapshot (some snapshot)).isEmpty = false := by
      simpa using hversion
    simp only [Option.isSome_some, hlabelled, Bool.not_false, Bool.and_self, ↓reduceIte,
      Function.update_self, Option.some.injEq] at hfound
    exact hfound.symm

/-- A slot that is not ready has nothing to index. -/
theorem ModelSlot.Indexed.of_state {slot : ModelSlot} (hunlabelled : slot.version_snapshots "" = none)
    (hstate : slot.handle.state ≠ .ready) : slot.Indexed where
  unlabelled := hunlabelled
  active hready := absurd hready hstate

/-- What only changes the error of a published slot keeps the index right. -/
theorem ModelSlot.Indexed.withError {slot slot' : ModelSlot} (hindexed : slot.Indexed) (hphase : slot.Phase)
    (hversions : slot'.version_snapshots = slot.version_snapshots)
    (hactive : slot'.active_snapshot = some (.fromHandle slot'.handle))
    (hhandle : slot'.handle.state = .ready → slot.handle.state = .ready ∧
      slot'.handle.metadata = slot.handle.metadata ∧ slot'.handle.versions = slot.handle.versions ∧
      slot'.handle.scheduler = slot.handle.scheduler) : slot'.Indexed where
  unlabelled := by rw [hversions, hindexed.unlabelled]
  active hready snapshot hsnapshot := by
    obtain ⟨hstate, hmetadata, hlabels, hscheduler⟩ := hhandle hready
    obtain ⟨-, -, hpublished⟩ := hphase.of_ready hstate
    rw [ModelSlot.Published] at hpublished
    have hversion : versionFromSnapshot slot'.active_snapshot = versionFromSnapshot slot.active_snapshot := by
      simp [hactive, hpublished, versionFromSnapshot, InferSnapshot.fromHandle, hmetadata, hlabels]
    rw [hscheduler]
    exact hindexed.active hstate snapshot (by rw [← hsnapshot, hversion, hversions])

/-- The invariant of the per-version index. -/
def State.Indexed (s : State) : Prop :=
  ∀ model_name slot, s.registry_.models_ model_name = some slot → slot.Indexed

/-- The slots stay indexed over what a thread does, when it publishes a new
version only. -/
theorem Effect.indexed {s : State} {thread : Nat} {action : Action} {registry' : ModelRegistry} {pc' : Pc}
    (hinv : s.Inv) (hindexed : s.Indexed)
    (hcondition : publishesNewVersion s (.thread thread action) = true)
    (heffect : Effect s.registry_ (s.threads thread) registry' pc') :
    ∀ model_name slot, registry'.models_ model_name = some slot → slot.Indexed := by
  intro model_name slot hslot
  have hold := hindexed model_name slot
  generalize hpc : s.threads thread = pc at heffect
  cases heffect with
  | stay => exact hold hslot
  | built => exact hold hslot
  | retired => exact hold hslot
  | reserved config =>
    obtain ⟨-, rfl⟩ | ⟨-, hslot⟩ := ModelRegistry.setSlot_eq_some.mp hslot
    · exact .of_state rfl (by simp [ModelSlot.placeholder, ModelSlot.publishSnapshot, ModelState.startLoad,
        ModelState.transitionTo, isValidTransition])
    · exact hold hslot
  | begun call prebuilt slot₀ hkind hslot₀ hidle =>
    obtain ⟨-, rfl⟩ | ⟨-, hslot⟩ := ModelRegistry.setSlot_eq_some.mp hslot
    · have hindexed₀ := hindexed _ slot₀ hslot₀
      obtain ⟨-, -, ⟨-, hsame, -⟩ | ⟨-, hunloaded, -⟩⟩ :=
        ModelSlot.beginReload_spec (hinv.phased _ slot₀ hslot₀) hidle
      · refine ⟨hindexed₀.unlabelled, ?_⟩
        intro hready snapshot hsnapshot
        simp only [ModelSlot.begun, hsame] at hready ⊢
        exact hindexed₀.active hready snapshot hsnapshot
      · exact .of_state hindexed₀.unlabelled (by simp [ModelSlot.begun, hunloaded])
    · exact hold hslot
  | loaded config next slot₀ hslot₀ hstate =>
    obtain ⟨-, rfl⟩ | ⟨-, hslot⟩ := ModelRegistry.setSlot_eq_some.mp hslot
    · obtain ⟨-, -, hversions, -⟩ := (hinv.phased _ slot₀ hslot₀).of_loading hstate
      refine ⟨congrFun hversions "", ?_⟩
      intro _ snapshot hsnapshot
      simp only [ModelSlot.publishSnapshot, hversions] at hsnapshot
      cases hsnapshot
    · exact hold hslot
  | replaced call next slot₀ hkind hslot₀ hpending hnext =>
    obtain ⟨-, rfl⟩ | ⟨-, hslot⟩ := ModelRegistry.setSlot_eq_some.mp hslot
    · have hunlabelled := (hindexed _ slot₀ hslot₀).unlabelled
      cases call with
      | loadModel => cases hkind
      | reload name config =>
        refine ⟨hunlabelled, ?_⟩
        intro _ snapshot hsnapshot
        simp only [Call.model_name] at hslot₀
        have hnew : slot₀.version_snapshots
            (versionFromSnapshot (some (.fromHandle next.toModelHandle))) = none := by
          simpa [publishesNewVersion, hpc, hnext, hslot₀] using hcondition
        have hfound : slot₀.version_snapshots
            (versionFromSnapshot (some (.fromHandle next.toModelHandle))) = some snapshot := hsnapshot
        rw [hnew] at hfound
        cases hfound
      | switchVersion name version config =>
        have hold_unlabelled := @indexSnapshot_unlabelled _ slot₀.active_snapshot hunlabelled
        refine ⟨indexSnapshot_unlabelled hold_unlabelled, ?_⟩
        intro _ snapshot hsnapshot
        rw [indexSnapshot_self hold_unlabelled hsnapshot]
        exact ⟨hnext, rfl⟩
    · exact hold hslot
  | rejected call next slot₀ hkind hslot₀ hpending hnext =>
    obtain ⟨-, rfl⟩ | ⟨-, hslot⟩ := ModelRegistry.setSlot_eq_some.mp hslot
    · refine (hindexed _ slot₀ hslot₀).withError (hinv.phased _ slot₀ hslot₀) rfl rfl ?_
      intro hready
      have hstate : slot₀.handle.state = .ready := by
        obtain hstate | hstate := (hinv.phased _ slot₀ hslot₀).pending_state hpending
        · exact hstate
        · simp [ModelSlot.kept, ModelSlot.publishSnapshot, ModelHandle.rejected, hstate] at hready
      exact ⟨hstate, rfl, rfl, rfl⟩
    · exact hold hslot
  | resolved call slot₀ hslot₀ hflight =>
    obtain ⟨-, rfl⟩ | ⟨-, hslot⟩ := ModelRegistry.setSlot_eq_some.mp hslot
    · refine (hindexed _ slot₀ hslot₀).withError (hinv.phased _ slot₀ hslot₀) rfl rfl ?_
      intro hready
      have hstate : slot₀.handle.state = .ready := by
        by_cases hloading : slot₀.handle.state = .loading
        · simp [ModelSlot.resolved, ModelSlot.publishSnapshot, hloading] at hready
        · simpa [ModelSlot.resolved, ModelSlot.publishSnapshot, hloading] using hready
      exact ⟨hstate, rfl, rfl, rfl⟩
    · exact hold hslot
  | erased => exact hold (ModelRegistry.eraseSlot_eq_some.mp hslot).2
  | drained name whole slot₀ scheduler hslot₀ =>
    obtain ⟨-, rfl⟩ | ⟨-, hslot⟩ := ModelRegistry.setSlot_eq_some.mp hslot
    · exact .of_state (hindexed _ slot₀ hslot₀).unlabelled
        (by simp [ModelSlot.drained, ModelSlot.publishSnapshot])
    · exact hold hslot
  | completed => exact hold (ModelRegistry.eraseSlot_eq_some.mp hslot).2

/-- In every run whose steps meet the condition the slots are indexed. -/
theorem indexed_reachable {s : State}
    (hreach : (system.restrict fun s event => publishesNewVersion s event = true).Reachable s) :
    s.Indexed := by
  refine hreach.invariant_of_restrict ?_ ?_
  · rintro s rfl model_name slot hslot
    cases hslot
  · intro s event s' hreach hcondition hindexed hstep
    cases event with
    | thread thread action =>
      obtain ⟨registry', pc', heffect, -, rfl⟩ := (inv_reachable hreach).effect hstep
      exact heffect.indexed (inv_reachable hreach) hindexed hcondition
    | drainTask scheduler =>
      obtain ⟨-, rfl⟩ := State.step_drainTask hstep
      exact hindexed
    | setRepositoryCatalog configs =>
      cases hstep
      exact hindexed

/-- The default version is that of the active snapshot, and one that it
declares. -/
theorem versionFromSnapshot_of_default {registry : ModelRegistry} {model_name version : String}
    (hversion : registry.defaultVersion model_name = some version) :
    ∃ snapshot, registry.findHandle model_name = some snapshot ∧
      versionFromSnapshot (some snapshot) = version ∧
      version ∈ (if snapshot.metadata.versions.isEmpty then snapshot.versions else snapshot.metadata.versions) := by
  unfold ModelRegistry.defaultVersion at hversion
  cases hsnapshot : registry.findHandle model_name with
  | none => simp [hsnapshot] at hversion
  | some snapshot =>
    refine ⟨snapshot, rfl, ?_⟩
    simp only [hsnapshot] at hversion
    unfold versionFromSnapshot
    split at hversion
    · rename_i hmetadata
      cases hversion
      simp [hmetadata]
    · rename_i hmetadata hversions
      cases hversion
      simp [hmetadata, hversions]
    · cases hversion

/-- In every state reached by runs in which no reload publishes a version that
its slot has already indexed, an unversioned request and a request for the
default version of a Ready model are served by one scheduler, which was neither
retired nor told to stop. -/
theorem default_version_agrees {s : State}
    (hreach : (system.restrict fun s event => publishesNewVersion s event = true).Reachable s)
    {model_name : String} {slot : ModelSlot} (hslot : s.registry_.models_ model_name = some slot)
    (hstate : slot.handle.state = .ready) {version : String}
    (hversion : s.registry_.defaultVersion model_name = some version) :
    ∃ active snapshot scheduler, s.registry_.findHandle model_name = some active ∧
      s.registry_.findHandleVersion model_name version = some snapshot ∧
      active.scheduler = some scheduler ∧ snapshot.scheduler = some scheduler ∧
      scheduler.id ∉ s.registry_.draining ∧ scheduler.id ∉ s.registry_.retire_queue_ ∧
      s.registry_.readyVersion model_name version = s.registry_.ready model_name := by
  have hinv := inv_reachable hreach.of_restrict
  have hindexed := indexed_reachable hreach model_name slot hslot
  obtain ⟨scheduler, hscheduler, hlive, hready, hpublished⟩ := hinv.ready_slot hslot hstate
  obtain ⟨active, hactive, hlabel, hknown⟩ := versionFromSnapshot_of_default hversion
  have hsnapshot : slot.active_snapshot = some active := by
    simpa [ModelRegistry.findHandle, hslot] using hactive
  have hfrom : active = .fromHandle slot.handle := by
    rw [hpublished, Option.some.injEq] at hsnapshot
    exact hsnapshot.symm
  have hserves : s.registry_.snapshotReady active = true := by
    rw [hfrom, ModelRegistry.snapshotReady_fromHandle, hready]
  have hheld : active.scheduler = some scheduler := by
    rw [hfrom]
    exact hscheduler
  cases hindex : slot.version_snapshots version with
  | none =>
    have hfind : s.registry_.findHandleVersion model_name version = some active := by
      simp only [ModelRegistry.findHandleVersion, hslot, hindex, hsnapshot]
      exact if_pos hknown
    refine ⟨active, active, scheduler, hactive, hfind, hheld, hheld, ?_, ?_, ?_⟩
    · exact fun hmem => hlive (.stopped hmem)
    · exact fun hmem => hlive (.retired hmem)
    · rw [ModelRegistry.readyVersion, ModelRegistry.ready, hfind, hactive]
  | some snapshot =>
    have hfind : s.registry_.findHandleVersion model_name version = some snapshot := by
      simp [ModelRegistry.findHandleVersion, hslot, hindex]
    obtain ⟨hsame, hshared⟩ := hindexed.active hstate snapshot (by rw [hsnapshot, hlabel, hindex])
    rw [hscheduler] at hshared
    refine ⟨active, snapshot, scheduler, hactive, hfind, hheld, hshared, ?_, ?_, ?_⟩
    · exact fun hmem => hlive (.stopped hmem)
    · exact fun hmem => hlive (.retired hmem)
    · have hstate' : active.state = .ready := by
        rw [hfrom]
        exact hstate
      simp [ModelRegistry.readyVersion, ModelRegistry.ready, hfind, hactive, ModelRegistry.snapshotReady,
        hsame, hshared, hstate', hheld]

/-- Version 2 is activated, and then the model is reloaded with it: the slot
still indexes the handle the reload replaced, whose task then drains it. -/
def reloadedVersion : List Event :=
  undisturbed 0 (.loadModel {}) (.serving { name := "demo", versions := ["1"] }) ++
    undisturbed 0 (.switchVersion "demo" "2" {}) (.serving { name := "demo", versions := ["1"] }) ++
    undisturbed 0 (.reload "demo" { model_version := "2", model_version_explicit := true })
      (.serving { name := "demo", versions := ["1"] }) ++
    [.drainTask 1]

/-- The model is Ready, but a request for its default version finds the
scheduler that was retired. -/
theorem reload_leaves_stale_version :
    ∃ s slot active snapshot, system.Reachable s ∧ s.registry_.models_ "demo" = some slot ∧
      slot.inFlight = none ∧ slot.handle.state = .ready ∧ s.registry_.defaultVersion "demo" = some "2" ∧
      s.registry_.findHandle "demo" = some active ∧ s.registry_.findHandleVersion "demo" "2" = some snapshot ∧
      snapshot.scheduler ≠ active.scheduler ∧ s.registry_.ready "demo" = true ∧
      s.registry_.readyVersion "demo" "2" = false ∧
      snapshot.scheduler.any (fun scheduler => s.registry_.retire_queue_.contains scheduler.id) = true :=
  ⟨_, _, _, _, @System.reachable_of_replay _ _ _ _ _ reloadedVersion rfl, rfl, rfl, rfl, rfl, rfl, rfl,
    by decide, rfl, rfl, rfl⟩

/-- A reload that publishes the backend's own version. -/
def reloadedOwnVersion : List Event :=
  undisturbed 0 (.loadModel {}) (.serving { name := "demo", versions := ["1"] }) ++
    undisturbed 0 (.switchVersion "demo" "2" {}) (.serving { name := "demo", versions := ["1"] }) ++
    (undisturbed 0 (.reload "demo" {}) (.serving { name := "demo", versions := ["3"] }))

theorem default_version_agrees_reloadedOwnVersion :
    ∃ s active snapshot scheduler,
      System.replay (System.guarded publishesNewVersion State.step) {} reloadedOwnVersion = some s ∧
      s.registry_.findHandle "demo" = some active ∧ s.registry_.findHandleVersion "demo" "3" = some snapshot ∧
      active.scheduler = some scheduler ∧ snapshot.scheduler = some scheduler ∧
      scheduler.id ∉ s.registry_.draining ∧ scheduler.id ∉ s.registry_.retire_queue_ ∧
      s.registry_.readyVersion "demo" "3" = s.registry_.ready "demo" := by
  obtain ⟨history, hrun⟩ :=
    @System.reachable_of_replay _ _ {} _ (System.guarded publishesNewVersion State.step) reloadedOwnVersion rfl
  obtain ⟨active, snapshot, scheduler, hagrees⟩ :=
    @default_version_agrees _ ⟨history, hrun.of_guarded⟩ "demo" _ rfl rfl "3" rfl
  exact ⟨_, active, snapshot, scheduler, rfl, hagrees⟩

end neuriplo.registry
