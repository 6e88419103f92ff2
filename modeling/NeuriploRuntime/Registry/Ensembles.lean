import NeuriploRuntime.Registry.References

open neuriplo.config neuriplo.model neuriplo.model.ModelLifecycle neuriplo.pipeline neuriplo.tensor transition

namespace neuriplo.registry

/-- The check `makePipelineExecutor` makes of each model step, made again when
the ensemble is published: no step names the published model, and none resolves
to a Ready ensemble. -/
def ModelRegistry.referencesChecked (registry : ModelRegistry) (model_name : String) (next : ModelHandle) : Bool :=
  next.scheduler.all fun scheduler => scheduler.executors.all fun executor =>
    executor.model_steps.all fun step => step.model_name ≠ model_name &&
      (registry.resolve step).all fun snapshot =>
        !registry.snapshotReady snapshot || snapshot.metadata.platform ≠ "ensemble"

/-- Indexing the active snapshot under its version changes nothing for those
who resolve that version. -/
def ModelRegistry.reindexes (registry : ModelRegistry) (model_name : String) : Bool :=
  (registry.models_ model_name).all fun slot => slot.active_snapshot.all fun active =>
    !registry.snapshotReady active ||
      (slot.version_snapshots (versionFromSnapshot slot.active_snapshot)).all fun indexed =>
        registry.snapshotReady indexed && indexed.scheduler = active.scheduler

/-- The condition on a step: a replacement that came up is published only while
the check of its references still holds, and a version switch does not put the
displaced version in place of another indexed under the same label. -/
def publishesChecked (s : State) : Event → Bool
  | .thread thread _ =>
    match s.threads thread with
    | .finishing call next => next.state ≠ .ready ||
      (s.registry_.referencesChecked call.model_name next.toModelHandle &&
        match call with
        | .switchVersion model_name _ _ => s.registry_.reindexes model_name
        | _ => true)
    | _ => true
  | _ => true

def InferSnapshot.known_versions (snapshot : InferSnapshot) : List String :=
  if snapshot.metadata.versions.isEmpty then snapshot.versions else snapshot.metadata.versions

/-- A reference goes to the version that is named, or to the active one. -/
theorem ModelSlot.resolve_iff {slot : ModelSlot} {version : String} {snapshot : InferSnapshot} :
    slot.resolve version = some snapshot ↔
      (version ≠ "" ∧ slot.version_snapshots version = some snapshot) ∨
        (slot.active_snapshot = some snapshot ∧
          (version = "" ∨ slot.version_snapshots version = none ∧ version ∈ snapshot.known_versions)) := by
  unfold resolve
  by_cases hversion : version = ""
  · simp [hversion]
  · simp only [String.isEmpty_iff, hversion, ↓reduceIte, ne_eq, not_false_eq_true, true_and, false_or]
    cases hindex : slot.version_snapshots version with
    | some indexed => simp
    | none =>
      simp only [reduceCtorEq, false_or, true_and]
      cases slot.active_snapshot with
      | none => simp
      | some active =>
        simp only [Option.bind_some, Option.ite_none_right_eq_some, Option.some.injEq]
        constructor
        · rintro ⟨hknown, rfl⟩
          exact ⟨rfl, hknown⟩
        · rintro ⟨rfl, hknown⟩
          exact ⟨hknown, rfl⟩

/-- A snapshot's own label is one of the versions it knows. -/
theorem InferSnapshot.label_known {snapshot : InferSnapshot} (hlabel : versionFromSnapshot (some snapshot) ≠ "") :
    versionFromSnapshot (some snapshot) ∈ snapshot.known_versions := by
  unfold versionFromSnapshot known_versions at *
  cases hmetadata : snapshot.metadata.versions with
  | cons version rest => simp [hmetadata]
  | nil =>
    cases hversions : snapshot.versions with
    | cons version rest => simp [hmetadata, hversions]
    | nil => simp [hmetadata, hversions] at hlabel

/-- Whatever Ready snapshot a resolver finds in a slot afterwards, it found one
with the same scheduler in the slot before, if there was one. -/
def ModelSlot.Narrows (registry registry' : ModelRegistry) (slot : Option ModelSlot) (slot' : ModelSlot) : Prop :=
  ∀ version snapshot', slot'.resolve version = some snapshot' → registry'.snapshotReady snapshot' = true →
    ∃ snapshot, slot.bind (·.resolve version) = some snapshot ∧ registry.snapshotReady snapshot = true ∧
      snapshot.scheduler = snapshot'.scheduler

/-- Flags that stay up make nothing Ready again. -/
theorem ModelRegistry.snapshotReady_of_draining {registry registry' : ModelRegistry}
    (hdraining : ∀ scheduler, scheduler ∈ registry.draining → scheduler ∈ registry'.draining)
    {snapshot : InferSnapshot} (hready : registry'.snapshotReady snapshot = true) :
    registry.snapshotReady snapshot = true := by
  unfold snapshotReady schedulerReady at *
  cases hscheduler : snapshot.scheduler with
  | none => simp [hscheduler] at hready
  | some scheduler =>
    simp only [hscheduler, Option.any_some, Bool.and_eq_true, decide_eq_true_eq, Bool.not_eq_eq_eq_not,
      Bool.not_true, List.contains_eq_mem, decide_eq_false_iff_not] at hready ⊢
    exact ⟨hready.1, fun hmem => hready.2 (hdraining _ hmem)⟩

/-- A slot whose snapshots stay is referred to as before. -/
theorem ModelSlot.Narrows.of_same {registry registry' : ModelRegistry} {slot slot' : ModelSlot}
    (hdraining : ∀ scheduler, scheduler ∈ registry.draining → scheduler ∈ registry'.draining)
    (hactive : slot'.active_snapshot = slot.active_snapshot)
    (hversions : slot'.version_snapshots = slot.version_snapshots) : Narrows registry registry' (some slot) slot' := by
  intro version snapshot hfound hready
  refine ⟨snapshot, ?_, ModelRegistry.snapshotReady_of_draining hdraining hready, rfl⟩
  rw [Option.bind_some]
  rw [ModelSlot.resolve_iff] at hfound ⊢
  rwa [hactive, hversions] at hfound

/-- A slot published again serves no more than it served. -/
theorem ModelSlot.Narrows.republish {registry registry' : ModelRegistry} {slot slot' : ModelSlot}
    (hphase : slot.Phase)
    (hdraining : ∀ scheduler, scheduler ∈ registry.draining → scheduler ∈ registry'.draining)
    (hactive : slot'.active_snapshot = some (.fromHandle slot'.handle))
    (hversions : slot'.version_snapshots = slot.version_snapshots)
    (hhandle : slot'.handle.state = .ready → slot.handle.state = .ready ∧
      slot'.handle.metadata = slot.handle.metadata ∧ slot'.handle.versions = slot.handle.versions ∧
      slot'.handle.scheduler = slot.handle.scheduler) : Narrows registry registry' (some slot) slot' := by
  intro version snapshot' hfound hready
  rw [ModelSlot.resolve_iff, hversions, hactive] at hfound
  have hbefore := ModelRegistry.snapshotReady_of_draining hdraining hready
  obtain ⟨hversion, hindexed⟩ | ⟨hsnapshot, hknown⟩ := hfound
  · exact ⟨snapshot', ModelSlot.resolve_iff.mpr (.inl ⟨hversion, hindexed⟩), hbefore, rfl⟩
  · cases hsnapshot
    have hstate' : slot'.handle.state = .ready := by
      simp only [ModelRegistry.snapshotReady_fromHandle, ModelRegistry.handleReady, Bool.and_eq_true,
        decide_eq_true_eq] at hready
      exact hready.1
    obtain ⟨hstate, hmetadata, hlabels, hscheduler⟩ := hhandle hstate'
    obtain ⟨-, -, hpublished⟩ := hphase.of_ready hstate
    rw [ModelSlot.Published] at hpublished
    refine ⟨.fromHandle slot.handle, ?_, ?_, hscheduler.symm⟩
    · rw [Option.bind_some, ModelSlot.resolve_iff, hpublished]
      refine .inr ⟨rfl, hknown.imp_right fun hknown => ⟨hknown.1, ?_⟩⟩
      simpa [InferSnapshot.known_versions, InferSnapshot.fromHandle, hmetadata, hlabels] using hknown.2
    · simpa [ModelRegistry.handleReady, hstate, hstate', hscheduler] using hbefore

/-- A slot that is not Ready and has indexed nothing serves nobody. -/
theorem ModelSlot.Narrows.of_unindexed {registry registry' : ModelRegistry} {slot : Option ModelSlot}
    {slot' : ModelSlot} (hactive : slot'.active_snapshot = some (.fromHandle slot'.handle))
    (hversions : slot'.version_snapshots = fun _ => none) (hstate : slot'.handle.state ≠ .ready) :
    Narrows registry registry' slot slot' := by
  intro version snapshot hfound hready
  rw [ModelSlot.resolve_iff, hversions, hactive] at hfound
  obtain ⟨-, hnone⟩ | ⟨hsnapshot, -⟩ := hfound
  · cases hnone
  · cases hsnapshot
    simp [ModelRegistry.handleReady, hstate] at hready

section Leads

variable {registry registry' : ModelRegistry}

/-- Where no slot is referred to by more, no scheduler leads to more. -/
theorem ModelRegistry.leads_of_narrows
    (hnarrows : ∀ model_name slot', registry'.models_ model_name = some slot' →
      ModelSlot.Narrows registry registry' (registry.models_ model_name) slot')
    (a b : Scheduler) (hleads : registry'.Leads a b) : registry.Leads a b := by
  obtain ⟨executor, hexecutor, step, hstep, snapshot', hresolve, hready, hheld⟩ := hleads
  rw [ModelRegistry.resolve_eq] at hresolve
  obtain ⟨slot', hslot', hfound⟩ := Option.bind_eq_some_iff.mp hresolve
  obtain ⟨snapshot, hfound', hready', hsame⟩ :=
    hnarrows step.model_name slot' hslot' step.model_version snapshot' hfound hready
  refine ⟨executor, hexecutor, step, hstep, snapshot, ?_, hready', hsame.trans hheld⟩
  rw [ModelRegistry.resolve_eq, hfound']

/-- Replacing one slot by one that serves no more. -/
theorem ModelRegistry.leads_setSlot {model_name : String} {slot' : ModelSlot}
    (hmodels : registry'.models_ = Function.update registry.models_ model_name (some slot'))
    (hdraining : ∀ scheduler, scheduler ∈ registry.draining → scheduler ∈ registry'.draining)
    (hnarrows : ModelSlot.Narrows registry registry' (registry.models_ model_name) slot')
    (a b : Scheduler) (hleads : registry'.Leads a b) : registry.Leads a b := by
  refine leads_of_narrows ?_ a b hleads
  intro other slot'' hslot''
  by_cases hname : other = model_name
  · subst hname
    rw [hmodels, Function.update_self, Option.some.injEq] at hslot''
    subst hslot''
    exact hnarrows
  · rw [hmodels, Function.update_of_ne hname] at hslot''
    rw [hslot'']
    exact .of_same hdraining rfl rfl

/-- A slot that is removed leads nowhere. -/
theorem ModelRegistry.leads_eraseSlot {model_name : String}
    (hmodels : registry'.models_ = Function.update registry.models_ model_name none)
    (hdraining : ∀ scheduler, scheduler ∈ registry.draining → scheduler ∈ registry'.draining)
    (a b : Scheduler) (hleads : registry'.Leads a b) : registry.Leads a b := by
  refine leads_of_narrows ?_ a b hleads
  intro other slot' hslot'
  by_cases hname : other = model_name
  · subst hname
    rw [hmodels, Function.update_self] at hslot'
    cases hslot'
  · rw [hmodels, Function.update_of_ne hname] at hslot'
    rw [hslot']
    exact .of_same hdraining rfl rfl

/-- What a Ready snapshot that does not declare an ensemble leads to: nothing. -/
theorem InferSnapshot.Declared.sink {snapshot : InferSnapshot} (hdeclared : snapshot.Declared)
    (hplatform : snapshot.metadata.platform ≠ "ensemble") {b c : Scheduler}
    (hheld : snapshot.scheduler = some b) : ¬ registry'.Leads b c := by
  rintro ⟨executor, hexecutor, step, hstep, -⟩
  refine hplatform (hdeclared b hheld executor hexecutor ?_)
  intro hnone
  rw [hnone] at hstep
  cases hstep

/-- Publishing a checked replacement adds one node, in front of nodes that lead
nowhere. -/
theorem ModelRegistry.leads_publish {model_name : String} {slot' : ModelSlot} {next : BuiltHandle}
    {added : Scheduler} (hmodels : registry'.models_ = Function.update registry.models_ model_name (some slot'))
    (hdraining : registry'.draining = registry.draining) (hadded : next.scheduler = some added)
    (hchecked : registry.referencesChecked model_name next.toModelHandle = true)
    (hdeclared : ∀ name slot, registry.models_ name = some slot → slot.Declared)
    (hslots : ∀ version snapshot', slot'.resolve version = some snapshot' →
      registry'.snapshotReady snapshot' = true → snapshot'.scheduler = some added ∨
        ∃ snapshot, (registry.models_ model_name).bind (·.resolve version) = some snapshot ∧
          registry.snapshotReady snapshot = true ∧ snapshot.scheduler = snapshot'.scheduler) :
    (∀ a b, registry'.Leads a b → registry.Leads a b ∨ a = added ∨ b = added) ∧
      ∀ b, registry'.Leads added b → ∀ c, ¬ registry'.Leads b c := by
  have hready (snapshot : InferSnapshot) :
      registry'.snapshotReady snapshot = registry.snapshotReady snapshot := by
    simp only [snapshotReady, schedulerReady, hdraining]
  have hresolve (step : ModelStep) (hname : step.model_name ≠ model_name) :
      registry'.resolve step = registry.resolve step := by
    rw [resolve_eq, resolve_eq, hmodels, Function.update_of_ne hname]
  constructor
  · rintro a b ⟨executor, hexecutor, step, hstep, snapshot', hfound, hsnapshot, hheld⟩
    by_cases hname : step.model_name = model_name
    · rw [resolve_eq, hname, hmodels, Function.update_self, Option.bind_some] at hfound
      obtain hnew | ⟨snapshot, hfound', hsnapshot', hsame⟩ := hslots _ snapshot' hfound hsnapshot
      · rw [hheld, Option.some.injEq] at hnew
        exact .inr (.inr hnew)
      · refine .inl ⟨executor, hexecutor, step, hstep, snapshot, ?_, hsnapshot', hsame.trans hheld⟩
        rw [resolve_eq, hname, hfound']
    · rw [hresolve step hname] at hfound
      exact .inl ⟨executor, hexecutor, step, hstep, snapshot', hfound, by rw [← hready, hsnapshot], hheld⟩
  · rintro b ⟨executor, hexecutor, step, hstep, snapshot, hfound, hsnapshot, hheld⟩ c
    have hcheck : step.model_name ≠ model_name ∧ ∀ found, registry.resolve step = some found →
        registry.snapshotReady found = true → found.metadata.platform ≠ "ensemble" := by
      simp only [referencesChecked, hadded, Option.all_some, List.all_eq_true] at hchecked
      have hcheck := hchecked executor hexecutor step hstep
      simp only [Bool.and_eq_true, decide_eq_true_eq] at hcheck
      refine ⟨hcheck.1, ?_⟩
      intro found hfound hfoundReady
      simpa [hfound, hfoundReady] using hcheck.2
    rw [hresolve step hcheck.1] at hfound
    have hplatform := hcheck.2 snapshot hfound (by rw [← hready, hsnapshot])
    rw [resolve_eq] at hfound
    obtain ⟨slot, hslot, hfound⟩ := Option.bind_eq_some_iff.mp hfound
    have hslotDeclared := hdeclared _ slot hslot
    have hsnapshotDeclared : snapshot.Declared := by
      obtain ⟨-, hindexed⟩ | ⟨hactive, -⟩ := ModelSlot.resolve_iff.mp hfound
      · exact hslotDeclared.2 _ snapshot hindexed
      · exact hslotDeclared.1 snapshot hactive
    exact hsnapshotDeclared.sink hplatform hheld

end Leads

end neuriplo.registry
