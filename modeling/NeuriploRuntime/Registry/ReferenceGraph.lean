import NeuriploRuntime.Registry.Ensembles

open neuriplo.config neuriplo.model neuriplo.model.ModelLifecycle neuriplo.pipeline neuriplo.tensor transition

namespace neuriplo.registry

/-- Who asked for the displaced version before the switch was led where the
index leads after it. -/
theorem ModelSlot.resolve_displaced {registry : ModelRegistry} {model_name version : String} {slot : ModelSlot}
    {active : InferSnapshot} (hslot : registry.models_ model_name = some slot)
    (hreindexes : registry.reindexes model_name = true) (hversion : version ≠ "")
    (hactive : slot.active_snapshot = some active) (hlabel : version = versionFromSnapshot slot.active_snapshot)
    (hready : registry.snapshotReady active = true) :
    ∃ snapshot, slot.resolve version = some snapshot ∧ registry.snapshotReady snapshot = true ∧
      snapshot.scheduler = active.scheduler := by
  cases hindex : slot.version_snapshots version with
  | none =>
    refine ⟨active, ?_, hready, rfl⟩
    refine ModelSlot.resolve_iff.mpr (.inr ⟨hactive, .inr ⟨hindex, ?_⟩⟩)
    rw [hactive] at hlabel
    subst hlabel
    exact InferSnapshot.label_known hversion
  | some indexed =>
    refine ⟨indexed, ModelSlot.resolve_iff.mpr (.inl ⟨hversion, hindex⟩), ?_⟩
    rw [hactive] at hlabel
    subst hlabel
    simp only [ModelRegistry.reindexes, hslot, hactive, hready, hindex, Option.all_some, Bool.not_true,
      Bool.false_or, Bool.and_eq_true, decide_eq_true_eq] at hreindexes
    exact hreindexes

/-- What an effect does to the references between schedulers: none appears, or
one checked replacement is added in front of models that refer to none. -/
theorem Effect.leads {s : State} {thread : Nat} {action : Action} {registry' : ModelRegistry} {pc' : Pc}
    (hinv : s.Inv) (hdeclared : s.Declared)
    (hcondition : publishesChecked s (.thread thread action) = true)
    (heffect : Effect s.registry_ (s.threads thread) registry' pc') :
    (∀ a b, registry'.Leads a b → s.registry_.Leads a b) ∨
      ∃ added, (∀ a b, registry'.Leads a b → s.registry_.Leads a b ∨ a = added ∨ b = added) ∧
        ∀ b, registry'.Leads added b → ∀ c, ¬ registry'.Leads b c := by
  have hdraining := fun scheduler hmem => @Effect.draining _ _ _ _ heffect scheduler hmem
  have hsame (hmodels : registry'.models_ = s.registry_.models_) :
      ∀ a b, registry'.Leads a b → s.registry_.Leads a b := by
    refine ModelRegistry.leads_of_narrows ?_
    intro model_name slot' hslot'
    rw [← hmodels, hslot']
    exact .of_same hdraining rfl rfl
  have hchecked (call : Call) (next : BuiltHandle) (hpc : s.threads thread = .finishing call next)
      (hnext : next.state = .ready) :
      s.registry_.referencesChecked call.model_name next.toModelHandle = true ∧
        ∀ model_name version config, call = .switchVersion model_name version config →
          s.registry_.reindexes model_name = true := by
    simp only [publishesChecked, hpc, hnext, ne_eq, not_true_eq_false, decide_false, Bool.false_or,
      Bool.and_eq_true] at hcondition
    refine ⟨hcondition.1, ?_⟩
    rintro model_name version config rfl
    exact hcondition.2
  have hscheduler (next : BuiltHandle) (hnext : next.state = .ready) :
      ∃ added, next.scheduler = some added := by
    cases next.settled with
    | ready scheduler _ hscheduler => exact ⟨scheduler, hscheduler⟩
    | failed _ hfailed => simp [hnext] at hfailed
  generalize hpc : s.threads thread = pc at heffect
  cases heffect with
  | stay => exact .inl (hsame rfl)
  | built => exact .inl (hsame rfl)
  | retired => exact .inl (hsame rfl)
  | reserved config prebuilt hnone =>
    refine .inl (ModelRegistry.leads_setSlot rfl hdraining (.of_unindexed rfl rfl ?_))
    simp [ModelSlot.placeholder, ModelSlot.publishSnapshot, ModelState.startLoad, ModelState.transitionTo,
      isValidTransition]
  | begun call prebuilt slot hkind hslot hidle =>
    refine .inl (ModelRegistry.leads_setSlot rfl hdraining ?_)
    rw [hslot]
    exact .of_same hdraining rfl rfl
  | loaded config next slot hslot hstate hpending =>
    obtain ⟨-, -, hversions, -⟩ := (hinv.phased _ slot hslot).of_loading hstate
    by_cases hnext : next.state = .ready
    · obtain ⟨added, hadded⟩ := hscheduler next hnext
      refine .inr ⟨added, ModelRegistry.leads_publish rfl rfl hadded (hchecked _ next hpc hnext).1 hdeclared ?_⟩
      intro version snapshot' hfound hready
      obtain ⟨-, hindexed⟩ | ⟨hactive, -⟩ := ModelSlot.resolve_iff.mp hfound
      · simp [ModelSlot.publishSnapshot, hversions] at hindexed
      · cases hactive
        exact .inl hadded
    · refine .inl (ModelRegistry.leads_setSlot rfl hdraining (.of_unindexed rfl hversions ?_))
      exact hnext
  | replaced call next slot hkind hslot hpending hnext =>
    obtain ⟨added, hadded⟩ := hscheduler next hnext
    obtain ⟨hreferences, hreindexes⟩ := hchecked call next hpc hnext
    refine .inr ⟨added, ModelRegistry.leads_publish rfl rfl hadded hreferences hdeclared ?_⟩
    intro version snapshot' hfound hready
    rw [hslot, Option.bind_some]
    have hkept (hversion : version ≠ "") (hindexed : slot.version_snapshots version = some snapshot') :
        ∃ snapshot, slot.resolve version = some snapshot ∧ s.registry_.snapshotReady snapshot = true ∧
          snapshot.scheduler = snapshot'.scheduler :=
      ⟨snapshot', ModelSlot.resolve_iff.mpr (.inl ⟨hversion, hindexed⟩), hready, rfl⟩
    obtain ⟨hversion, hindexed⟩ | ⟨hactive, -⟩ := ModelSlot.resolve_iff.mp hfound
    · cases call with
      | loadModel => cases hkind
      | reload => exact .inr (hkept hversion hindexed)
      | switchVersion model_name label config =>
        obtain ⟨hnew, -⟩ | hindexed := indexSnapshot_some hindexed
        · cases hnew
          exact .inl hadded
        · obtain ⟨hold, hlabel⟩ | hindexed := indexSnapshot_some hindexed
          · refine .inr ?_
            exact slot.resolve_displaced hslot (hreindexes _ _ _ rfl) hversion hold hlabel hready
          · exact .inr (hkept hversion hindexed)
    · cases hactive
      exact .inl hadded
  | rejected call next slot hkind hslot hpending hnext =>
    refine .inl (ModelRegistry.leads_setSlot rfl hdraining ?_)
    rw [hslot]
    refine .republish (hinv.phased _ slot hslot) hdraining rfl rfl ?_
    intro hready
    have hstate : slot.handle.state = .ready := by
      obtain hstate | hstate := (hinv.phased _ slot hslot).pending_state hpending
      · exact hstate
      · simp [ModelSlot.kept, ModelSlot.publishSnapshot, ModelHandle.rejected, hstate] at hready
    exact ⟨hstate, rfl, rfl, rfl⟩
  | resolved call slot hslot hflight =>
    refine .inl (ModelRegistry.leads_setSlot rfl hdraining ?_)
    rw [hslot]
    refine .republish (hinv.phased _ slot hslot) hdraining rfl rfl ?_
    intro hready
    have hstate : slot.handle.state = .ready := by
      by_cases hloading : slot.handle.state = .loading
      · simp [ModelSlot.resolved, ModelSlot.publishSnapshot, hloading] at hready
      · simpa [ModelSlot.resolved, ModelSlot.publishSnapshot, hloading] using hready
    exact ⟨hstate, rfl, rfl, rfl⟩
  | erased => exact .inl (ModelRegistry.leads_eraseSlot rfl hdraining)
  | drained name whole slot scheduler hslot =>
    refine .inl (ModelRegistry.leads_setSlot rfl hdraining ?_)
    rw [hslot]
    refine .republish (hinv.phased _ slot hslot) hdraining rfl rfl ?_
    intro hready
    simp [ModelSlot.drained, ModelSlot.publishSnapshot] at hready
  | completed => exact .inl (ModelRegistry.leads_eraseSlot rfl hdraining)

/-- In every state reached by runs that publish an ensemble only while its
build-time check of the references still holds, following model steps from a
scheduler to the Ready snapshot the resolver returns never comes back to it: no
request recurses into the ensemble that serves it. -/
theorem references_acyclic {s : State}
    (hreach : (system.restrict fun s event => publishesChecked s event = true).Reachable s) :
    Acyclic s.registry_.Leads := by
  refine @System.Reachable.invariant_of_restrict _ _ _ _ (fun s => Acyclic s.registry_.Leads) ?_ ?_ s hreach
  · rintro s rfl a hcycle
    obtain ⟨b, ⟨_, _, step, _, snapshot, hfound, -⟩, -⟩ := Relation.TransGen.head'_iff.mp hcycle
    rw [ModelRegistry.resolve_eq] at hfound
    cases hfound
  · intro s event s' hreach hcondition hacyclic hstep
    cases event with
    | thread thread action =>
      obtain ⟨registry', pc', heffect, -, rfl⟩ := (inv_reachable hreach).effect hstep
      rcases heffect.leads (inv_reachable hreach) (declared_reachable hreach) hcondition with
        hsub | ⟨added, hedges, hsinks⟩
      · exact hacyclic.mono hsub
      · exact hacyclic.insert added hedges hsinks
    | drainTask scheduler =>
      obtain ⟨-, rfl⟩ := State.step_drainTask hstep
      refine hacyclic.mono (ModelRegistry.leads_of_narrows ?_)
      intro model_name slot' hslot'
      have hslot : s.registry_.models_ model_name = some slot' := hslot'
      rw [hslot]
      exact .of_same (fun _ hmem => List.mem_cons_of_mem _ hmem) rfl rfl
    | setRepositoryCatalog configs =>
      cases hstep
      refine hacyclic.mono (ModelRegistry.leads_of_narrows ?_)
      intro model_name slot' hslot'
      have hslot : s.registry_.models_ model_name = some slot' := hslot'
      rw [hslot]
      exact .of_same (fun _ hmem => hmem) rfl rfl

/-- The construction of an executor for an ensemble with one step, up to the
last look at the registry. -/
def resolvesStep (thread : Nat) (call : Call) (model_name : String) : List Event :=
  [.start (.build call false), .read (.ok ⟨[{ name := "only", model_name }]⟩),
    .resolve fun _ _ => .error "no builtin steps", .resolve fun _ _ => .error "no builtin steps"].map (.thread thread)

/-- The rest of a call whose executors are built. -/
def publishes (thread : Nat) : List Event :=
  [.run, .build (.unavailable "unused") none, .run, .run, .run, .run].map (.thread thread)

def plainModels : List Event :=
  undisturbed 0 (.loadModel { model_name := "a" }) (.serving { name := "a" }) ++
    undisturbed 0 (.loadModel { model_name := "b" }) (.serving { name := "b" })

def reloadAsEnsemble (model_name : String) : Call := .reload model_name { model_name, backend := "ensemble" }

/-- Each reload resolves the other's model before either publishes. -/
def crossedReloads : List Event :=
  plainModels ++ resolvesStep 1 (reloadAsEnsemble "a") "b" ++ resolvesStep 2 (reloadAsEnsemble "b") "a" ++
    publishes 1 ++ publishes 2

/-- Two models end up as Ready ensembles over each other. -/
theorem crossed_reloads_recurse :
    ∃ s a, system.Reachable s ∧ (s.registry_.findHandle "a").bind (·.scheduler) = some a ∧
      s.registry_.ready "a" = true ∧ s.registry_.ready "b" = true ∧
      Relation.TransGen s.registry_.Leads a a := by
  let served (model_name : String) :=
    ((State.after {} crossedReloads).registry_.findHandle model_name).bind (·.scheduler)
  obtain ⟨a, ha⟩ : ∃ a, served "a" = some a := ⟨_, rfl⟩
  obtain ⟨b, hb⟩ : ∃ b, served "b" = some b := ⟨_, rfl⟩
  refine ⟨_, a, @System.reachable_of_replay _ _ _ _ _ crossedReloads rfl, ha, rfl, rfl, ?_⟩
  have hforth : (State.after {} crossedReloads).registry_.Leads a b := by
    cases ha
    refine ⟨_, .head _, ⟨"b", ""⟩, ?_, _, rfl, rfl, hb⟩
    exact .head _
  have hback : (State.after {} crossedReloads).registry_.Leads b a := by
    cases hb
    refine ⟨_, .head _, ⟨"a", ""⟩, ?_, _, rfl, rfl, ha⟩
    exact .head _
  exact .tail (.single hforth) hback

/-- A plain model and an ensemble over it. -/
def loadedEnsemble : List Event :=
  plainModels ++ resolvesStep 1 (reloadAsEnsemble "a") "b" ++ publishes 1

theorem references_acyclic_loadedEnsemble :
    ∃ s, System.replay (System.guarded publishesChecked State.step) {} loadedEnsemble = some s ∧
      Acyclic s.registry_.Leads := by
  obtain ⟨history, hrun⟩ :=
    @System.reachable_of_replay _ _ {} _ (System.guarded publishesChecked State.step) loadedEnsemble rfl
  exact ⟨_, rfl, references_acyclic ⟨history, hrun.of_guarded⟩⟩

end neuriplo.registry
