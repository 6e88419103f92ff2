import NeuriploRuntime.Registry.Provenance

open neuriplo.config neuriplo.model neuriplo.model.ModelLifecycle neuriplo.pipeline neuriplo.tensor transition

namespace neuriplo.registry

/-- The model is Ready and its active version is the given one. -/
def ModelRegistry.Serving (registry : ModelRegistry) (model_name version : String) : Prop :=
  registry.ready model_name = true ∧ versionFromSnapshot (registry.findHandle model_name) = version

instance (registry : ModelRegistry) (model_name version : String) :
    Decidable (registry.Serving model_name version) :=
  inferInstanceAs (Decidable (_ ∧ _))

namespace Pc

/-- The thread is in a call. -/
def active : Pc → Bool
  | .idle => false
  | _ => true

/-- What the thread is about to return, or returns, and for which call. -/
def answered : Pc → Option (Call × Bool)
  | .notifying call (some answer) _ => some (call, answer)
  | .retiring call (some answer) _ => some (call, answer)
  | .returned (some call) (some answer) => some (call, answer)
  | _ => none

theorem notified_answered (pc : Pc) : pc.notified.answered = pc.answered := by cases pc <;> rfl

/-- A thread that has an answer is in a call. -/
theorem active_of_answered {pc : Pc} {answer : Call × Bool} (hanswered : pc.answered = some answer) :
    pc.active = true := by
  cases pc with
  | idle => cases hanswered
  | _ => rfl

end Pc

/-- The states a thread's present call has gone through, latest first. -/
def during (thread : Nat) (history : List State) : List State :=
  history.takeWhile fun s => (s.threads thread).active

/-- A ready active snapshot serves its version. -/
theorem ModelRegistry.serving_of_active {registry : ModelRegistry} {model_name version : String}
    {slot : ModelSlot} (hslot : registry.models_ model_name = some slot)
    (hversion : versionFromSnapshot slot.active_snapshot = version)
    (hready : slot.active_snapshot.any registry.snapshotReady = true) : registry.Serving model_name version := by
  refine ⟨?_, ?_⟩
  · simpa [ModelRegistry.ready, ModelRegistry.findHandle, hslot] using hready
  · simpa [ModelRegistry.findHandle, hslot] using hversion

/-- A version switch's opening section answers true for the active version only. -/
theorem ModelRegistry.enterSwitch_true {registry : ModelRegistry} {model_name version : String}
    (hentry : (registry.enterSwitch model_name version).2 = .answer true) :
    registry.Serving model_name version := by
  unfold ModelRegistry.enterSwitch at hentry
  cases hslot : registry.models_ model_name with
  | none => simp [hslot] at hentry
  | some slot =>
    simp only [hslot] at hentry
    split at hentry
    · rename_i hactive
      simp only [Bool.and_eq_true, decide_eq_true_eq] at hactive
      exact serving_of_active hslot hactive.1 hactive.2
    · unfold ModelRegistry.enterReload at hentry
      simp only [hslot] at hentry
      split at hentry
      · cases hentry
      · split at hentry
        · cases hentry
        · split at hentry <;> cases hentry

/-- How a step comes to answer a version switch with true: the answer was there,
or the version was active, or the first load the call joined has ended Ready,
or the call's own build did. -/
theorem Pc.step_answered {registry registry' : ModelRegistry} {pc pc' : Pc} {action : Action}
    {model_name version : String} {config : RuntimeConfig}
    (hstep : pc.step registry action = some (registry', pc'))
    (hanswered : pc'.answered = some (.switchVersion model_name version config, true)) :
    pc.answered = some (.switchVersion model_name version config, true) ∨
    (pc.active = true ∧ registry.Serving model_name version) ∨
    (∃ prebuilt, action = .run ∧ pc = .woken (.switchVersion model_name version config) prebuilt .firstLoad ∧
      registry.waitOver model_name .firstLoad = true ∧ registry.joined model_name = true) ∨
    (∃ next, pc = .finishing (.switchVersion model_name version config) next ∧
      pc'.notifies = true ∧ pc'.answered = some (.switchVersion model_name version config, true)) := by
  unfold Pc.step at hstep
  split at hstep
  case h_1 request =>
    obtain ⟨-, rfl⟩ := Prod.mk.inj (Option.some.inj hstep)
    cases request with
    | build call explicit =>
      simp only [Request.start] at hanswered
      split at hanswered <;> cases hanswered
    | _ => cases hanswered
  case h_2 call prebuilt graph =>
    obtain ⟨-, rfl⟩ := Prod.mk.inj (Option.some.inj hstep)
    cases hprogress : prebuilt.read call.config graph <;> simp [hprogress, prepared, answered] at hanswered
  case h_3 call graph steps prebuilt builtins =>
    obtain ⟨-, rfl⟩ := Prod.mk.inj (Option.some.inj hstep)
    cases hprogress : prebuilt.resolve registry builtins call.config graph steps <;>
      simp [hprogress, prepared, answered] at hanswered
  case h_4 call prebuilt =>
    have hpc' : Pc.entered call prebuilt (registry.enter call).2 = pc' := (Prod.mk.inj (Option.some.inj hstep)).2
    cases hentry : (registry.enter call).2 with
    | wait wait => rw [← hpc', hentry] at hanswered; cases hanswered
    | build => rw [← hpc', hentry] at hanswered; cases hanswered
    | answer answer =>
      rw [← hpc', hentry] at hanswered
      cases hanswered
      exact .inr (.inl ⟨rfl, ModelRegistry.enterSwitch_true hentry⟩)
  case h_6 call prebuilt wait =>
    obtain ⟨-, rfl⟩ := Prod.mk.inj (Option.some.inj hstep)
    unfold rewoken at hanswered
    split at hanswered
    · rename_i hover
      cases wait with
      | firstLoad =>
        simp only [answered, Option.some.injEq, Prod.mk.injEq] at hanswered
        obtain ⟨rfl, hjoined⟩ := hanswered
        exact .inr (.inr (.inl ⟨prebuilt, rfl, rfl, hover, hjoined⟩))
      | reloadPending => cases hanswered
    · cases hanswered
  case h_10 call next =>
    obtain ⟨-, rfl⟩ := Prod.mk.inj (Option.some.inj hstep)
    have hcall : call = .switchVersion model_name version config := by
      simp only [answered, Option.some.injEq, Prod.mk.injEq] at hanswered
      exact hanswered.1
    subst hcall
    exact .inr (.inr (.inr ⟨next, rfl, rfl, hanswered⟩))
  case h_11 call answer old_snapshot =>
    obtain ⟨-, rfl⟩ := Prod.mk.inj (Option.some.inj hstep)
    cases answer with
    | none => cases hanswered
    | some answer => exact .inl hanswered
  case h_12 call answer old_snapshot =>
    obtain ⟨-, rfl⟩ := Prod.mk.inj (Option.some.inj hstep)
    cases answer with
    | none => cases hanswered
    | some answer => exact .inl hanswered
  case h_13 model_name' =>
    split at hstep <;> obtain ⟨-, rfl⟩ := Prod.mk.inj (Option.some.inj hstep) <;> cases hanswered
  case h_14 model_name' whole =>
    simp only at hstep
    split at hstep <;> obtain ⟨-, rfl⟩ := Prod.mk.inj (Option.some.inj hstep) <;> cases hanswered
  all_goals
    cases hstep
  all_goals cases hanswered

/-- A build of its own publishes the version the call asked for. -/
theorem Effect.switched_serving {s : State} {thread : Nat} {registry' : ModelRegistry} {pc' : Pc}
    {model_name version : String} {config : RuntimeConfig} {next : BuiltHandle} (hprovenance : s.Provenance)
    (hpc : s.threads thread = .finishing (.switchVersion model_name version config) next)
    (heffect : Effect s.registry_ (s.threads thread) registry' pc')
    (hanswered : pc'.answered = some (.switchVersion model_name version config, true)) :
    registry'.Serving model_name version := by
  obtain ⟨prebuilt, backend, workers, id, hbuilt⟩ := hprovenance thread _ next hpc
  rw [hpc] at heffect
  cases heffect with
  | stay _ hnext => cases hnext
  | rejected => cases hanswered
  | replaced _ _ slot _ hslot _ hready =>
    have hversions : next.metadata.versions = [version] := by
      rw [hbuilt] at hready ⊢
      exact ModelLifecycle.build_versions hready
    simp only [Pc.answered, Option.some.injEq, Prod.mk.injEq, true_and] at hanswered
    refine ModelRegistry.serving_of_active (ModelRegistry.setSlot_eq_some.mpr (.inl ⟨rfl, rfl⟩)) ?_ ?_
    · simp [ModelSlot.replaced, versionFromSnapshot, InferSnapshot.fromHandle, hversions]
    · exact hanswered

/-- What the join of a first load finds Ready is served. -/
theorem State.Inv.joined_ready {s : State} (hinv : s.Inv) {model_name : String}
    (hjoined : s.registry_.joined model_name = true) : s.registry_.ready model_name = true := by
  unfold ModelRegistry.joined at hjoined
  obtain ⟨slot, hslot, hready⟩ : ∃ slot, s.registry_.models_ model_name = some slot ∧
      s.registry_.handleReady slot.handle = true := by
    cases hslot : s.registry_.models_ model_name with
    | none => simp [hslot] at hjoined
    | some slot => exact ⟨slot, rfl, by simpa [hslot] using hjoined⟩
  have hstate : slot.handle.state = .ready := by
    simp only [ModelRegistry.handleReady, Bool.and_eq_true, decide_eq_true_eq] at hready
    exact hready.1
  obtain ⟨-, -, -, -, hpublished⟩ := hinv.ready_slot hslot hstate
  have hsnapshot : slot.active_snapshot = some (.fromHandle slot.handle) := hpublished
  simpa [ModelRegistry.ready, ModelRegistry.findHandle, hslot, hsnapshot] using hready

/-- The condition on a step: a version switch that joined a first load does not
wake to a Ready model with another version. -/
def joinsRequested (s : State) : Event → Bool
  | .thread thread .run =>
    match s.threads thread with
    | .woken (.switchVersion model_name version _) _ .firstLoad =>
      !s.registry_.waitOver model_name .firstLoad || !s.registry_.ready model_name ||
        versionFromSnapshot (s.registry_.findHandle model_name) = version
    | _ => true
  | _ => true

/-- In every run whose version switches join only first loads of the version
they ask for, a version switch that returns true was made while, at some moment
between its call and its return, the model was Ready with that version active. -/
theorem switchVersion_served {history : List State} {s : State}
    (hrun : (system.restrict fun s event => joinsRequested s event = true).Run history s) {thread : Nat}
    {model_name version : String}
    {config : RuntimeConfig}
    (hreturned : s.threads thread = .returned (some (.switchVersion model_name version config)) (some true)) :
    ∃ moment ∈ during thread (s :: history), moment.registry_.Serving model_name version := by
  let Served (history : List State) (s : State) : Prop := ∀ thread model_name version config,
    (s.threads thread).answered = some (.switchVersion model_name version config, true) →
    ∃ moment ∈ during thread (s :: history), moment.registry_.Serving model_name version
  suffices Served history s from this thread model_name version config (by rw [hreturned]; rfl)
  clear hreturned
  refine System.Run.induction (motive := Served) ?_ ?_ hrun
  · rintro s rfl thread model_name version config hanswered
    cases hanswered
  · rintro history s event s' hrun ih ⟨hstep, hcondition⟩ thread model_name version config hanswered
    have hreach := hrun.reachable.of_restrict
    have hinv := inv_reachable hreach
    have hactive' : (s'.threads thread).active = true := Pc.active_of_answered hanswered
    have hduring : during thread (s' :: s :: history) = s' :: during thread (s :: history) := by
      simp [during, hactive']
    have hbefore (hold : (s.threads thread).answered = some (.switchVersion model_name version config, true)) :
        ∃ moment ∈ during thread (s' :: s :: history), moment.registry_.Serving model_name version := by
      obtain ⟨moment, hmoment, hserving⟩ := ih thread model_name version config hold
      exact ⟨moment, by rw [hduring]; exact List.mem_cons_of_mem _ hmoment, hserving⟩
    have hnow (hactive : (s.threads thread).active = true) (hserving : s.registry_.Serving model_name version) :
        ∃ moment ∈ during thread (s' :: s :: history), moment.registry_.Serving model_name version := by
      refine ⟨s, ?_, hserving⟩
      rw [hduring]
      simp [during, hactive]
    cases event with
    | thread other action =>
      obtain ⟨registry', pc', heffect, hpc, rfl⟩ := hinv.effect hstep
      by_cases hother : thread = other
      · subst hother
        rw [State.move_threads_self] at hanswered
        rcases Pc.step_answered hpc hanswered with hold | ⟨hactive, hserving⟩ |
          ⟨prebuilt, rfl, hwoken, hover, hjoined⟩ | ⟨next, hfinishing, -, -⟩
        · exact hbefore hold
        · exact hnow hactive hserving
        · have hready := hinv.joined_ready hjoined
          refine hnow (by rw [hwoken]; rfl) ⟨hready, ?_⟩
          simpa [joinsRequested, hwoken, hover, hready] using hcondition
        · refine ⟨s.move thread (registry', pc'), ?_, ?_⟩
          · rw [hduring]
            exact List.mem_cons_self
          · exact heffect.switched_serving (provenance_reachable hreach) hfinishing hanswered
      · rw [State.move_threads_ne hother] at hanswered
        refine hbefore ?_
        split at hanswered
        · rwa [Pc.notified_answered] at hanswered
        · exact hanswered
    | drainTask scheduler =>
      obtain ⟨-, rfl⟩ := State.step_drainTask hstep
      refine hbefore ?_
      exact hanswered
    | setRepositoryCatalog configs =>
      cases hstep
      exact hbefore hanswered

/-- A model is loaded with version 1 and then switched to version 2. -/
def switchedVersion : List Event :=
  undisturbed 0 (.loadModel {}) (.serving { name := "demo", versions := ["1"] }) ++
    (undisturbed 1 (.switchVersion "demo" "2" {}) (.serving { name := "demo" })).take 6

/-- A model that is switched to its second version. -/
theorem switchVersion_served_switchedVersion :
    ∃ history s, System.trace (System.guarded joinsRequested State.step) [] {} switchedVersion = some (history, s) ∧
      ∃ moment ∈ during 1 (s :: history), moment.registry_.Serving "demo" "2" := by
  refine ⟨_, _, rfl, ?_⟩
  exact @switchVersion_served _ _
    (System.Run.of_guarded (@System.run_of_trace _ _ _ _ _ switchedVersion _ rfl)) 1 "demo" "2" {} rfl

/-- A switch to version 2 joins the first load, of version 1. -/
def joinedOtherVersion : List Event :=
  [.thread 0 (.start (.build (.loadModel {}) true)), .thread 0 .run,
    .thread 1 (.start (.build (.switchVersion "demo" "2" {}) true)), .thread 1 .run,
    .thread 0 (.build (.serving { name := "demo", versions := ["1"] }) none), .thread 0 .run, .thread 0 .run,
    .thread 1 .run]

/-- The switch returns true although version 2 was never active. -/
theorem switchVersion_joins_other_version :
    ∃ history s, system.Run history s ∧
      s.threads 1 = .returned (some (.switchVersion "demo" "2" {})) (some true) ∧
      ¬ ∃ moment ∈ during 1 (s :: history), moment.registry_.Serving "demo" "2" := by
  refine ⟨_, _, @System.run_of_trace _ _ _ _ _ joinedOtherVersion _ rfl, rfl, ?_⟩
  decide

end neuriplo.registry
