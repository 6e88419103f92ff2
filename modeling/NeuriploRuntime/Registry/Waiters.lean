import NeuriploRuntime.Registry.Reachable

open neuriplo.config neuriplo.model neuriplo.model.ModelLifecycle neuriplo.pipeline neuriplo.tensor transition

namespace neuriplo.registry

/-- A wait is over exactly when the build it waits for is not in flight. -/
theorem ModelRegistry.Phased.waitOver_iff {registry : ModelRegistry} (hphased : registry.Phased)
    (model_name : String) (wait : Wait) :
    registry.waitOver model_name wait = true ↔ registry.inFlight model_name ≠ some wait := by
  cases hslot : registry.models_ model_name with
  | none => cases wait <;> simp [ModelRegistry.waitOver, ModelRegistry.inFlight, hslot]
  | some slot =>
    rw [ModelRegistry.inFlight_of_slot hslot]
    cases wait with
    | firstLoad =>
      rw [ne_eq, (hphased _ slot hslot).inFlight_firstLoad]
      simp [ModelRegistry.waitOver, hslot]
    | reloadPending =>
      rw [ne_eq, slot.inFlight_reloadPending]
      simp [ModelRegistry.waitOver, hslot]

/-- Whoever has to wait has something to wait for. -/
theorem ModelRegistry.enterReload_wait {registry : ModelRegistry} {model_name : String} {wait : Wait}
    (hentry : (registry.enterReload model_name).2 = .wait wait) :
    (registry.enterReload model_name).1.waitOver model_name wait = false := by
  unfold ModelRegistry.enterReload at hentry ⊢
  cases hslot : registry.models_ model_name with
  | none => simp [hslot] at hentry
  | some slot =>
    simp only [hslot] at hentry ⊢
    split at hentry
    · rename_i hloading
      cases hentry
      simp only [Bool.and_eq_true, decide_eq_true_eq] at hloading
      simp [ModelRegistry.waitOver, hslot, hloading]
    · split at hentry
      · rename_i hpending
        cases hentry
        simp [ModelRegistry.waitOver, hslot, hpending]
      · split at hentry <;> cases hentry

/-- An opening section parks its caller only with the predicate false. -/
theorem ModelRegistry.enter_wait {registry : ModelRegistry} {call : Call} {wait : Wait}
    (hentry : (registry.enter call).2 = .wait wait) :
    (registry.enter call).1.waitOver call.model_name wait = false := by
  cases call with
  | loadModel config =>
    simp only [ModelRegistry.enter, ModelRegistry.enterLoad] at hentry ⊢
    cases hslot : registry.models_ config.model_name with
    | none => simp [hslot] at hentry
    | some existing =>
      simp only [hslot] at hentry ⊢
      split at hentry
      · cases hentry
      · rename_i hloading
        cases hentry
        rw [if_neg hloading]
        simpa [ModelRegistry.waitOver, Call.model_name, hslot] using hloading
  | reload model_name config => exact ModelRegistry.enterReload_wait hentry
  | switchVersion model_name version config =>
    simp only [ModelRegistry.enter, ModelRegistry.enterSwitch] at hentry ⊢
    cases hslot : registry.models_ model_name with
    | none => simp [hslot] at hentry
    | some slot =>
      simp only [hslot] at hentry ⊢
      split at hentry
      · cases hentry
      · rename_i hactive
        rw [if_neg hactive]
        exact ModelRegistry.enterReload_wait hentry

/-- A thread parks only under the lock and with its predicate false. -/
theorem Pc.step_parked {registry registry' : ModelRegistry} {pc : Pc} {action : Action} {call : Call}
    {prebuilt : Option Prebuilt} {wait : Wait}
    (hstep : pc.step registry action = some (registry', .parked call prebuilt wait)) :
    registry'.waitOver call.model_name wait = false := by
  unfold Pc.step at hstep
  split at hstep
  case h_1 request =>
    cases request with
    | build call explicit =>
      simp only [Request.start] at hstep
      split at hstep <;> cases hstep
    | _ => cases hstep
  case h_2 call' prebuilt' graph =>
    cases hprogress : prebuilt'.read call'.config graph <;> simp [hprogress, Pc.prepared] at hstep
  case h_3 call' graph steps prebuilt' builtins =>
    cases hprogress : prebuilt'.resolve registry builtins call'.config graph steps <;>
      simp [hprogress, Pc.prepared] at hstep
  case h_4 call' prebuilt' =>
    have hregistry : (registry.enter call').1 = registry' := (Prod.mk.inj (Option.some.inj hstep)).1
    have hentered : Pc.entered call' prebuilt' (registry.enter call').2 = .parked call prebuilt wait :=
      (Prod.mk.inj (Option.some.inj hstep)).2
    cases hentry : (registry.enter call').2 with
    | answer answer => simp [hentry, Pc.entered] at hentered
    | build => simp [hentry, Pc.entered] at hentered
    | wait wait' =>
      simp only [hentry, Pc.entered, Pc.parked.injEq] at hentered
      obtain ⟨rfl, -, rfl⟩ := hentered
      subst hregistry
      exact ModelRegistry.enter_wait hentry
  case h_6 call' prebuilt' wait' =>
    obtain ⟨rfl, hrewoken⟩ := Prod.mk.inj (Option.some.inj hstep)
    unfold Pc.rewoken at hrewoken
    split at hrewoken
    · cases wait' <;> cases hrewoken
    · rename_i hover
      cases hrewoken
      simpa using hover
  case h_13 model_name => split at hstep <;> cases hstep
  case h_14 model_name whole =>
    simp only at hstep
    split at hstep <;> cases hstep
  all_goals cases hstep

/-- Whoever is parked although its wait is over has a `notify_all` coming. -/
def State.Notified (s : State) : Prop :=
  ∀ thread call prebuilt wait, s.threads thread = .parked call prebuilt wait →
    s.registry_.waitOver call.model_name wait = true → ∃ other, (s.threads other).notifies = true

/-- A step that notifies leaves nobody parked but itself. -/
theorem State.move_parked {s : State} {thread other : Nat} {registry' : ModelRegistry} {pc' : Pc}
    {call : Call} {prebuilt : Option Prebuilt} {wait : Wait} (hother : other ≠ thread)
    (hparked : (s.move thread (registry', pc')).threads other = .parked call prebuilt wait) :
    (s.threads thread).notifies = false ∧ s.threads other = .parked call prebuilt wait := by
  rw [State.move_threads_ne hother] at hparked
  split at hparked
  · cases hpc : s.threads other <;> simp [hpc, Pc.notified] at hparked
  · exact ⟨by simp_all, hparked⟩

/-- Every step leaves each parked thread with a notification to come. -/
theorem State.Notified.step {s s' : State} (hinv : s.Inv) (hnotified : s.Notified) {event : Event}
    (hstep : s.step event = some s') : s'.Notified := by
  cases event with
  | thread thread action =>
    have hinv' := hinv.step hstep
    obtain ⟨registry', pc', heffect, hpc, rfl⟩ := hinv.effect hstep
    intro other call prebuilt wait hparked hover
    by_cases hother : other = thread
    · subst hother
      rw [State.move_threads_self] at hparked
      subst hparked
      have := Pc.step_parked hpc
      rw [State.move_registry_] at hover
      rw [hover] at this
      cases this
    · obtain ⟨hquiet, hparked⟩ := State.move_parked hother hparked
      have hover' := (hinv'.phased.waitOver_iff call.model_name wait).mp hover
      by_cases hbefore : s.registry_.waitOver call.model_name wait = true
      · -- the notifier of the state before is still to come: it is not the thread that stepped
        obtain ⟨notifier, hnotifies⟩ := hnotified other call prebuilt wait hparked hbefore
        have hne : notifier ≠ thread := by
          rintro rfl
          rw [hquiet] at hnotifies
          cases hnotifies
        refine ⟨notifier, ?_⟩
        rw [State.move_threads_ne hne, hquiet]
        exact hnotifies
      · -- the predicate has just become true, so the build has just ended
        have hflight : s.registry_.inFlight call.model_name = some wait := by
          by_contra hflight
          exact hbefore ((hinv.phased.waitOver_iff call.model_name wait).mpr hflight)
        obtain hflight' | hnotifies := heffect.inFlight_ends hinv.phased hflight
        · exact absurd hflight' hover'
        · exact ⟨thread, by rw [State.move_threads_self, hnotifies]⟩
  | drainTask scheduler =>
    obtain ⟨-, rfl⟩ := State.step_drainTask hstep
    exact hnotified
  | setRepositoryCatalog configs =>
    cases hstep
    exact hnotified

/-- In every run each parked thread has a notification to come. -/
theorem notified_reachable {s : State} (hreach : system.Reachable s) : s.Notified := by
  refine hreach.invariant ?_ ?_
  · rintro s rfl thread call prebuilt wait hparked
    cases hparked
  · intro s event s' hreach hnotified hstep
    exact hnotified.step (inv_reachable hreach) hstep

/-- The pending `notify_all` can run at once, and it wakes the parked thread. -/
theorem State.notify_wakes {s : State} {thread other : Nat} {call : Call} {prebuilt : Option Prebuilt}
    {wait : Wait} (hparked : s.threads thread = .parked call prebuilt wait)
    (hnotifies : (s.threads other).notifies = true) :
    ∃ s', s.step (.thread other .run) = some s' ∧ s'.threads thread = .woken call prebuilt wait := by
  cases hpc : s.threads other with
  | notifying call' answer old_snapshot =>
    refine ⟨s.move other (s.registry_, .retiring call' answer old_snapshot), ?_, ?_⟩
    · simp [State.step, hpc, Pc.step]
    · have hne : thread ≠ other := by
        rintro rfl
        simp [hpc] at hparked
      rw [State.move_threads_ne hne, hnotifies, if_pos rfl, hparked]
      rfl
  | _ => simp [hpc, Pc.notifies] at hnotifies

/-- No caller is stranded on `load_cv_`: while a thread is parked and its
predicate holds, or no build of its model is in flight at all, some thread is
about to execute a `notify_all`, and that wakes it. -/
theorem parked_notified {s : State} (hreach : system.Reachable s) {thread : Nat} {call : Call}
    {prebuilt : Option Prebuilt} {wait : Wait} (hparked : s.threads thread = .parked call prebuilt wait)
    (hover : s.registry_.waitOver call.model_name wait = true ∨
      ∀ builder, ¬ s.Building builder call.model_name) :
    ∃ notifier s', (s.threads notifier).notifies = true ∧
      s.step (.thread notifier .run) = some s' ∧ s'.threads thread = .woken call prebuilt wait := by
  have hinv := inv_reachable hreach
  have hover' : s.registry_.waitOver call.model_name wait = true := by
    obtain hover | hnobody := hover
    · exact hover
    · rw [hinv.phased.waitOver_iff]
      intro hflight
      obtain ⟨builder, hholds⟩ := hinv.exclusive.held call.model_name wait hflight
      exact hnobody builder ⟨wait, hholds⟩
  obtain ⟨notifier, hnotifies⟩ := notified_reachable hreach thread call prebuilt wait hparked hover'
  obtain ⟨s', hstep, hwoken⟩ := State.notify_wakes hparked hnotifies
  exact ⟨notifier, s', hnotifies, hstep, hwoken⟩

/-- A second load joins the first, whose build fails: the second is parked with
its wait over until the first gets to its `notify_all`. -/
def joinedLoad : List Event :=
  [.thread 0 (.start (.build (.loadModel {}) false)), .thread 0 .run,
    .thread 1 (.start (.build (.loadModel {}) false)), .thread 1 .run,
    .thread 0 (.build (.unavailable "no such backend") none), .thread 0 .run]

/-- A load that joins another is parked, and woken when the other is done. -/
theorem parked_notified_joinedLoad :
    ∃ s notifier s', System.replay State.step {} joinedLoad = some s ∧
      s.threads 1 = .parked (.loadModel {}) none .firstLoad ∧ (s.threads notifier).notifies = true ∧
      s.step (.thread notifier .run) = some s' ∧ s'.threads 1 = .woken (.loadModel {}) none .firstLoad := by
  obtain ⟨notifier, s', hnotifies, hstep, hwoken⟩ :=
    @parked_notified _ (@System.reachable_of_replay _ _ _ _ _ joinedLoad rfl) 1 (.loadModel {}) none .firstLoad
      rfl (.inl rfl)
  exact ⟨_, notifier, s', rfl, rfl, hnotifies, hstep, hwoken⟩

end neuriplo.registry
