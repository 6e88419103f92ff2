import Mathlib.Logic.Relation
import NeuriploRuntime.Registry.SlotInvariant

open neuriplo.config neuriplo.model neuriplo.model.ModelLifecycle neuriplo.pipeline neuriplo.tensor transition

namespace neuriplo.registry

/-- Any number of steps of the rest of the system. -/
def Elsewhere (thread : Nat) : State → State → Prop :=
  Relation.ReflTransGen fun s s' =>
    ∃ event, (∀ action, event ≠ .thread thread action) ∧ s.step event = some s'

/-- What other threads do keeps the state reachable. -/
theorem Elsewhere.reachable {thread : Nat} {s s' : State} (helsewhere : Elsewhere thread s s')
    (hreach : system.Reachable s) : system.Reachable s' := by
  induction helsewhere with
  | refl => exact hreach
  | tail _ hstep ih =>
    obtain ⟨event, -, hstep⟩ := hstep
    exact ih.next hstep

/-- A thread that is not parked stays where it is while others run. -/
theorem Elsewhere.threads {thread : Nat} {s s' : State} (helsewhere : Elsewhere thread s s')
    (hpc : (s.threads thread).notified = s.threads thread) : s'.threads thread = s.threads thread := by
  induction helsewhere with
  | refl => rfl
  | @tail mid s' _ hstep ih =>
    obtain ⟨event, hother, hstep⟩ := hstep
    cases event with
    | thread other action =>
      have hne : thread ≠ other := by
        rintro rfl
        exact hother action rfl
      obtain ⟨after, -, rfl⟩ := Option.map_eq_some_iff.mp hstep
      rw [State.move_threads_ne hne, ih]
      split
      · exact hpc
      · rfl
    | drainTask scheduler =>
      obtain ⟨-, rfl⟩ := State.step_drainTask hstep
      exact ih
    | setRepositoryCatalog configs =>
      cases hstep
      exact ih

/-- The slot a thread builds for is out of every other thread's reach. -/
theorem Elsewhere.slot {thread : Nat} {s s' : State} (helsewhere : Elsewhere thread s s')
    (hreach : system.Reachable s) (hpc : (s.threads thread).notified = s.threads thread)
    {model_name : String} {wait : Wait} (hholds : (s.threads thread).holds = some (model_name, wait))
    {slot : ModelSlot} (hslot : s.registry_.models_ model_name = some slot) :
    s'.registry_.models_ model_name = some slot := by
  induction helsewhere with
  | refl => exact hslot
  | @tail mid s' hbefore hstep ih =>
    obtain ⟨event, hother, hstep⟩ := hstep
    have hinv := inv_reachable (Elsewhere.reachable hbefore hreach)
    have hthread := Elsewhere.threads hbefore hpc
    have hbuilding : mid.Building thread model_name := ⟨wait, by rw [hthread, hholds]⟩
    obtain ⟨slot', hslot', hflagged⟩ := hinv.building_slot hbuilding
    rw [ih, Option.some.injEq] at hslot'
    subst hslot'
    obtain hsame | ⟨⟨other, action, rfl, wait', hother'⟩, -⟩ := hinv.flagged_slot hstep ih hflagged
    · exact hsame
    · have heq := hinv.exclusive.unique other thread model_name wait' wait hother' (by
        rw [State.builds, hthread, hholds])
      exact absurd (by rw [heq]) (hother action)

/-- How a reload or version switch goes on after it began to build, with any
steps of other threads between its own: the build, the closing section, the
`notify_all`, and the retirement before the return. -/
structure Continuation (thread : Nat) (backend : BackendFactory) (workers : Option (Option String))
    (begun : State) where
  building : State
  built : State
  finishing : State
  stored : State
  notifying : State
  notified : State
  retiring : State
  returned : State
  while_building : Elsewhere thread begun building
  builds : building.step (.thread thread (.build backend workers)) = some built
  while_finishing : Elsewhere thread built finishing
  stores : finishing.step (.thread thread .run) = some stored
  while_notifying : Elsewhere thread stored notifying
  notifies : notifying.step (.thread thread .run) = some notified
  while_retiring : Elsewhere thread notified retiring
  retires : retiring.step (.thread thread .run) = some returned

/-- A thread's next step from a known place. -/
theorem State.step_thread {s s' : State} {thread : Nat} {pc : Pc} {action : Action}
    (hpc : s.threads thread = pc) (hstep : s.step (.thread thread action) = some s') :
    ∃ after, pc.step s.registry_ action = some after ∧ s' = s.move thread after := by
  obtain ⟨after, hafter, rfl⟩ := Option.map_eq_some_iff.mp hstep
  exact ⟨after, by rw [← hpc, hafter], rfl⟩

section Continuation

variable {thread : Nat} {call : Call} {prebuilt : Option Prebuilt} {backend : BackendFactory}
  {workers : Option (Option String)} {begun : State}

/-- The replacement handle the continuation builds. -/
def Continuation.next (continuation : Continuation thread backend workers begun) (call : Call)
    (prebuilt : Option Prebuilt) : BuiltHandle :=
  call.built prebuilt backend workers continuation.building.registry_.next_scheduler

/-- Up to the closing section the slot is as the opening section left it. -/
theorem Continuation.finishing_slot (continuation : Continuation thread backend workers begun)
    (hreach : system.Reachable begun) (hpc : begun.threads thread = .building call prebuilt)
    {slot : ModelSlot} (hslot : begun.registry_.models_ call.model_name = some slot) :
    system.Reachable continuation.finishing ∧
      continuation.finishing.threads thread = .finishing call (continuation.next call prebuilt) ∧
      continuation.finishing.registry_.models_ call.model_name = some slot := by
  have hreach₁ := continuation.while_building.reachable hreach
  have hpc₁ : continuation.building.threads thread = .building call prebuilt := by
    rw [continuation.while_building.threads (by rw [hpc]; rfl), hpc]
  have hslot₁ := continuation.while_building.slot hreach (by rw [hpc]; rfl)
    (by rw [hpc]; rfl : (begun.threads thread).holds = some (call.model_name, call.kind)) hslot
  obtain ⟨after, hafter, hbuilt⟩ := State.step_thread hpc₁ continuation.builds
  cases hafter
  have hreach₂ : system.Reachable continuation.built := hreach₁.next continuation.builds
  have hpc₂ : continuation.built.threads thread = .finishing call (continuation.next call prebuilt) := by
    rw [hbuilt, State.move_threads_self]
    rfl
  have hslot₂ : continuation.built.registry_.models_ call.model_name = some slot := by
    rw [hbuilt]
    exact hslot₁
  refine ⟨continuation.while_finishing.reachable hreach₂, ?_, ?_⟩
  · rw [continuation.while_finishing.threads (by rw [hpc₂]; rfl), hpc₂]
  · exact continuation.while_finishing.slot hreach₂ (by rw [hpc₂]; rfl)
      (by rw [hpc₂]; rfl : (continuation.built.threads thread).holds = some (call.model_name, call.kind)) hslot₂

/-- After a closing section that refused the replacement the call retires
nothing and returns false. -/
theorem Continuation.returns_false (continuation : Continuation thread backend workers begun)
    (hpc : continuation.stored.threads thread = .notifying call (some false) none) :
    continuation.returned.threads thread = .returned (some call) (some false) ∧
      continuation.returned.registry_.retire_queue_ = continuation.retiring.registry_.retire_queue_ := by
  have hpc₁ : continuation.notifying.threads thread = .notifying call (some false) none := by
    rw [continuation.while_notifying.threads (by rw [hpc]; rfl), hpc]
  obtain ⟨after, hafter, hnotified⟩ := State.step_thread hpc₁ continuation.notifies
  cases hafter
  have hpc₂ : continuation.notified.threads thread = .retiring call (some false) none := by
    rw [hnotified, State.move_threads_self]
  have hpc₃ : continuation.retiring.threads thread = .retiring call (some false) none := by
    rw [continuation.while_retiring.threads (by rw [hpc₂]; rfl), hpc₂]
  obtain ⟨after, hafter, hreturned⟩ := State.step_thread hpc₃ continuation.retires
  cases hafter
  rw [hreturned]
  exact ⟨State.move_threads_self, rfl⟩

/-- A replacement that did not come up is refused: the slot is the one found,
less its flag and with the new error, and a slot that served nobody is put back
on Failed. -/
theorem Continuation.stored_slot (continuation : Continuation thread backend workers begun)
    (hreach : system.Reachable begun) (hpc : begun.threads thread = .building call prebuilt)
    (hkind : call.kind = .reloadPending) {slot : ModelSlot}
    (hslot : begun.registry_.models_ call.model_name = some slot)
    (hnext : (continuation.next call prebuilt).state ≠ .ready) :
    continuation.stored.registry_.models_ call.model_name =
        some (slot.kept (continuation.next call prebuilt).toModelHandle) ∧
      continuation.stored.threads thread = .notifying call (some false) none ∧
      continuation.stored.registry_.retire_queue_ = continuation.finishing.registry_.retire_queue_ := by
  obtain ⟨hreach₁, hpc₁, hslot₁⟩ := continuation.finishing_slot hreach hpc hslot
  obtain ⟨registry', pc', heffect, -, hstored⟩ := (inv_reachable hreach₁).effect continuation.stores
  rw [hpc₁] at heffect
  rw [hstored]
  cases heffect with
  | stay _ hnone => cases hnone
  | loaded => cases hkind
  | replaced _ _ _ _ _ _ hready => exact absurd hready hnext
  | rejected _ _ slot' _ hslot' =>
    rw [hslot₁, Option.some.injEq] at hslot'
    subst hslot'
    exact ⟨ModelRegistry.setSlot_eq_some.mpr (.inl ⟨rfl, rfl⟩), State.move_threads_self, rfl⟩

end Continuation

/-- The opening section of a reload or version switch of a slot that serves or
failed: it waits for a replacement in flight, or begins to build its own, except
that a switch to the version already active is answered true at once. -/
theorem State.Inv.opening {s : State} (hinv : s.Inv) {thread : Nat} {call : Call}
    {prebuilt : Option Prebuilt} (hpc : s.threads thread = .entering call prebuilt)
    (hkind : call.kind = .reloadPending) {slot : ModelSlot}
    (hslot : s.registry_.models_ call.model_name = some slot)
    (hstate : slot.handle.state = .ready ∨ slot.handle.state = .failed) :
    ∃ s', s.step (.thread thread .run) = some s' ∧
      s'.registry_.retire_queue_ = s.registry_.retire_queue_ ∧
      ((∃ model_name version config, call = .switchVersion model_name version config ∧
          versionFromSnapshot slot.active_snapshot = version ∧ s.registry_.ready model_name = true ∧
          s'.registry_ = s.registry_ ∧ s'.threads thread = .returned (some call) (some true)) ∨
        (slot.reload_pending = true ∧ s'.registry_ = s.registry_ ∧
          s'.threads thread = .parked call prebuilt .reloadPending) ∨
        (slot.inFlight = none ∧ s'.threads thread = .building call prebuilt ∧
          s'.registry_.models_ call.model_name = some slot.begun)) := by
  have hphase := hinv.phased _ slot hslot
  have hloading : slot.handle.state ≠ .loading := by
    rcases hstate with hstate | hstate <;> simp [hstate]
  have hstep : s.step (.thread thread .run) =
      some (s.move thread ((s.registry_.enter call).1, .entered call prebuilt (s.registry_.enter call).2)) := by
    simp only [State.step, hpc, Pc.step, Option.map_some]
  -- past the check for the active version both calls go the same way
  have hreload (hcall : s.registry_.enter call = s.registry_.enterReload call.model_name) :
      ∃ s', s.step (.thread thread .run) = some s' ∧
        s'.registry_.retire_queue_ = s.registry_.retire_queue_ ∧
        ((slot.reload_pending = true ∧ s'.registry_ = s.registry_ ∧
            s'.threads thread = .parked call prebuilt .reloadPending) ∨
          (slot.inFlight = none ∧ s'.threads thread = .building call prebuilt ∧
            s'.registry_.models_ call.model_name = some slot.begun)) := by
    refine ⟨_, hstep, ?_⟩
    rw [hcall]
    by_cases hpending : slot.reload_pending = true
    · have henter : s.registry_.enterReload call.model_name = (s.registry_, .wait .reloadPending) := by
        simp [ModelRegistry.enterReload, hslot, hloading, hpending]
      rw [henter]
      exact ⟨rfl, .inl ⟨hpending, rfl, State.move_threads_self⟩⟩
    · have hidle : slot.inFlight = none := by
        simp [ModelSlot.inFlight, hpending, hloading]
      obtain ⟨hok, -, -⟩ := ModelSlot.beginReload_spec hphase hidle
      have henter : s.registry_.enterReload call.model_name =
          ((s.registry_.stopAccepting (beginReload slot.handle).stopped).setSlot call.model_name slot.begun,
            .build) := by
        simp only [ModelRegistry.enterReload, hslot, hloading, decide_false, hpending, Bool.false_and,
          Bool.false_eq_true, ↓reduceIte, hok]
        rfl
      rw [henter]
      exact ⟨rfl, .inr ⟨hidle, State.move_threads_self, ModelRegistry.setSlot_eq_some.mpr (.inl ⟨rfl, rfl⟩)⟩⟩
  cases call with
  | loadModel => cases hkind
  | reload =>
    obtain ⟨s', hstep', hretired, hcases⟩ := hreload rfl
    exact ⟨s', hstep', hretired, .inr hcases⟩
  | switchVersion model_name version config =>
    simp only [Call.model_name] at hslot
    by_cases hactive : versionFromSnapshot slot.active_snapshot = version ∧
        slot.active_snapshot.any s.registry_.snapshotReady = true
    · have henter : s.registry_.enter (.switchVersion model_name version config) =
          (s.registry_, .answer true) := by
        simp [ModelRegistry.enter, ModelRegistry.enterSwitch, hslot, hactive.1, hactive.2]
      refine ⟨_, hstep, ?_⟩
      rw [henter]
      refine ⟨rfl, .inl ⟨model_name, version, config, rfl, hactive.1, ?_, rfl, State.move_threads_self⟩⟩
      simpa [ModelRegistry.ready, ModelRegistry.findHandle, hslot] using hactive.2
    · have henter : s.registry_.enter (.switchVersion model_name version config) =
          s.registry_.enterReload model_name := by
        simp only [ModelRegistry.enter, ModelRegistry.enterSwitch, hslot]
        rw [if_neg (by simpa using hactive)]
      obtain ⟨s', hstep', hretired, hcases⟩ := hreload henter
      exact ⟨s', hstep', hretired, .inr hcases⟩

/-- The slot with another error recorded, and nothing else changed. -/
def ModelSlot.withError (slot : ModelSlot) (load_error : Option String) : ModelSlot :=
  { slot with
    handle := { slot.handle with load_error }
    active_snapshot := slot.active_snapshot.map fun snapshot => { snapshot with load_error } }

/-- Refusing a replacement takes the opening section's flag back and records
the error; a slot that had failed is on Failed again. -/
theorem ModelSlot.begun_kept {slot : ModelSlot} (hphase : slot.Phase) (hidle : slot.inFlight = none)
    (next : BuiltHandle) (hnext : next.state ≠ .ready) :
    (slot.handle.state = .ready → slot.begun.kept next.toModelHandle = slot.withError next.load_error) ∧
      (slot.handle.state = .failed →
        (slot.begun.kept next.toModelHandle).handle.state = .failed ∧
        (slot.begun.kept next.toModelHandle).handle.scheduler = none ∧
        ∃ message, next.load_error = some message ∧
          (slot.begun.kept next.toModelHandle).handle.load_error = some message) := by
  obtain ⟨hpending, -⟩ := hphase.idle_cases hidle
  obtain ⟨-, -, hhandle⟩ := ModelSlot.beginReload_spec hphase hidle
  obtain ⟨message, herror⟩ : ∃ message, next.load_error = some message := by
    cases next.settled with
    | ready _ hready => exact absurd hready hnext
    | failed message _ _ herror => exact ⟨message, herror⟩
  constructor
  · intro hstate
    obtain ⟨-, -, hpublished⟩ := hphase.of_ready hstate
    have hsame : (beginReload slot.handle).handle = slot.handle := by
      obtain ⟨-, hsame, -⟩ | ⟨hother, -⟩ := hhandle
      · exact hsame
      · exact absurd hstate hother
    have hrejected : slot.handle.rejected next.toModelHandle =
        { slot.handle with load_error := next.load_error } := by
      simp [ModelHandle.rejected, hstate]
    have hsnapshot : slot.active_snapshot = some (.fromHandle slot.handle) := hpublished
    simp only [kept, begun, hsame, hrejected, publishSnapshot, withError, hsnapshot, Option.map_some,
      InferSnapshot.fromHandle, hpending]
  · intro hstate
    have hunloaded : (beginReload slot.handle).handle.state = .unloaded ∧
        (beginReload slot.handle).handle.scheduler = none := by
      obtain ⟨hother, -⟩ | ⟨-, hunloaded, hscheduler, -⟩ := hhandle
      · simp [hstate] at hother
      · exact ⟨hunloaded, hscheduler⟩
    refine ⟨?_, ?_, message, herror, ?_⟩
    · simp [kept, publishSnapshot, ModelHandle.rejected, begun, hunloaded.1]
    · exact hunloaded.2
    · exact herror

/-- A failed reload or version switch is atomic, whatever runs beside it. A
switch to the version already active and Ready is answered true without a build.
Otherwise the call waits its turn and builds, and when its factory did not give
a Ready replacement it returns false having retired nothing; a Ready slot is then
as it was found but for `load_error`, in the handle and in the snapshot published
from it, and a Failed slot is Failed again with the new error and no scheduler. -/
theorem failed_replacement_atomic {s : State} (hreach : system.Reachable s) {thread : Nat} {call : Call}
    {prebuilt : Option Prebuilt} (hpc : s.threads thread = .entering call prebuilt)
    (hkind : call.kind = .reloadPending) {slot : ModelSlot}
    (hslot : s.registry_.models_ call.model_name = some slot)
    (hstate : slot.handle.state = .ready ∨ slot.handle.state = .failed) :
    ∃ s', s.step (.thread thread .run) = some s' ∧
      s'.registry_.retire_queue_ = s.registry_.retire_queue_ ∧
      ((∃ model_name version config, call = .switchVersion model_name version config ∧
          versionFromSnapshot slot.active_snapshot = version ∧ s.registry_.ready model_name = true ∧
          s'.registry_ = s.registry_ ∧ s'.threads thread = .returned (some call) (some true)) ∨
        (slot.reload_pending = true ∧ s'.registry_ = s.registry_ ∧
          s'.threads thread = .parked call prebuilt .reloadPending) ∨
        (s'.threads thread = .building call prebuilt ∧
          ∀ backend workers (continuation : Continuation thread backend workers s'),
            (continuation.next call prebuilt).state ≠ .ready →
            continuation.returned.threads thread = .returned (some call) (some false) ∧
            continuation.stored.registry_.retire_queue_ = continuation.finishing.registry_.retire_queue_ ∧
            continuation.returned.registry_.retire_queue_ = continuation.retiring.registry_.retire_queue_ ∧
            ∃ slot', continuation.stored.registry_.models_ call.model_name = some slot' ∧
              (slot.handle.state = .ready →
                slot' = slot.withError (continuation.next call prebuilt).load_error) ∧
              (slot.handle.state = .failed → slot'.handle.state = .failed ∧ slot'.handle.scheduler = none ∧
                ∃ message, (continuation.next call prebuilt).load_error = some message ∧
                  slot'.handle.load_error = some message))) := by
  have hinv := inv_reachable hreach
  obtain ⟨s', hstep, hretired, hactive | hwaits | ⟨hidle, hbuilding, hbegun⟩⟩ :=
    hinv.opening hpc hkind hslot hstate
  · exact ⟨s', hstep, hretired, .inl hactive⟩
  · exact ⟨s', hstep, hretired, .inr (.inl hwaits)⟩
  · refine ⟨s', hstep, hretired, .inr (.inr ⟨hbuilding, ?_⟩)⟩
    intro backend workers continuation hnext
    obtain ⟨hstored, hnotifying, hkept⟩ :=
      continuation.stored_slot (hreach.next hstep) hbuilding hkind hbegun hnext
    obtain ⟨hreturned, hnothing⟩ := continuation.returns_false hnotifying
    obtain ⟨hready, hfailed⟩ := ModelSlot.begun_kept (hinv.phased _ slot hslot) hidle _ hnext
    exact ⟨hreturned, hkept, hnothing, _, hstored, hready, hfailed⟩

/-- A model serving version 1, and a thread about to reload it. -/
def reloadBegins : List Event :=
  undisturbed 0 (.loadModel {}) (.serving { name := "demo", versions := ["1"] }) ++
    [.thread 1 (.start (.build (.reload "demo" {}) true))]

/-- The state after that many of the reload's own steps, with a backend that is
not there. -/
def reloadRefused (steps : Nat) : State :=
  State.after {} (reloadBegins ++
    ([.run, .build (.unavailable "no such backend") none, .run, .run, .run].take steps).map (.thread 1))

def refusedReload : Continuation 1 (.unavailable "no such backend") none (reloadRefused 1) where
  building := reloadRefused 1
  built := reloadRefused 2
  finishing := reloadRefused 2
  stored := reloadRefused 3
  notifying := reloadRefused 3
  notified := reloadRefused 4
  retiring := reloadRefused 4
  returned := reloadRefused 5
  while_building := .refl
  builds := rfl
  while_finishing := .refl
  stores := rfl
  while_notifying := .refl
  notifies := rfl
  while_retiring := .refl
  retires := rfl

/-- A reload that its backend refuses. -/
theorem failed_replacement_atomic_refusedReload :
    refusedReload.returned.threads 1 = .returned (some (.reload "demo" {})) (some false) ∧
      ∃ slot slot', (reloadRefused 0).registry_.models_ "demo" = some slot ∧
        refusedReload.stored.registry_.models_ "demo" = some slot' ∧
        slot' = slot.withError (some "no such backend") := by
  have hreach : system.Reachable (reloadRefused 0) := @System.reachable_of_replay _ _ _ _ _ reloadBegins rfl
  obtain ⟨s', hstep, -, ⟨_, _, _, hcall, -⟩ | ⟨hpending, -⟩ | ⟨-, hrest⟩⟩ :=
    @failed_replacement_atomic _ hreach 1 (.reload "demo" {}) none rfl rfl _ rfl (.inl rfl)
  · cases hcall
  · cases hpending
  · cases hstep
    obtain ⟨hreturned, -, -, slot', hslot', hready, -⟩ := hrest _ _ refusedReload (by decide)
    exact ⟨hreturned, _, slot', rfl, hslot', hready rfl⟩

/-- A switch to the version already active returns true although its factory
has no executor to give. -/
theorem switch_to_active_version_returns_true :
    ∃ s s' slot prebuilt config, system.Reachable s ∧
      s.registry_.models_ "demo" = some slot ∧ slot.handle.state = .ready ∧
      s.threads 1 = .entering (.switchVersion "demo" "1" config) (some prebuilt) ∧
      (∀ backend workers id,
        ((Call.switchVersion "demo" "1" config).built (some prebuilt) backend workers id).state ≠ .ready) ∧
      s.step (.thread 1 .run) = some s' ∧
      s'.threads 1 = .returned (some (.switchVersion "demo" "1" config)) (some true) := by
  let config : RuntimeConfig := { backend := "ensemble", max_batch_size := 8 }
  let events : List Event := undisturbed 0 (.loadModel {}) (.serving { name := "demo", versions := ["1"] }) ++
    [.thread 1 (.start (.build (.switchVersion "demo" "1" config) false)),
      .thread 1 (.read (.error "unread"))]
  refine ⟨State.after {} events, State.after {} (events ++ [.thread 1 .run]), _, _, config,
    @System.reachable_of_replay _ _ _ _ _ events rfl, rfl, rfl, rfl, ?_, rfl, rfl⟩
  intro backend workers id
  have hfailed : ((Call.switchVersion "demo" "1" config).built
      (some (Prebuilt.mk [] ((batchingError config).getD ""))) backend workers id).state = .failed := rfl
  intro hready
  exact absurd (hfailed.symm.trans hready) (by decide)

end neuriplo.registry
