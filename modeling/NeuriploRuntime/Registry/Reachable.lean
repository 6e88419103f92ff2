import NeuriploRuntime.Registry.Preservation

open neuriplo.config neuriplo.model neuriplo.model.ModelLifecycle neuriplo.pipeline neuriplo.tensor transition

namespace neuriplo.registry

namespace State

/-- The registry starts within the invariant. -/
theorem inv_start : Inv {} where
  phased model_name slot hslot := by cases hslot
  exclusive := {
    taken := fun _ _ _ hclaims => by cases hclaims
    unique := fun _ _ _ _ _ hclaims => by cases hclaims
    held := fun _ _ hflight => by cases hflight }
  custody := {
    unshared := fun place _ _ hheld => by cases place <;> cases hheld
    held_lt := fun place _ hheld => by cases place <;> cases hheld
    gone_lt := fun _ hgone => by
      cases hgone with
      | stopped hmem => cases hmem
      | retired hmem => cases hmem
      | retiring _ _ _ hretires => cases hretires
    live := fun place _ hheld => by cases place <;> cases hheld }
  stopped _ _ _ _ hslot := by cases hslot

/-- The inversion of a thread's step, in a state that keeps the invariant. -/
theorem Inv.effect {s s' : State} (hinv : s.Inv) {thread : Nat} {action : Action}
    (hstep : s.step (.thread thread action) = some s') :
    ∃ registry' pc', Effect s.registry_ (s.threads thread) registry' pc' ∧
      (s.threads thread).step s.registry_ action = some (registry', pc') ∧
      s' = s.move thread (registry', pc') := by
  obtain ⟨⟨registry', pc'⟩, hafter, rfl⟩ := Option.map_eq_some_iff.mp hstep
  refine ⟨registry', pc', ?_, hafter, rfl⟩
  refine Pc.step_effect hinv.phased ?_ hafter
  intro model_name wait hholds
  exact hinv.exclusive.taken thread model_name wait hholds

/-- The retired schedulers' own tasks raise flags of schedulers already
displaced. -/
theorem Inv.drainTask {s : State} (hinv : s.Inv) {scheduler : Nat}
    (hretired : scheduler ∈ s.registry_.retire_queue_) :
    Inv { s with registry_ := { s.registry_ with draining := scheduler :: s.registry_.draining } } where
  phased := hinv.phased
  exclusive := hinv.exclusive
  custody := by
    refine hinv.custody.shrink (fun _ _ hheld => hheld) ?_
    intro other hdisplaced
    refine .inl ?_
    cases hdisplaced with
    | stopped hmem =>
      obtain rfl | hmem := List.mem_cons.mp hmem
      · exact .retired hretired
      · exact .stopped hmem
    | retired hmem => exact .retired hmem
    | retiring thread snapshot held hretires hheld hid => exact .retiring thread snapshot held hretires hheld hid
  stopped model_name slot snapshot held hslot hstate hsnapshot hheld :=
    List.mem_cons_of_mem _ (hinv.stopped model_name slot snapshot held hslot hstate hsnapshot hheld)

/-- A new catalog leaves the invariant alone. -/
theorem Inv.setRepositoryCatalog {s : State} (hinv : s.Inv) (catalog_ : String → Option RuntimeConfig) :
    Inv { s with registry_ := { s.registry_ with catalog_ } } where
  phased := hinv.phased
  exclusive := hinv.exclusive
  custody := by
    refine hinv.custody.shrink (fun _ _ hheld => hheld) ?_
    intro other hdisplaced
    refine .inl ?_
    cases hdisplaced with
    | stopped hmem => exact .stopped hmem
    | retired hmem => exact .retired hmem
    | retiring thread snapshot held hretires hheld hid => exact .retiring thread snapshot held hretires hheld hid
  stopped := hinv.stopped

/-- Every step keeps the invariant. -/
theorem Inv.step {s s' : State} (hinv : s.Inv) {event : Event} (hstep : s.step event = some s') :
    s'.Inv := by
  cases event with
  | thread thread action =>
    obtain ⟨registry', pc', heffect, -, rfl⟩ := hinv.effect hstep
    exact {
      phased := heffect.phased hinv.phased
      exclusive := heffect.exclusive hinv.phased hinv.exclusive
      custody := heffect.custody hinv
      stopped := heffect.stopped hinv }
  | drainTask scheduler =>
    obtain ⟨hretired, rfl⟩ := State.step_drainTask hstep
    exact hinv.drainTask hretired
  | setRepositoryCatalog configs =>
    cases hstep
    exact hinv.setRepositoryCatalog _

end State

/-- Every state that any number of threads can bring the registry to keeps the
invariant. -/
theorem inv_reachable {s : State} (hreach : system.Reachable s) : s.Inv := by
  refine hreach.invariant ?_ ?_
  · rintro s rfl
    exact State.inv_start
  · intro s event s' _ hinv hstep
    exact hinv.step hstep

/-- The thread has a build of the model in flight. -/
def State.Building (s : State) (thread : Nat) (model_name : String) : Prop :=
  ∃ wait, (s.threads thread).holds = some (model_name, wait)

/-- A slot that some build is to publish into. -/
def ModelSlot.Flagged (slot : ModelSlot) : Prop :=
  slot.handle.state = .loading ∨ slot.reload_pending = true

/-- A slot is flagged exactly while something is in flight for it. -/
theorem ModelSlot.flagged_iff {slot : ModelSlot} : slot.Flagged ↔ ∃ wait, slot.inFlight = some wait := by
  unfold Flagged inFlight
  by_cases hpending : slot.reload_pending = true
  · simp [hpending]
  · by_cases hstate : slot.handle.state = .loading
    · simp [hstate, hpending]
    · simp [hpending, hstate]

structure SlotInvariant (s : State) (model_name : String) (slot : ModelSlot) : Prop where
  loading : slot.handle.state = .loading → slot.reload_pending = false ∧ slot.handle.scheduler = none
  pending : slot.reload_pending = true → slot.handle.state = .ready ∨ slot.handle.state = .unloaded
  building : slot.Flagged ↔ ∃! thread, s.Building thread model_name
  ready : slot.handle.state = .ready → ∃ scheduler, slot.handle.scheduler = some scheduler ∧
    scheduler.id ∉ s.registry_.draining ∧ scheduler.id ∉ s.registry_.retire_queue_ ∧
    s.registry_.handleReady slot.handle = true
  failed : slot.handle.state = .failed → slot.handle.scheduler = none ∧
    ∃ message, slot.handle.load_error = some message

/-- Whoever builds does so for a slot that is flagged. -/
theorem State.Inv.building_slot {s : State} (hinv : s.Inv) {thread : Nat} {model_name : String}
    (hbuilding : s.Building thread model_name) :
    ∃ slot, s.registry_.models_ model_name = some slot ∧ slot.Flagged := by
  obtain ⟨wait, hholds⟩ := hbuilding
  obtain ⟨slot, hslot, hflight⟩ :=
    ModelRegistry.slot_of_inFlight (hinv.exclusive.taken thread model_name wait hholds)
  exact ⟨slot, hslot, ModelSlot.flagged_iff.mpr ⟨wait, hflight⟩⟩

/-- A Ready slot's scheduler was never displaced. -/
theorem State.Inv.ready_slot {s : State} (hinv : s.Inv) {model_name : String} {slot : ModelSlot}
    (hslot : s.registry_.models_ model_name = some slot) (hstate : slot.handle.state = .ready) :
    ∃ scheduler, slot.handle.scheduler = some scheduler ∧ ¬ s.Displaced scheduler.id ∧
      s.registry_.handleReady slot.handle = true ∧ slot.Published := by
  obtain ⟨scheduler, hscheduler, hpublished⟩ := (hinv.phased _ slot hslot).of_ready hstate
  have hserves : s.serves (.slot model_name) = some scheduler.id := by
    simp [State.serves, hslot, ModelSlot.serves, hstate, hscheduler]
  have hlive : ¬ s.Displaced scheduler.id := hinv.custody.live _ _ hserves
  refine ⟨scheduler, hscheduler, hlive, ?_, hpublished⟩
  have hdraining : scheduler.id ∉ s.registry_.draining := fun hmem => hlive (.stopped hmem)
  simp [ModelRegistry.handleReady, ModelRegistry.schedulerReady, hstate, hscheduler, hdraining]

/-- The invariant says of each slot what the slots' own says. -/
theorem State.Inv.slotInvariant {s : State} (hinv : s.Inv) {model_name : String} {slot : ModelSlot}
    (hslot : s.registry_.models_ model_name = some slot) : SlotInvariant s model_name slot where
  loading hstate := by cases hinv.phased _ slot hslot <;> simp_all
  pending hpending := (hinv.phased _ slot hslot).pending_state hpending
  building := by
    rw [ModelSlot.flagged_iff]
    constructor
    · rintro ⟨wait, hflight⟩
      rw [← ModelRegistry.inFlight_of_slot hslot] at hflight
      obtain ⟨thread, hholds⟩ := hinv.exclusive.held model_name wait hflight
      refine ⟨thread, ⟨wait, hholds⟩, ?_⟩
      rintro other ⟨wait', hother⟩
      exact hinv.exclusive.unique other thread model_name wait' wait hother hholds
    · rintro ⟨thread, ⟨wait, hholds⟩, -⟩
      refine ⟨wait, ?_⟩
      rw [← ModelRegistry.inFlight_of_slot hslot]
      exact hinv.exclusive.taken thread model_name wait hholds
  ready hstate := by
    obtain ⟨scheduler, hscheduler, hlive, hready, -⟩ := hinv.ready_slot hslot hstate
    exact ⟨scheduler, hscheduler, fun hmem => hlive (.stopped hmem), fun hmem => hlive (.retired hmem), hready⟩
  failed hstate := by cases hinv.phased _ slot hslot <;> simp_all

end neuriplo.registry
