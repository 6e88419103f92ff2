import NeuriploRuntime.Registry.Reachable

open neuriplo.config neuriplo.model neuriplo.model.ModelLifecycle neuriplo.pipeline neuriplo.tensor transition

namespace neuriplo.registry

section Slot

variable {registry registry' : ModelRegistry} {pc pc' : Pc} {model_name : String}

/-- What becomes of a Ready slot in a step: it stays Ready with its scheduler,
or with a replacement's while the thread goes on to retire what it published, or
the thread was at the section that drains it. -/
inductive ModelSlot.Continues (slot : ModelSlot) (model_name : String) (registry' : ModelRegistry) (pc pc' : Pc) : Prop
  | same (slot' : ModelSlot) (hslot' : registry'.models_ model_name = some slot')
      (hstate : slot'.handle.state = .ready) (hscheduler : slot'.handle.scheduler = slot.handle.scheduler)
  | replaced (slot' : ModelSlot) (hslot' : registry'.models_ model_name = some slot')
      (hstate : slot'.handle.state = .ready) (hretires : pc'.retires = slot.active_snapshot)
  | drained (whole : Bool) (hpc : pc = .draining model_name whole)
      (hstopped : ∀ scheduler, slot.handle.scheduler = some scheduler → scheduler.id ∈ registry'.draining)

theorem Effect.ready_slot (hphased : registry.Phased) (heffect : Effect registry pc registry' pc')
    {slot : ModelSlot} (hslot : registry.models_ model_name = some slot) (hstate : slot.handle.state = .ready) :
    slot.Continues model_name registry' pc pc' := by
  have hset {registry₀ : ModelRegistry} (hmodels : registry₀.models_ = registry.models_) {name : String}
      {slot' : ModelSlot} (hkept : name = model_name →
        slot'.handle.state = .ready ∧ slot'.handle.scheduler = slot.handle.scheduler) :
      slot.Continues model_name (registry₀.setSlot name slot') pc pc' := by
    by_cases hname : model_name = name
    · obtain ⟨hready, hscheduler⟩ := hkept hname.symm
      exact .same slot' (ModelRegistry.setSlot_eq_some.mpr (.inl ⟨hname, rfl⟩)) hready hscheduler
    · exact .same slot (ModelRegistry.setSlot_eq_some.mpr (.inr ⟨hname, by rw [hmodels, hslot]⟩)) hstate rfl
  have hfound {name : String} {other : ModelSlot} (hother : registry.models_ name = some other)
      (hname : name = model_name) : other = slot := by
    subst hname
    rw [hslot, Option.some.injEq] at hother
    exact hother.symm
  cases heffect with
  | stay => exact .same slot hslot hstate rfl
  | built => exact .same slot hslot hstate rfl
  | retired => exact .same slot hslot hstate rfl
  | reserved config prebuilt hnone =>
    refine hset rfl ?_
    rintro rfl
    rw [hnone] at hslot
    cases hslot
  | begun call prebuilt other hkind hother hidle =>
    apply hset
    · rfl
    · intro hname
      obtain rfl := hfound hother hname
      obtain ⟨-, -, ⟨-, hhandle, -⟩ | ⟨hnot, -⟩⟩ := ModelSlot.beginReload_spec (hphased _ other hother) hidle
      · simp only [ModelSlot.begun, hhandle, hstate, and_self]
      · exact absurd hstate hnot
  | loaded config next other hother hloading =>
    refine hset rfl fun hname => ?_
    rw [hfound hother hname, hstate] at hloading
    cases hloading
  | replaced call next other hkind hother hpending hnext =>
    by_cases hname : call.model_name = model_name
    · obtain rfl := hfound hother hname
      exact .replaced _ (ModelRegistry.setSlot_eq_some.mpr (.inl ⟨hname.symm, rfl⟩)) hnext rfl
    · exact hset rfl fun hsame => absurd hsame hname
  | rejected call next other hkind hother =>
    refine hset rfl fun hname => ?_
    obtain rfl := hfound hother hname
    simp [ModelSlot.kept, ModelSlot.publishSnapshot, ModelHandle.rejected, hstate]
  | resolved call other hother =>
    refine hset rfl fun hname => ?_
    obtain rfl := hfound hother hname
    simp [ModelSlot.resolved, ModelSlot.publishSnapshot, hstate]
  | erased name other hother hfailed =>
    refine .same slot (ModelRegistry.eraseSlot_eq_some.mpr ⟨?_, hslot⟩) hstate rfl
    intro hname
    rw [hfound hother hname.symm, hstate] at hfailed
    cases hfailed
  | drained name whole other scheduler hother hpending hserving hscheduler =>
    by_cases hname : name = model_name
    · obtain rfl := hfound hother hname
      refine .drained whole (by rw [hname]) ?_
      intro held hheld
      exact ModelRegistry.mem_stopAccepting.mpr (.inl ⟨held, hscheduler ▸ hheld, rfl⟩)
    · apply hset
      · rfl
      · exact fun hsame => absurd hsame hname
  | completed name whole other scheduler hother hpending hunloading =>
    refine .same slot (ModelRegistry.eraseSlot_eq_some.mpr ⟨?_, hslot⟩) hstate rfl
    intro hname
    rw [hfound hother hname.symm, hstate] at hunloading
    cases hunloading

/-- Only the publication of a build that came up makes a slot Ready. -/
theorem Effect.makes_ready (hphased : registry.Phased) (heffect : Effect registry pc registry' pc')
    {slot' : ModelSlot} (hslot' : registry'.models_ model_name = some slot') (hstate : slot'.handle.state = .ready) :
    (∃ slot, registry.models_ model_name = some slot ∧ slot.handle.state = .ready) ∨
      ∃ call next, pc = .finishing call next ∧ call.model_name = model_name ∧ next.state = .ready := by
  have hold (hslot : registry.models_ model_name = some slot') :
      ∃ slot, registry.models_ model_name = some slot ∧ slot.handle.state = .ready := ⟨slot', hslot, hstate⟩
  cases heffect with
  | stay => exact .inl (hold hslot')
  | built => exact .inl (hold hslot')
  | retired => exact .inl (hold hslot')
  | reserved config =>
    obtain ⟨-, rfl⟩ | ⟨-, hslot⟩ := ModelRegistry.setSlot_eq_some.mp hslot'
    · cases hstate
    · exact .inl (hold hslot)
  | begun call prebuilt slot hkind hslot hidle =>
    obtain ⟨rfl, rfl⟩ | ⟨-, hslot⟩ := ModelRegistry.setSlot_eq_some.mp hslot'
    · refine .inl ⟨slot, hslot, ?_⟩
      obtain ⟨-, -, ⟨hready, -⟩ | ⟨-, hunloaded, -⟩⟩ := ModelSlot.beginReload_spec (hphased _ slot hslot) hidle
      · exact hready
      · rw [ModelSlot.begun, hunloaded] at hstate
        cases hstate
    · exact .inl (hold hslot)
  | loaded config next slot hslot hloading =>
    obtain ⟨rfl, rfl⟩ | ⟨-, hslot⟩ := ModelRegistry.setSlot_eq_some.mp hslot'
    · exact .inr ⟨_, next, rfl, rfl, hstate⟩
    · exact .inl (hold hslot)
  | replaced call next slot hkind hslot hpending hnext =>
    obtain ⟨rfl, rfl⟩ | ⟨-, hslot⟩ := ModelRegistry.setSlot_eq_some.mp hslot'
    · exact .inr ⟨call, next, rfl, rfl, hnext⟩
    · exact .inl (hold hslot)
  | rejected call next slot hkind hslot =>
    obtain ⟨rfl, rfl⟩ | ⟨-, hslot⟩ := ModelRegistry.setSlot_eq_some.mp hslot'
    · refine .inl ⟨slot, hslot, ?_⟩
      simp only [ModelSlot.kept, ModelSlot.publishSnapshot, ModelHandle.rejected] at hstate
      split at hstate
      · cases hstate
      · exact hstate
    · exact .inl (hold hslot)
  | resolved call slot hslot =>
    obtain ⟨rfl, rfl⟩ | ⟨-, hslot⟩ := ModelRegistry.setSlot_eq_some.mp hslot'
    · refine .inl ⟨slot, hslot, ?_⟩
      simp only [ModelSlot.resolved, ModelSlot.publishSnapshot] at hstate
      split at hstate
      · cases hstate
      · exact hstate
    · exact .inl (hold hslot)
  | erased => exact .inl (hold (ModelRegistry.eraseSlot_eq_some.mp hslot').2)
  | drained name whole slot scheduler hslot =>
    obtain ⟨-, rfl⟩ | ⟨-, hslot⟩ := ModelRegistry.setSlot_eq_some.mp hslot'
    · cases hstate
    · exact .inl (hold hslot)
  | completed => exact .inl (hold (ModelRegistry.eraseSlot_eq_some.mp hslot').2)

end Slot

section Scheduler

variable {s : State} {thread : Nat} {registry' : ModelRegistry} {pc' : Pc}

/-- What was displaced stays displaced: a snapshot about to be retired gets
there. -/
theorem Effect.displaced (heffect : Effect s.registry_ (s.threads thread) registry' pc') {scheduler : Nat}
    (hdisplaced : s.Displaced scheduler) : (s.move thread (registry', pc')).Displaced scheduler := by
  cases hdisplaced with
  | stopped hmem => exact .stopped (heffect.draining hmem)
  | retired hmem =>
    refine .retired ?_
    generalize s.threads thread = pc at heffect
    cases heffect with
    | retired => exact List.mem_append_right _ hmem
    | completed => exact List.mem_append_right _ hmem
    | _ => exact hmem
  | retiring other snapshot held hretires hheld hid =>
    by_cases hthread : other = thread
    · subst hthread
      have hstays (hretires' : pc'.retires = some snapshot) :
          (s.move other (registry', pc')).Displaced scheduler :=
        .retiring other snapshot held (by rw [State.move_threads_self, hretires']) hheld hid
      generalize s.threads other = pc at heffect hretires
      cases heffect with
      | stay _ _ _ hsame => exact hstays (hsame.trans hretires)
      | retired call answer old_snapshot =>
        cases hretires
        exact .retired (ModelRegistry.mem_retire.mpr (.inl ⟨held, hheld, hid⟩))
      | _ => cases hretires
    · refine .retiring other snapshot held ?_ hheld hid
      rw [State.move_retires_ne hthread, hretires]

/-- A slot serves a scheduler exactly when it is ready and holds it. -/
theorem State.serves_slot_iff {model_name : String} {scheduler : Nat} :
    s.serves (.slot model_name) = some scheduler ↔
      ∃ slot held, s.registry_.models_ model_name = some slot ∧ slot.handle.state = .ready ∧
        slot.handle.scheduler = some held ∧ held.id = scheduler := by
  simp only [serves]
  cases s.registry_.models_ model_name with
  | none => simp
  | some slot => simp [ModelSlot.serves]

/-- The scheduler a slot serves goes on serving there, or is displaced. -/
theorem Effect.serves_slot (hinv : s.Inv) (heffect : Effect s.registry_ (s.threads thread) registry' pc')
    {model_name : String} {scheduler : Nat} (hserves : s.serves (.slot model_name) = some scheduler) :
    (s.move thread (registry', pc')).serves (.slot model_name) = some scheduler ∨
      (s.move thread (registry', pc')).Displaced scheduler := by
  obtain ⟨slot, held, hslot, hstate, hheld, rfl⟩ := State.serves_slot_iff.mp hserves
  obtain ⟨-, -, -, -, hpublished⟩ := hinv.ready_slot hslot hstate
  cases heffect.ready_slot hinv.phased hslot hstate with
  | same slot' hslot' hstate' hscheduler =>
    exact .inl (State.serves_slot_iff.mpr ⟨slot', held, hslot', hstate', hscheduler.trans hheld, rfl⟩)
  | replaced slot' hslot' hstate' hretires =>
    rw [hpublished] at hretires
    refine .inr (.retiring thread (.fromHandle slot.handle) held ?_ hheld rfl)
    rw [State.move_threads_self, hretires]
  | drained whole hpc hstopped => exact .inr (.stopped (hstopped held hheld))

/-- Only draining a Ready slot tells a scheduler to stop that was not told
before. -/
theorem Effect.newly_stopped (hinv : s.Inv) (heffect : Effect s.registry_ (s.threads thread) registry' pc')
    {scheduler : Nat} (hstopped : scheduler ∈ registry'.draining) :
    scheduler ∈ s.registry_.draining ∨
      ∃ model_name slot', s.serves (.slot model_name) = some scheduler ∧
        registry'.models_ model_name = some slot' ∧ slot'.handle.state = .unloading := by
  have hslot {model_name : String} {slot : ModelSlot} {held : Scheduler}
      (hslot : s.registry_.models_ model_name = some slot) (hheld : slot.handle.scheduler = some held)
      (hstate : slot.handle.state ≠ .ready) : held.id ∈ s.registry_.draining := by
    obtain hserves | hstopped := hinv.handle_scheduler hslot hheld
    · obtain ⟨other, -, hother, hready, -⟩ := State.serves_slot_iff.mp hserves
      rw [hslot, Option.some.injEq] at hother
      exact absurd (hother ▸ hready) hstate
    · exact hstopped
  generalize s.threads thread = pc at heffect
  cases heffect with
  | begun call prebuilt slot hkind hfound hidle =>
    obtain ⟨held, hbegun, rfl⟩ | hmem := ModelRegistry.mem_stopAccepting.mp hstopped
    · obtain ⟨-, -, ⟨-, -, hnone⟩ | ⟨hstate, -, -, hsame⟩⟩ :=
        ModelSlot.beginReload_spec (hinv.phased _ slot hfound) hidle
      · rw [hnone] at hbegun
        cases hbegun
      · exact .inl (hslot hfound (hsame.symm.trans hbegun) hstate)
    · exact .inl hmem
  | drained model_name whole slot held hfound hpending hstate hheld =>
    obtain ⟨_, hsame, rfl⟩ | hmem := ModelRegistry.mem_stopAccepting.mp hstopped
    · cases hsame
      obtain hready | hunloading := hstate
      · refine .inr ⟨model_name, slot.drained, ?_, ModelRegistry.setSlot_eq_some.mpr (.inl ⟨rfl, rfl⟩), rfl⟩
        exact State.serves_slot_iff.mpr ⟨slot, held, hfound, hready, hheld, rfl⟩
      · exact .inl (hslot hfound hheld (by simp [hunloading]))
    · exact .inl hmem
  | completed model_name whole slot held hfound hpending hstate hheld =>
    obtain ⟨_, hsame, rfl⟩ | hmem := ModelRegistry.mem_stopAccepting.mp hstopped
    · cases hsame
      exact .inl (hslot hfound hheld (by simp [hstate]))
    · exact .inl hmem
  | _ => exact .inl hstopped

end Scheduler

section Step

variable {s s' : State} {event : Event}

/-- A build of the model came up and is about to be published. -/
def State.Publishes (s : State) (event : Event) (model_name : String) : Prop :=
  ∃ thread action call next, event = .thread thread action ∧ s.threads thread = .finishing call next ∧
    call.model_name = model_name ∧ next.state = .ready

/-- A slot is ready when it was before, or when the step publishes it. -/
theorem State.Inv.step_makes_ready (hinv : s.Inv) (hstep : s.step event = some s') {model_name : String}
    {slot' : ModelSlot} (hslot' : s'.registry_.models_ model_name = some slot')
    (hstate : slot'.handle.state = .ready) :
    (∃ slot, s.registry_.models_ model_name = some slot ∧ slot.handle.state = .ready) ∨
      s.Publishes event model_name := by
  cases event with
  | thread thread action =>
    obtain ⟨registry', pc', heffect, -, rfl⟩ := hinv.effect hstep
    obtain hready | ⟨call, next, hpc, hname, hnext⟩ := heffect.makes_ready hinv.phased hslot' hstate
    · exact .inl hready
    · exact .inr ⟨thread, action, call, next, rfl, hpc, hname, hnext⟩
  | drainTask scheduler =>
    obtain ⟨-, rfl⟩ := State.step_drainTask hstep
    exact .inl ⟨slot', hslot', hstate⟩
  | setRepositoryCatalog configs =>
    cases hstep
    exact .inl ⟨slot', hslot', hstate⟩

/-- A scheduler that serves goes on doing so, or is displaced. -/
theorem State.Inv.step_serves (hinv : s.Inv) (hstep : s.step event = some s') {model_name : String}
    {scheduler : Nat} (hheld : s.serves (.slot model_name) = some scheduler ∨ s.Displaced scheduler) :
    s'.serves (.slot model_name) = some scheduler ∨ s'.Displaced scheduler := by
  cases event with
  | thread thread action =>
    obtain ⟨registry', pc', heffect, -, rfl⟩ := hinv.effect hstep
    obtain hserves | hdisplaced := hheld
    · exact heffect.serves_slot hinv hserves
    · exact .inr (heffect.displaced hdisplaced)
  | drainTask other =>
    obtain ⟨-, rfl⟩ := State.step_drainTask hstep
    refine hheld.imp_right fun hdisplaced => ?_
    cases hdisplaced with
    | stopped hmem => exact .stopped (List.mem_cons_of_mem _ hmem)
    | retired hmem => exact .retired hmem
    | retiring thread snapshot held hretires hheld hid => exact .retiring thread snapshot held hretires hheld hid
  | setRepositoryCatalog configs =>
    cases hstep
    refine hheld.imp_right fun hdisplaced => ?_
    cases hdisplaced with
    | stopped hmem => exact .stopped hmem
    | retired hmem => exact .retired hmem
    | retiring thread snapshot held hretires hheld hid => exact .retiring thread snapshot held hretires hheld hid

end Step

/-- The model whose slot the thread may still drop. -/
def Pc.drops : Pc → Option String
  | .unloading model_name => some model_name
  | .draining model_name _ => some model_name
  | _ => none

def Request.drops : Request → Option String
  | .unloadModel model_name => some model_name
  | .beginDrain model_name => some model_name
  | _ => none

/-- The thread is in the middle of unloading the model, or has returned. -/
inductive Pc.Unloads (model_name : String) : Pc → Prop
  | unloading : Unloads model_name (.unloading model_name)
  | draining (whole : Bool) : Unloads model_name (.draining model_name whole)
  | completing (whole : Bool) : Unloads model_name (.completing model_name whole)
  | returned (answer : Option Bool) : Unloads model_name (.returned none answer)

theorem Request.start_drops (request : Request) : request.start.drops = request.drops := by
  cases request with
  | build call explicit =>
    simp only [Request.start, Request.drops]
    split <;> rfl
  | _ => rfl

theorem Pc.notified_drops (pc : Pc) : pc.notified.drops = pc.drops := by cases pc <;> rfl

/-- A thread inside a call drops what it was about to drop. -/
theorem Pc.step_drops {registry registry' : ModelRegistry} {pc pc' : Pc} {action : Action} (hidle : pc ≠ .idle)
    {model_name : String} (hstep : pc.step registry action = some (registry', pc'))
    (hdrops : pc'.drops = some model_name) : pc.drops = some model_name := by
  have hprepared (call : Call) (progress : Progress) : (Pc.prepared call progress).drops = none := by
    cases progress <;> rfl
  have hentered (call : Call) (prebuilt : Option Prebuilt) (entry : Entry) :
      (Pc.entered call prebuilt entry).drops = none := by
    cases entry <;> rfl
  unfold Pc.step at hstep
  split at hstep
  case h_1 => exact absurd rfl hidle
  case h_2 call prebuilt graph =>
    cases hstep
    rw [hprepared] at hdrops
    cases hdrops
  case h_3 call graph steps prebuilt builtins =>
    cases hstep
    rw [hprepared] at hdrops
    cases hdrops
  case h_4 call prebuilt =>
    cases hstep
    rw [hentered] at hdrops
    cases hdrops
  case h_6 call prebuilt wait =>
    cases hstep
    cases wait <;> simp only [Pc.rewoken] at hdrops <;> split at hdrops <;> cases hdrops
  case h_13 name =>
    split at hstep <;> cases hstep
    · cases hdrops
    · exact hdrops
  case h_14 name whole =>
    simp only at hstep
    split at hstep <;> cases hstep <;> cases hdrops
  case h_17 => cases hstep
  all_goals
    cases hstep
    cases hdrops

/-- A thread that unloads goes on with it until it returns. -/
theorem Pc.step_unloads {registry registry' : ModelRegistry} {pc pc' : Pc} {action : Action} {model_name : String}
    (hunloads : Unloads model_name pc) (hreturned : ∀ answer, pc ≠ .returned none answer)
    (hstep : pc.step registry action = some (registry', pc')) : Unloads model_name pc' := by
  cases hunloads with
  | returned answer => exact absurd rfl (hreturned answer)
  | unloading =>
    cases action <;> simp only [Pc.step, reduceCtorEq] at hstep
    split at hstep <;> cases hstep
    · exact .returned _
    · exact .draining true
  | draining whole =>
    cases action <;> simp only [Pc.step, reduceCtorEq] at hstep
    split at hstep <;> cases hstep
    · exact .completing whole
    · exact .returned _
  | completing whole =>
    cases action <;> simp only [Pc.step, reduceCtorEq] at hstep
    cases hstep
    exact .returned _

/-- Unloading a model leaves every Ready slot alone but the one it drains. -/
theorem Effect.unload_spares {registry registry' : ModelRegistry} {pc pc' : Pc} {model_name : String}
    (hunloads : Pc.Unloads model_name pc) (heffect : Effect registry pc registry' pc') {name : String}
    {slot : ModelSlot} (hslot : registry.models_ name = some slot) (hstate : slot.handle.state = .ready)
    (hdrained : pc.drops = some model_name → name ≠ model_name) : registry'.models_ name = some slot := by
  have hother {other : ModelSlot} (hfound : registry.models_ model_name = some other)
      (hstate' : other.handle.state ≠ .ready) : name ≠ model_name := by
    rintro rfl
    rw [hslot, Option.some.injEq] at hfound
    exact hstate' (hfound ▸ hstate)
  cases hunloads with
  | unloading =>
    cases heffect with
    | stay => exact hslot
    | erased _ other hfound hfailed =>
      exact ModelRegistry.eraseSlot_eq_some.mpr ⟨hother hfound (by simp [hfailed]), hslot⟩
  | draining whole =>
    cases heffect with
    | stay => exact hslot
    | drained => exact ModelRegistry.setSlot_eq_some.mpr (.inr ⟨hdrained rfl, hslot⟩)
  | completing whole =>
    cases heffect with
    | stay => exact hslot
    | completed _ _ other _ hfound _ hunloading =>
      exact ModelRegistry.eraseSlot_eq_some.mpr ⟨hother hfound (by simp [hunloading]), hslot⟩
  | returned answer =>
    cases heffect with
    | stay => exact hslot

end neuriplo.registry
