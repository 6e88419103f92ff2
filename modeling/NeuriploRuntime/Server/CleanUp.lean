import Mathlib.Logic.Relation
import NeuriploRuntime.Registry.Service
import NeuriploRuntime.Server.LoadRoutes

open neuriplo.config neuriplo.model neuriplo.pipeline neuriplo.registry neuriplo.tensor transition

namespace neuriplo.server

variable {threads : Nat}

/-- What a thread outside the registry does next: take up a request, or go on
with its handler. -/
def State.Turns (s : State threads) (thread : Fin threads) (turn : Turn) : Prop :=
  (s.handlers thread = .idle ∧ ∃ arrival : Arrival, turn = arrival.turn) ∨
    (s.registry.threads thread = .idle ∧ (s.handlers thread).run s.registry.registry_ = some turn)

/-- The moves of the server: a thread takes up a request or goes on by itself,
steps inside a registry call, or comes back from one. -/
inductive State.Moves (s : State threads) : Event threads → State threads → Prop
  | turned (event : Event threads) (thread : Fin threads) (turn : Turn) (s' : State threads)
      (hturn : s.Turns thread turn) (htake : s.take thread turn = some s') : Moves s event s'
  | called (thread : Fin threads) (action : Action) (registry' : registry.State)
      (hidle : s.registry.threads thread ≠ .idle)
      (hcall : ∀ request answer, s.registry.threads thread ≠ .returned request answer)
      (hstep : s.registry.step (.thread thread action) = some registry') :
      Moves s (.thread thread action) { s with registry := registry' }
  | returned (thread : Fin threads) (action : Action) (request : Option Call) (answer : Option Bool)
      (registry' : registry.State) (hpc : s.registry.threads thread = .returned request answer)
      (hstep : s.registry.step (.thread thread action) = some registry') :
      Moves s (.thread thread action)
        { registry := registry'
          handlers := Function.update s.handlers thread ((s.handlers thread).resume answer) }
  | drainTask (scheduler : Nat) (registry' : registry.State)
      (hstep : s.registry.step (.drainTask scheduler) = some registry') :
      Moves s (.drainTask scheduler) { s with registry := registry' }
  | setRepositoryCatalog (configs : List RuntimeConfig) (registry' : registry.State)
      (hstep : s.registry.step (.setRepositoryCatalog configs) = some registry') :
      Moves s (.setRepositoryCatalog configs) { s with registry := registry' }

/-- A step of the server is a move of one handler, of one thread or of the
background. -/
theorem State.step_moves {s s' : State threads} {event : Event threads} (hstep : s.step event = some s') :
    s.Moves event s' := by
  cases event with
  | arrive thread arrival =>
    simp only [State.step] at hstep
    split at hstep
    · exact .turned _ thread arrival.turn s' (.inl ⟨‹_›, arrival, rfl⟩) hstep
    · cases hstep
  | thread thread action =>
    simp only [State.step] at hstep
    split at hstep
    · rename_i hpc
      split at hstep
      · obtain ⟨turn, hrun, htake⟩ := Option.bind_eq_some_iff.mp hstep
        exact .turned _ thread turn s' (.inr ⟨hpc, hrun⟩) htake
      · cases hstep
    · rename_i request answer hpc
      obtain ⟨registry', hregistry, rfl⟩ := Option.map_eq_some_iff.mp hstep
      exact .returned thread action request answer registry' hpc hregistry
    · rename_i hidle hcall
      obtain ⟨registry', hregistry, rfl⟩ := Option.map_eq_some_iff.mp hstep
      exact .called thread action registry' hidle hcall hregistry
  | drainTask scheduler =>
    obtain ⟨registry', hregistry, rfl⟩ := Option.map_eq_some_iff.mp hstep
    exact .drainTask scheduler registry' hregistry
  | setRepositoryCatalog configs =>
    cases hstep
    exact .setRepositoryCatalog configs _ rfl

/-- The server refines the registry: its steps are steps of the registry, or
leave it alone. -/
theorem registry_reachable {s : State threads} (hreach : (system threads).Reachable s) :
    registry.system.Reachable s.registry := by
  refine hreach.simulate State.registry ?_ ?_
  · rintro s rfl
    rfl
  · intro s event s' _ hstep
    cases State.step_moves hstep with
    | turned _ thread turn _ _ htake =>
      obtain ⟨handler, request⟩ := turn
      cases request with
      | none =>
        cases htake
        exact .inl rfl
      | some request =>
        obtain ⟨registry', hregistry, rfl⟩ := Option.map_eq_some_iff.mp htake
        exact .inr ⟨_, hregistry⟩
    | called thread action registry' _ _ hregistry => exact .inr ⟨_, hregistry⟩
    | returned thread action request answer registry' _ hregistry => exact .inr ⟨_, hregistry⟩
    | drainTask scheduler registry' hregistry => exact .inr ⟨_, hregistry⟩
    | setRepositoryCatalog configs registry' hregistry => exact .inr ⟨_, hregistry⟩

/-- A handler outside its registry calls leaves its thread idle there, and one
inside a call is inside the call it made. -/
def Handler.At (pc : Pc) : Handler → Prop
  | serving request => ∀ model_name, pc.drops = some model_name → request.drops = some model_name
  | loading _ => pc.drops = none
  | cleaning load _ => Pc.Unloads load.model_name pc
  | _ => pc = .idle

/-- A notification leaves a handler where it stands. -/
theorem Handler.At.notified {handler : Handler} {pc : Pc} (hat : handler.At pc) : handler.At pc.notified := by
  cases handler with
  | serving request =>
    intro model_name hdrops
    rw [Pc.notified_drops] at hdrops
    exact hat model_name hdrops
  | loading load => exact (Pc.notified_drops pc).trans hat
  | cleaning load message =>
    have hunloads : Pc.Unloads load.model_name pc := hat
    cases hunloads <;> exact hat
  | _ =>
    have hidle : pc = .idle := hat
    subst hidle
    rfl

theorem LoadRequest.request_drops (load : LoadRequest) : load.request.drops = none := by
  unfold LoadRequest.request
  split
  · split <;> rfl
  · rfl

/-- Where a turn leaves its thread in the registry. -/
def Turn.pc (turn : Turn) : Pc := (turn.2.map Request.start).getD .idle

/-- A load starts where its registry call starts. -/
theorem LoadRequest.turn_at (load : LoadRequest) : load.turn.1.At load.turn.pc :=
  (Request.start_drops load.request).trans load.request_drops

/-- A handler starts where its registry call starts. -/
theorem Arrival.turn_at (arrival : Arrival) : arrival.turn.1.At arrival.turn.pc := by
  cases arrival with
  | repositoryLoad model_name body => rfl
  | adminLoad body =>
    simp only [Arrival.turn]
    split
    · rfl
    · exact LoadRequest.turn_at _
  | other request =>
    intro model_name hdrops
    rw [← Request.start_drops]
    exact hdrops

/-- A load is answered at once or goes to the registry. -/
theorem locate_cases (model_name : String) (body : Body) (loaded catalog : Option RuntimeConfig) :
    (∃ response, locate model_name body loaded catalog = (.answered response, none)) ∨
      ∃ load : LoadRequest, locate model_name body loaded catalog = load.turn := by
  simp only [locate]
  split
  · exact .inl ⟨_, rfl⟩
  · split
    · exact .inl ⟨_, rfl⟩
    · exact .inr ⟨_, rfl⟩

/-- A handler that goes on starts its next registry call, or has none. -/
theorem Handler.run_at {handler : Handler} {registry : ModelRegistry} {turn : Turn}
    (hrun : handler.run registry = some turn) : turn.1.At turn.pc := by
  unfold Handler.run at hrun
  split at hrun
  case h_2 model_name body loaded =>
    cases hrun
    obtain ⟨response, hturn⟩ | ⟨load, hturn⟩ := locate_cases model_name body loaded (registry.catalogConfig model_name)
    · rw [hturn]
      rfl
    · rw [hturn]
      exact load.turn_at
  case h_4 =>
    split at hrun <;> cases hrun <;> rfl
  case h_5 =>
    cases hrun
    exact .unloading
  case h_8 => cases hrun
  all_goals
    cases hrun
    rfl

/-- A registry call under way keeps its handler at it. -/
theorem Handler.At.called {handler : Handler} {registry registry' : ModelRegistry} {pc pc' : Pc} {action : Action}
    (hat : handler.At pc) (hidle : pc ≠ .idle) (hcall : ∀ request answer, pc ≠ .returned request answer)
    (hstep : pc.step registry action = some (registry', pc')) : handler.At pc' := by
  cases handler with
  | serving request =>
    intro model_name hdrops
    exact hat model_name (Pc.step_drops hidle hstep hdrops)
  | loading load =>
    have hnone : pc.drops = none := hat
    by_contra hsome
    obtain ⟨model_name, hdrops⟩ := Option.ne_none_iff_exists'.mp hsome
    rw [Pc.step_drops hidle hstep hdrops] at hnone
    cases hnone
  | cleaning load message => exact Pc.step_unloads hat (hcall none) hstep
  | _ => exact absurd hat hidle

/-- A handler whose call has returned stands between two calls. -/
theorem Handler.At.resumed {handler : Handler} {request : Option Call} {answer : Option Bool}
    (hat : handler.At (.returned request answer)) : (handler.resume answer).At .idle := by
  cases handler with
  | serving => rfl
  | loading load =>
    simp only [Handler.resume]
    split
    · rfl
    · rfl
    · split <;> rfl
  | cleaning => rfl
  | _ => cases hat

/-- A handler's turn changes nothing in the registry but its own thread. -/
theorem State.take_spec {s s' : State threads} {thread : Fin threads} {turn : Turn}
    (hidle : s.registry.threads thread = .idle) (htake : s.take thread turn = some s') :
    s'.registry.registry_ = s.registry.registry_ ∧ s'.handlers = Function.update s.handlers thread turn.1 ∧
      s'.registry.threads = Function.update s.registry.threads thread turn.pc := by
  obtain ⟨handler, request⟩ := turn
  cases request with
  | none =>
    cases htake
    refine ⟨rfl, rfl, ?_⟩
    exact (Function.update_eq_self_iff.mpr hidle.symm).symm
  | some request =>
    obtain ⟨registry', hregistry, rfl⟩ := Option.map_eq_some_iff.mp htake
    simp only [registry.State.step, hidle, Pc.step, Option.map_some, Option.some.injEq] at hregistry
    subst hregistry
    refine ⟨rfl, rfl, ?_⟩
    simp only [registry.State.move, hidle, Pc.notifies, Bool.false_eq_true, ↓reduceIte]
    rfl

/-- The model that a load handler has found not ready and goes on to unload. -/
def State.condemns (s : State threads) (thread : Fin threads) : Option String :=
  match s.handlers thread with
  | .probed load true snapshot =>
    if snapshot.any s.registry.registry_.snapshotReady then none else some load.model_name
  | .reporting load true => some load.model_name
  | .cleaning _ _ => (s.registry.threads thread).drops
  | _ => none

/-- The condition on a step: no build comes up for a model that some load
handler has condemned, and the flag of a replaced scheduler does not go up
between a load handler's lookup of its snapshot and the reading of the flag. -/
def sparesReady (s : State threads) : Event threads → Bool
  | .thread thread _ =>
    match s.registry.threads thread with
    | .finishing call next => next.state ≠ .ready ||
      (List.finRange threads).all fun other => s.condemns other ≠ some call.model_name
    | _ => true
  | .drainTask scheduler => (List.finRange threads).all fun other =>
    match s.handlers other with
    | .probed load true (some snapshot) => !snapshot.scheduler.any (·.id = scheduler) ||
      !(s.registry.registry_.models_ load.model_name).any (·.handle.state = .ready)
    | _ => true
  | _ => true

structure State.Spared (s : State threads) : Prop where
  placed : ∀ thread, (s.handlers thread).At (s.registry.threads thread)
  looked : ∀ thread load snapshot scheduler, s.handlers thread = .probed load true (some snapshot) →
    snapshot.scheduler = some scheduler →
      s.registry.serves (.slot load.model_name) = some scheduler.id ∨ s.registry.Displaced scheduler.id
  condemned : ∀ thread model_name slot, s.condemns thread = some model_name →
    s.registry.registry_.models_ model_name = some slot → slot.handle.state ≠ .ready

/-- What a load condemns it has condemned before, or the flag of its snapshot goes
up in the step. -/
theorem State.condemns_of_same {s s' : State threads} {thread : Fin threads} {model_name : String}
    (hhandler : s'.handlers thread = s.handlers thread)
    (hdrops : ∀ name, (s'.registry.threads thread).drops = some name → (s.registry.threads thread).drops = some name)
    (hcondemns : s'.condemns thread = some model_name) :
    s.condemns thread = some model_name ∨
      ∃ load snapshot, s.handlers thread = .probed load true (some snapshot) ∧ load.model_name = model_name ∧
        s.registry.registry_.snapshotReady snapshot = true ∧ s'.registry.registry_.snapshotReady snapshot = false := by
  unfold condemns at hcondemns ⊢
  rw [hhandler] at hcondemns
  cases hcase : s.handlers thread with
  | probed load registered snapshot =>
    cases registered with
    | false => simp [hcase] at hcondemns
    | true =>
      simp only [hcase, Option.ite_none_left_eq_some, Bool.not_eq_true, Option.some.injEq] at hcondemns ⊢
      by_cases hready : snapshot.any s.registry.registry_.snapshotReady = true
      · cases snapshot with
        | none => cases hready
        | some snapshot => exact .inr ⟨load, snapshot, rfl, hcondemns.2, hready, hcondemns.1⟩
      · exact .inl ⟨by simpa using hready, hcondemns.2⟩
  | reporting load registered =>
    rw [hcase] at hcondemns
    refine .inl ?_
    cases registered <;> exact hcondemns
  | cleaning load message =>
    rw [hcase] at hcondemns
    exact .inl (hdrops model_name hcondemns)
  | _ => simp [hcase] at hcondemns

/-- The condition in the terms of the registry step an event makes. -/
structure State.Permits (s : State threads) (event : registry.Event) : Prop where
  publication : ∀ model_name, s.registry.Publishes event model_name → ∀ other, s.condemns other ≠ some model_name
  flag : ∀ scheduler, event = .drainTask scheduler → ∀ other load snapshot held slot,
    s.handlers other = .probed load true (some snapshot) → snapshot.scheduler = some held → held.id = scheduler →
      s.registry.registry_.models_ load.model_name = some slot → slot.handle.state ≠ .ready

/-- The frame of a registry step for a thread whose handler stays where it is:
the model it condemned does not become Ready. -/
theorem State.Spared.condemned_step {s s' : State threads} (hspared : s.Spared) (hinv : s.registry.Inv)
    {event : registry.Event} (hstep : s.registry.step event = some s'.registry) (hpermits : s.Permits event)
    {thread : Fin threads} (hhandler : s'.handlers thread = s.handlers thread)
    (hdrops : ∀ name, (s'.registry.threads thread).drops = some name → (s.registry.threads thread).drops = some name)
    {model_name : String} {slot' : ModelSlot} (hcondemns : s'.condemns thread = some model_name)
    (hslot' : s'.registry.registry_.models_ model_name = some slot') : slot'.handle.state ≠ .ready := by
  intro hready
  rcases State.condemns_of_same hhandler hdrops hcondemns with
    hbefore | ⟨load, snapshot, hprobed, rfl, hserving, hstopped⟩
  · obtain ⟨slot, hslot, hstate⟩ | hpublishes := hinv.step_makes_ready hstep hslot' hready
    · exact hspared.condemned thread model_name slot hbefore hslot hstate
    · exact hpermits.publication model_name hpublishes thread hbefore
  · -- the flag of the snapshot went up in this step
    obtain ⟨hstate, held, hheld, hlive⟩ : snapshot.state = .ready ∧ ∃ held, snapshot.scheduler = some held ∧
        held.id ∉ s.registry.registry_.draining := by
      cases hheld : snapshot.scheduler <;> simp_all [ModelRegistry.snapshotReady, ModelRegistry.schedulerReady]
    have hup : held.id ∈ s'.registry.registry_.draining := by
      simpa [ModelRegistry.snapshotReady, ModelRegistry.schedulerReady, hstate, hheld] using hstopped
    cases event with
    | thread other action =>
      obtain ⟨registry', pc', heffect, -, heq⟩ := hinv.effect hstep
      rw [heq] at hup hslot'
      obtain hold | ⟨name, slot, hserves, hdrained, hunloading⟩ := heffect.newly_stopped hinv hup
      · exact hlive hold
      · obtain hsame | hdisplaced := hspared.looked thread load snapshot held hprobed hheld
        · have hplace := hinv.custody.unshared _ _ _ hserves hsame
          cases hplace
          have hslot := hdrained.symm.trans hslot'
          rw [Option.some.injEq] at hslot
          rw [hslot, hready] at hunloading
          cases hunloading
        · exact hinv.custody.live _ _ hserves hdisplaced
    | drainTask scheduler =>
      obtain ⟨-, heq⟩ := registry.State.step_drainTask hstep
      rw [heq] at hup hslot'
      obtain hid | hold := List.mem_cons.mp hup
      · exact hpermits.flag scheduler rfl thread load snapshot held slot' hprobed hheld hid hslot' hready
      · exact hlive hold
    | setRepositoryCatalog configs =>
      have heq := (Option.some.inj hstep).symm
      rw [heq] at hup
      exact hlive hup

/-- A step that spares ready models is permitted to the registry. -/
theorem State.permits {s : State threads} {event : Event threads} (hspares : sparesReady s event = true)
    {registryEvent : registry.Event}
    (hevent : (∃ thread action, event = .thread thread action ∧ registryEvent = .thread thread action) ∨
      (∃ scheduler, event = .drainTask scheduler ∧ registryEvent = .drainTask scheduler) ∨
      ∃ configs, registryEvent = .setRepositoryCatalog configs) : s.Permits registryEvent := by
  obtain ⟨thread, action, rfl, rfl⟩ | ⟨scheduler, rfl, rfl⟩ | ⟨configs, rfl⟩ := hevent
  · refine ⟨?_, nofun⟩
    rintro _ ⟨_, _, call, next, hevent, hpc, rfl, hnext⟩ other
    cases hevent
    simp only [sparesReady, hpc, hnext, ne_eq, not_true_eq_false, decide_false, Bool.false_or, List.all_eq_true,
      List.mem_finRange, forall_const, decide_eq_true_eq] at hspares
    exact hspares other
  · refine ⟨?_, ?_⟩
    · rintro _ ⟨_, _, _, _, hevent, -⟩
      cases hevent
    · rintro _ hevent other load snapshot held slot hprobed hheld rfl hslot hstate
      cases hevent
      simp only [sparesReady, List.all_eq_true, List.mem_finRange, forall_const] at hspares
      have hother := hspares other
      simp [hprobed, hheld, hslot, hstate] at hother
  · refine ⟨?_, nofun⟩
    rintro _ ⟨_, _, _, _, hevent, -⟩
    cases hevent

/-- The clean-ups under way stay harmless over a step of the registry. -/
theorem State.Spared.called {s s' : State threads} (hspared : s.Spared) (hinv : s.registry.Inv)
    {thread : Fin threads} {action : Action} (hpermits : s.Permits (.thread thread action))
    (hstep : s.registry.step (.thread thread action) = some s'.registry)
    (hothers : ∀ other, other ≠ thread → s'.handlers other = s.handlers other)
    (hat : (s'.handlers thread).At (s'.registry.threads thread))
    (hstays : (s'.handlers thread = s.handlers thread ∧ s.registry.threads thread ≠ .idle) ∨
      s'.condemns thread = none ∧ ∀ load snapshot, s'.handlers thread ≠ .probed load true snapshot) : s'.Spared := by
  obtain ⟨registry', pc', -, hpc, hmove⟩ := hinv.effect hstep
  have hval {other : Fin threads} (hother : other ≠ thread) : (other : Nat) ≠ thread :=
    fun hsame => hother (Fin.ext hsame)
  have hne {other : Fin threads} (hother : other ≠ thread) :
      s'.registry.threads other = s.registry.threads other ∨
        s'.registry.threads other = (s.registry.threads other).notified := by
    rw [hmove, registry.State.move_threads_ne (hval hother)]
    split
    · exact .inr rfl
    · exact .inl rfl
  refine ⟨?_, ?_, ?_⟩
  · intro other
    by_cases hother : other = thread
    · subst hother
      exact hat
    · rw [hothers other hother]
      rcases hne hother with hsame | hsame <;> rw [hsame]
      · exact hspared.placed other
      · exact (hspared.placed other).notified
  · intro other load snapshot scheduler hprobed hheld
    refine hinv.step_serves hstep ?_
    by_cases hother : other = thread
    · subst hother
      obtain ⟨hsame, -⟩ | ⟨-, hnone⟩ := hstays
      · exact hspared.looked other load snapshot scheduler (hsame ▸ hprobed) hheld
      · exact absurd hprobed (hnone load _)
    · exact hspared.looked other load snapshot scheduler (hothers other hother ▸ hprobed) hheld
  · intro other model_name slot hcondemns hslot
    by_cases hother : other = thread
    · subst hother
      obtain ⟨hsame, hidle⟩ | ⟨hnone, -⟩ := hstays
      · refine hspared.condemned_step hinv hstep hpermits hsame ?_ hcondemns hslot
        intro name hdrops
        rw [hmove, registry.State.move_threads_self] at hdrops
        exact Pc.step_drops hidle hpc hdrops
      · rw [hnone] at hcondemns
        cases hcondemns
    · refine hspared.condemned_step hinv hstep hpermits (hothers other hother) ?_ hcondemns hslot
      intro name hdrops
      rcases hne hother with hsame | hsame <;> rw [hsame] at hdrops
      · exact hdrops
      · rwa [Pc.notified_drops] at hdrops

/-- A registry step that no handler's thread makes. -/
theorem State.Spared.background {s s' : State threads} (hspared : s.Spared) (hinv : s.registry.Inv)
    {event : registry.Event} (hpermits : s.Permits event) (hstep : s.registry.step event = some s'.registry)
    (hhandlers : s'.handlers = s.handlers) (hthreads : s'.registry.threads = s.registry.threads) : s'.Spared := by
  refine ⟨?_, ?_, ?_⟩
  · intro thread
    rw [hhandlers, hthreads]
    exact hspared.placed thread
  · intro thread load snapshot scheduler hprobed hheld
    rw [hhandlers] at hprobed
    exact hinv.step_serves hstep (hspared.looked thread load snapshot scheduler hprobed hheld)
  · intro thread model_name slot hcondemns hslot
    refine hspared.condemned_step hinv hstep hpermits (by rw [hhandlers]) ?_ hcondemns hslot
    intro name hdrops
    rwa [hthreads] at hdrops

theorem Arrival.turn_ne_probed (arrival : Arrival) (load : LoadRequest) {registered : Bool}
    (snapshot : Option InferSnapshot) : arrival.turn.1 ≠ .probed load registered snapshot := by
  cases arrival with
  | adminLoad body =>
    simp only [Arrival.turn]
    split <;> exact nofun
  | _ => exact nofun

/-- A handler about to read a flag has looked the snapshot up just now. -/
theorem Handler.run_probed {handler : Handler} {registry : ModelRegistry} {turn : Turn} {load : LoadRequest}
    {registered : Bool} {snapshot : Option InferSnapshot} (hrun : handler.run registry = some turn)
    (hprobed : turn.1 = .probed load registered snapshot) : snapshot = registry.findHandle load.model_name := by
  unfold Handler.run at hrun
  split at hrun
  case h_2 model_name body loaded =>
    cases hrun
    obtain ⟨response, hturn⟩ | ⟨other, hturn⟩ :=
      locate_cases model_name body loaded (registry.catalogConfig model_name) <;>
      rw [hturn] at hprobed <;> cases hprobed
  case h_3 =>
    cases hrun
    cases hprobed
    rfl
  case h_4 =>
    split at hrun <;> cases hrun <;> cases hprobed
  case h_8 => cases hrun
  all_goals
    cases hrun
    cases hprobed

/-- What a handler condemns of its own accord is not Ready: it read so, in the
same state or before. -/
theorem State.Spared.run_condemned {s s' : State threads} (hspared : s.Spared) (hinv : s.registry.Inv)
    {thread : Fin threads} {turn : Turn} (hrun : (s.handlers thread).run s.registry.registry_ = some turn)
    (hregistry : s'.registry.registry_ = s.registry.registry_) (hhandler : s'.handlers thread = turn.1)
    (hthread : s'.registry.threads thread = turn.pc) {model_name : String} {slot : ModelSlot}
    (hcondemns : s'.condemns thread = some model_name)
    (hslot : s.registry.registry_.models_ model_name = some slot) : slot.handle.state ≠ .ready := by
  have hbefore := hspared.condemned thread model_name slot
  simp only [State.condemns, hhandler, hthread, hregistry] at hcondemns
  unfold Handler.run at hrun
  split at hrun
  case h_2 name body loaded _ =>
    cases hrun
    obtain ⟨response, hturn⟩ | ⟨load, hturn⟩ :=
      locate_cases name body loaded (s.registry.registry_.catalogConfig name) <;>
      simp only [hturn] at hcondemns <;> cases hcondemns
  case h_3 load registered hcase =>
    cases hrun
    cases registered with
    | false => cases hcondemns
    | true =>
      simp only [Option.ite_none_left_eq_some, Option.some.injEq] at hcondemns
      obtain ⟨hnot, rfl⟩ := hcondemns
      intro hstate
      obtain ⟨-, -, -, hready, hpublished⟩ := hinv.ready_slot hslot hstate
      refine hnot ?_
      have hsnapshot : slot.active_snapshot = some (.fromHandle slot.handle) := hpublished
      simpa [ModelRegistry.findHandle, hslot, hsnapshot] using hready
  case h_4 load registered snapshot hcase =>
    split at hrun
    · cases hrun
      cases hcondemns
    · rename_i hnot
      cases hrun
      cases registered with
      | false => cases hcondemns
      | true =>
        refine hbefore ?_ hslot
        simp only [State.condemns, hcase, hnot]
        exact hcondemns
  case h_5 load hcase =>
    cases hrun
    refine hbefore ?_ hslot
    simp only [State.condemns, hcase]
    exact hcondemns
  case h_8 => cases hrun
  all_goals
    cases hrun
    cases hcondemns

/-- A handler that has just arrived cleans nothing up. -/
theorem Arrival.turn_condemns (arrival : Arrival) {s : State threads} {thread : Fin threads}
    (hhandler : s.handlers thread = arrival.turn.1) : s.condemns thread = none := by
  cases arrival with
  | adminLoad body =>
    by_cases hok : (body {}).ok = true <;> simp [State.condemns, hhandler, Arrival.turn, LoadRequest.turn, hok]
  | _ => simp [State.condemns, hhandler, Arrival.turn]

theorem State.Spared.turns_idle {s : State threads} (hspared : s.Spared) {thread : Fin threads} {turn : Turn}
    (hturn : s.Turns thread turn) : s.registry.threads thread = .idle := by
  obtain ⟨hhandler, -⟩ | ⟨hidle, -⟩ := hturn
  · have hat := hspared.placed thread
    rw [hhandler] at hat
    exact hat
  · exact hidle

/-- The clean-ups under way stay harmless over a handler's turn. -/
theorem State.Spared.turned {s s' : State threads} (hspared : s.Spared) (hinv : s.registry.Inv)
    {thread : Fin threads} {turn : Turn}
    (hturn : s.Turns thread turn) (htake : s.take thread turn = some s') : s'.Spared := by
  have hidle := hspared.turns_idle hturn
  obtain ⟨hregistry, hhandlers, hthreads⟩ := State.take_spec hidle htake
  have hhandler : s'.handlers thread = turn.1 := by rw [hhandlers, Function.update_self]
  have hthread : s'.registry.threads thread = turn.pc := by rw [hthreads, Function.update_self]
  have hothers {other : Fin threads} (hother : other ≠ thread) : s'.handlers other = s.handlers other ∧
      s'.registry.threads other = s.registry.threads other := by
    rw [hhandlers, hthreads, Function.update_of_ne hother,
      Function.update_of_ne fun hsame => hother (Fin.ext hsame)]
    exact ⟨rfl, rfl⟩
  refine ⟨?_, ?_, ?_⟩
  · intro other
    by_cases hother : other = thread
    · subst hother
      rw [hhandler, hthread]
      obtain ⟨-, arrival, rfl⟩ | ⟨-, hrun⟩ := hturn
      · exact arrival.turn_at
      · exact Handler.run_at hrun
    · rw [(hothers hother).1, (hothers hother).2]
      exact hspared.placed other
  · intro other load snapshot scheduler hprobed hheld
    have hkept : s.registry.serves (.slot load.model_name) = some scheduler.id ∨
        s.registry.Displaced scheduler.id := by
      by_cases hother : other = thread
      · subst hother
        rw [hhandler] at hprobed
        obtain ⟨-, arrival, rfl⟩ | ⟨-, hrun⟩ := hturn
        · exact absurd hprobed (arrival.turn_ne_probed load _)
        · have hfound := Handler.run_probed hrun hprobed
          obtain ⟨slot, hslot, hsnapshot⟩ := Option.bind_eq_some_iff.mp hfound.symm
          exact (hinv.snapshot_scheduler hslot hsnapshot hheld).imp_right .stopped
      · exact hspared.looked other load snapshot scheduler ((hothers hother).1 ▸ hprobed) hheld
    obtain ⟨handler, request⟩ := turn
    cases request with
    | none =>
      cases htake
      exact hkept
    | some request =>
      obtain ⟨registry', hstep, rfl⟩ := Option.map_eq_some_iff.mp htake
      exact hinv.step_serves hstep hkept
  · intro other model_name slot hcondemns hslot
    rw [hregistry] at hslot
    by_cases hother : other = thread
    · subst hother
      obtain ⟨-, arrival, rfl⟩ | ⟨-, hrun⟩ := hturn
      · rw [arrival.turn_condemns hhandler] at hcondemns
        cases hcondemns
      · exact hspared.run_condemned hinv hrun hregistry hhandler hthread hcondemns hslot
    · refine hspared.condemned other model_name slot ?_ hslot
      rw [← hcondemns]
      simp only [State.condemns, (hothers hother).1, (hothers hother).2, hregistry]

/-- A handler back from a registry call has condemned nothing. -/
theorem Handler.At.resumed_condemns {handler : Handler} {request : Option Call} {answer : Option Bool}
    (hat : handler.At (.returned request answer)) {s : State threads} {thread : Fin threads}
    (hhandler : s.handlers thread = handler.resume answer) :
    s.condemns thread = none ∧ ∀ load snapshot, s.handlers thread ≠ .probed load true snapshot := by
  cases handler with
  | loading load =>
    by_cases hprobes : (decide (load.route = .repository) && !load.known) = true <;>
      rcases answer with - | - | - <;> simp [State.condemns, hhandler, Handler.resume, hprobes]
  | serving | cleaning => simp [State.condemns, hhandler, Handler.resume]
  | _ => cases hat

/-- In every run whose steps meet the condition no load condemns a ready model. -/
theorem spared_reachable {s : State threads}
    (hreach : ((system threads).restrict fun s event => sparesReady s event = true).Reachable s) : s.Spared := by
  refine hreach.invariant_of_restrict ?_ ?_
  · rintro s rfl
    refine ⟨fun _ => rfl, ?_, ?_⟩
    · intro thread load snapshot scheduler hprobed
      cases hprobed
    · intro thread model_name slot hcondemns
      cases hcondemns
  · intro s event s' hreach hspares hspared hstep
    have hinv := inv_reachable (registry_reachable hreach)
    cases State.step_moves hstep with
    | turned _ thread turn _ hturn htake => exact hspared.turned hinv hturn htake
    | called thread action registry' hidle hcall hregistry =>
      have hpermits := State.permits hspares (.inl ⟨thread, action, rfl, rfl⟩)
      obtain ⟨_, _, -, hpc, hmove⟩ := hinv.effect hregistry
      refine hspared.called hinv hpermits hregistry (fun _ _ => rfl) ?_ (.inl ⟨rfl, hidle⟩)
      rw [hmove, registry.State.move_threads_self]
      exact (hspared.placed thread).called hidle hcall hpc
    | returned thread action request answer registry' hpc hregistry =>
      have hpermits := State.permits hspares (.inl ⟨thread, action, rfl, rfl⟩)
      have hat := hspared.placed thread
      rw [hpc] at hat
      obtain ⟨_, pc', -, hstep', hmove⟩ := hinv.effect hregistry
      have hidle : pc' = .idle := by
        rw [hpc] at hstep'
        cases action <;> cases hstep'
        rfl
      refine hspared.called hinv hpermits hregistry ?_ ?_ (.inr (hat.resumed_condemns (Function.update_self ..)))
      · intro other hother
        exact Function.update_of_ne hother ..
      · have hback : registry'.threads thread = .idle := by
          rw [hmove, registry.State.move_threads_self, hidle]
        simpa only [Function.update_self, hback] using hat.resumed
    | drainTask scheduler registry' hregistry =>
      have hpermits := State.permits hspares (.inr (.inl ⟨scheduler, rfl, rfl⟩))
      obtain ⟨-, rfl⟩ := registry.State.step_drainTask hregistry
      exact hspared.background hinv hpermits hregistry rfl rfl
    | setRepositoryCatalog configs registry' hregistry =>
      have hpermits := State.permits hspares (.inr (.inr ⟨configs, rfl⟩))
      cases hregistry
      exact hspared.background hinv hpermits rfl rfl rfl

/-- The event is a step of a request that some client sent to unload the model. -/
def State.Unloads (s : State threads) (event : Event threads) (model_name : String) : Prop :=
  ∃ thread action request, event = .thread thread action ∧ s.handlers thread = .serving request ∧
    request.drops = some model_name

/-- A ready model stays ready unless a step unloads it. -/
theorem State.Spared.keeps_ready {s s' : State threads} (hspared : s.Spared) (hinv : s.registry.Inv)
    {event : Event threads} (hstep : s.step event = some s') {model_name : String} {slot : ModelSlot}
    (hslot : s.registry.registry_.models_ model_name = some slot) (hstate : slot.handle.state = .ready) :
    (∃ slot', s'.registry.registry_.models_ model_name = some slot' ∧ slot'.handle.state = .ready) ∨
      s.Unloads event model_name := by
  have hthread {thread : Fin threads} {action : Action} {registry' : registry.State}
      (hregistry : s.registry.step (.thread thread action) = some registry') :
      (∃ slot', registry'.registry_.models_ model_name = some slot' ∧ slot'.handle.state = .ready) ∨
        s.Unloads (.thread thread action) model_name := by
    obtain ⟨_, pc', heffect, -, rfl⟩ := hinv.effect hregistry
    cases heffect.ready_slot hinv.phased hslot hstate with
    | same slot' hslot' hstate' => exact .inl ⟨slot', hslot', hstate'⟩
    | replaced slot' hslot' hstate' => exact .inl ⟨slot', hslot', hstate'⟩
    | drained whole hpc =>
      -- only a client's request or a clean-up gets there, and no clean-up condemned a Ready model
      have hdrops : (s.registry.threads thread).drops = some model_name := by rw [hpc]; rfl
      have hat := hspared.placed thread
      cases hhandler : s.handlers thread with
      | serving request =>
        rw [hhandler] at hat
        exact .inr ⟨thread, action, request, rfl, hhandler, hat model_name hdrops⟩
      | loading load =>
        rw [hhandler] at hat
        exact absurd (hdrops.symm.trans hat) nofun
      | cleaning load message =>
        refine absurd hstate (hspared.condemned thread model_name slot ?_ hslot)
        simp only [State.condemns, hhandler, hdrops]
      | _ =>
        rw [hhandler, hpc] at hat
        cases hat
  cases State.step_moves hstep with
  | turned _ thread turn _ hturn htake =>
    obtain ⟨hregistry, -⟩ := State.take_spec (hspared.turns_idle hturn) htake
    rw [hregistry]
    exact .inl ⟨slot, hslot, hstate⟩
  | called thread action registry' _ _ hregistry => exact hthread hregistry
  | returned thread action request answer registry' _ hregistry => exact hthread hregistry
  | drainTask scheduler registry' hregistry =>
    obtain ⟨-, rfl⟩ := registry.State.step_drainTask hregistry
    exact .inl ⟨slot, hslot, hstate⟩
  | setRepositoryCatalog configs registry' hregistry =>
    cases hregistry
    exact .inl ⟨slot, hslot, hstate⟩

/-- A step of a clean-up leaves every Ready slot exactly as it is. -/
theorem State.Spared.cleaning {s s' : State threads} (hspared : s.Spared) (hinv : s.registry.Inv)
    {thread : Fin threads} {action : Action} {load : LoadRequest} {message : String}
    (hhandler : s.handlers thread = .cleaning load message) (hstep : s.step (.thread thread action) = some s')
    {model_name : String} {slot : ModelSlot} (hslot : s.registry.registry_.models_ model_name = some slot)
    (hstate : slot.handle.state = .ready) : s'.registry.registry_.models_ model_name = some slot := by
  have hunloads : Pc.Unloads load.model_name (s.registry.threads thread) := by
    have hat := hspared.placed thread
    rw [hhandler] at hat
    exact hat
  have hspares {registry' : registry.State} (hregistry : s.registry.step (.thread thread action) = some registry') :
      registry'.registry_.models_ model_name = some slot := by
    obtain ⟨_, pc', heffect, -, rfl⟩ := hinv.effect hregistry
    refine heffect.unload_spares hunloads hslot hstate ?_
    rintro hdrops rfl
    refine hspared.condemned thread _ slot ?_ hslot hstate
    simp only [State.condemns, hhandler, hdrops]
  cases State.step_moves hstep with
  | turned _ other turn _ hturn htake =>
    obtain ⟨hregistry, -⟩ := State.take_spec (hspared.turns_idle hturn) htake
    rw [hregistry]
    exact hslot
  | called _ _ registry' _ _ hregistry => exact hspares hregistry
  | returned _ _ request answer registry' _ hregistry => exact hspares hregistry

/-- One step of a run in which no client's request to unload the model moves. -/
def State.Undisturbed (model_name : String) (s s' : State threads) : Prop :=
  ∃ event, sparesReady s event = true ∧ s.step event = some s' ∧ ¬ s.Unloads event model_name

/-- In every run in which no model condemned by a load handler comes up before
that handler's clean-up is over, a clean-up leaves every Ready slot exactly as
it is, and a Ready model stays Ready until some client unloads it. -/
theorem cleanup_spares_ready {s : State threads}
    (hreach : ((system threads).restrict fun s event => sparesReady s event = true).Reachable s)
    {model_name : String} {slot : ModelSlot} (hslot : s.registry.registry_.models_ model_name = some slot)
    (hstate : slot.handle.state = .ready) :
    (∀ thread action load message s', s.handlers thread = .cleaning load message →
      s.step (.thread thread action) = some s' → s'.registry.registry_.models_ model_name = some slot) ∧
    ∀ s', Relation.ReflTransGen (State.Undisturbed model_name) s s' →
      ∃ slot', s'.registry.registry_.models_ model_name = some slot' ∧ slot'.handle.state = .ready := by
  have hinv := inv_reachable (registry_reachable hreach.of_restrict)
  refine ⟨?_, ?_⟩
  · intro thread action load message s' hhandler hstep
    exact (spared_reachable hreach).cleaning hinv hhandler hstep hslot hstate
  · intro s' hpath
    suffices ((system threads).restrict fun s event => sparesReady s event = true).Reachable s' ∧
        ∃ slot', s'.registry.registry_.models_ model_name = some slot' ∧ slot'.handle.state = .ready from this.2
    induction hpath with
    | refl => exact ⟨hreach, slot, hslot, hstate⟩
    | tail _ hlast ih =>
      obtain ⟨hmiddle, slot', hslot', hstate'⟩ := ih
      obtain ⟨event, hspares, hstep, hunloads⟩ := hlast
      refine ⟨hmiddle.next ⟨hstep, hspares⟩, ?_⟩
      have hinv' := inv_reachable (registry_reachable hmiddle.of_restrict)
      obtain hready | hunloaded := (spared_reachable hmiddle).keeps_ready hinv' hstep hslot' hstate'
      · exact hready
      · exact absurd hunloaded hunloads

/-- A body that names a model and its backend. -/
def namedBody (model_name : String) : Body := fun defaults =>
  { ok := true, config := { defaults with model_name }, backend_provided := true }

/-- The steps of one load call, from its first section to its return. -/
def loadCall (thread : Fin 2) (backend : BackendFactory) : List (Event 2) :=
  [.run, .build backend none, .run, .run, .run, .run].map (.thread thread)

/-- A load whose backend is missing gets as far as its clean-up; before that
starts, a second load request reloads the model, and succeeds. -/
def overtakenCleanUp : List (Event 2) :=
  .arrive 0 (.adminLoad (namedBody "demo")) :: loadCall 0 (.unavailable "no such backend") ++
    List.replicate 2 (.thread 0 .run) ++
    [.arrive 1 (.repositoryLoad "demo" (namedBody "demo")), .thread 1 .run, .thread 1 .run] ++
    loadCall 1 (.serving { name := "demo" }) ++ List.replicate 3 (.thread 1 .run) ++
    [.thread 0 .run, .thread 0 .run]

/-- No client's request but loads. -/
def Event.isLoad : Event threads → Bool
  | .arrive _ (.other _) => false
  | _ => true

/-- The clean-up then drains the model the second request was told is loaded. -/
theorem overtaken_cleanup_drains_ready :
    ∃ s s' slot slot' load message, (system 2).Reachable s ∧
      System.replay State.step {} overtakenCleanUp = some s ∧ overtakenCleanUp.all Event.isLoad = true ∧
      s.registry.registry_.models_ "demo" = some slot ∧ slot.handle.state = .ready ∧
      s.handlers 0 = .cleaning load message ∧ s.step (.thread 0 .run) = some s' ∧
      s'.registry.registry_.models_ "demo" = some slot' ∧ slot'.handle.state = .unloading :=
  ⟨_, _, _, _, _, _, @System.reachable_of_replay _ _ _ _ _ overtakenCleanUp rfl, rfl, rfl, rfl, rfl, rfl, rfl, rfl, rfl⟩

/-- A model is loaded; a load of another one fails and is about to be cleaned
up. -/
def failedLoad : List (Event 2) :=
  .arrive 1 (.adminLoad (namedBody "other")) :: loadCall 1 (.serving { name := "other" }) ++
    .arrive 0 (.adminLoad (namedBody "demo")) :: loadCall 0 (.unavailable "no such backend") ++
    List.replicate 3 (.thread 0 .run)

/-- A load fails, and its clean-up leaves the other model alone. -/
theorem cleanup_spares_ready_failedLoad :
    ∃ s slot load message, System.replay (System.guarded sparesReady State.step) {} failedLoad = some s ∧
      s.registry.registry_.models_ "other" = some slot ∧ s.handlers 0 = .cleaning load message ∧
      ∀ action s', s.step (.thread 0 action) = some s' → s'.registry.registry_.models_ "other" = some slot := by
  obtain ⟨history, hrun⟩ :=
    @System.reachable_of_replay _ _ {} _ (System.guarded sparesReady State.step) failedLoad rfl
  refine ⟨_, _, _, _, rfl, rfl, rfl, ?_⟩
  intro action s' hstep
  exact (cleanup_spares_ready ⟨history, hrun.of_guarded⟩ rfl rfl).1 0 action _ _ s' rfl hstep

end neuriplo.server
