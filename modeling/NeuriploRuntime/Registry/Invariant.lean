import NeuriploRuntime.Registry.Effect
import NeuriploRuntime.Transition.Ownership

open neuriplo.config neuriplo.model neuriplo.model.ModelLifecycle neuriplo.pipeline neuriplo.tensor transition

namespace neuriplo.registry

/-- Where a scheduler that may still take requests is held: by a Ready slot, or
by the thread that built it and has yet to publish it. -/
inductive Place where
  | slot (model_name : String)
  | thread (thread : Nat)
deriving DecidableEq

def ModelSlot.serves (slot : ModelSlot) : Option Nat :=
  if slot.handle.state = .ready then slot.handle.scheduler.map (·.id) else none

def Pc.serves (pc : Pc) : Option Nat :=
  (pc.next.bind (·.scheduler)).map (·.id)

namespace State

def serves (s : State) : Place → Option Nat
  | .slot model_name => (s.registry_.models_ model_name).bind ModelSlot.serves
  | .thread thread => (s.threads thread).serves

/-- A scheduler that was told to stop, handed to the retire queue, or is about
to be. -/
inductive Displaced (s : State) (scheduler : Nat) : Prop where
  | stopped (hmem : scheduler ∈ s.registry_.draining)
  | retired (hmem : scheduler ∈ s.registry_.retire_queue_)
  | retiring (thread : Nat) (snapshot : InferSnapshot) (held : Scheduler)
      (hretires : (s.threads thread).retires = some snapshot) (hheld : snapshot.scheduler = some held)
      (hid : held.id = scheduler)

def builds (s : State) : Nat → Option (String × Wait) := fun thread => (s.threads thread).holds

/-- The invariant of the registry. A snapshot that outlives its handle's service
has a scheduler already told to stop. -/
structure Inv (s : State) : Prop where
  phased : s.registry_.Phased
  exclusive : Exclusive s.registry_.inFlight s.builds
  custody : Custody s.serves s.Displaced s.registry_.next_scheduler
  stopped : ∀ model_name slot snapshot scheduler, s.registry_.models_ model_name = some slot →
    slot.handle.state ≠ .ready → slot.active_snapshot = some snapshot →
    snapshot.scheduler = some scheduler → scheduler.id ∈ s.registry_.draining

end State

section Move

variable {s : State} {thread : Nat} {registry' : ModelRegistry} {pc' : Pc}

theorem Pc.notified_holds (pc : Pc) : pc.notified.holds = pc.holds := by cases pc <;> rfl
theorem Pc.notified_next (pc : Pc) : pc.notified.next = pc.next := by cases pc <;> rfl
theorem Pc.notified_retires (pc : Pc) : pc.notified.retires = pc.retires := by cases pc <;> rfl

@[simp] theorem State.move_registry_ : (s.move thread (registry', pc')).registry_ = registry' := rfl

@[simp] theorem State.move_threads_self : (s.move thread (registry', pc')).threads thread = pc' :=
  Function.update_self ..

/-- Another thread is at most woken. -/
theorem State.move_threads_ne {other : Nat} (hother : other ≠ thread) :
    (s.move thread (registry', pc')).threads other =
      if (s.threads thread).notifies then (s.threads other).notified else s.threads other := by
  simp only [State.move, Function.update_of_ne hother]
  split <;> rfl

/-- What a view of the threads shows after one of them has moved. -/
theorem State.move_view {β : Type*} (view : Pc → β)
    (hnotified : ∀ pc : Pc, view pc.notified = view pc) :
    (fun other => view ((s.move thread (registry', pc')).threads other)) =
      Function.update (fun other => view (s.threads other)) thread (view pc') := by
  funext other
  by_cases hother : other = thread
  · subst hother
    rw [State.move_threads_self, Function.update_self]
  · rw [State.move_threads_ne hother, Function.update_of_ne hother]
    split
    · exact hnotified _
    · rfl

/-- The builds under way after a thread has moved. -/
theorem State.move_builds :
    (s.move thread (registry', pc')).builds = Function.update s.builds thread pc'.holds :=
  State.move_view Pc.holds Pc.notified_holds

theorem State.move_retires_ne {other : Nat} (hother : other ≠ thread) :
    ((s.move thread (registry', pc')).threads other).retires = (s.threads other).retires := by
  rw [State.move_threads_ne hother]
  split
  · exact Pc.notified_retires _
  · rfl

/-- What the slots and the threads have, each seen its own way. -/
def State.places (s : State) (ofSlot : ModelSlot → Option Nat) (ofThread : Pc → Option Nat) : Place → Option Nat
  | .slot model_name => (s.registry_.models_ model_name).bind ofSlot
  | .thread thread => ofThread (s.threads thread)

theorem State.serves_eq_places (s : State) : s.serves = s.places ModelSlot.serves Pc.serves := by
  funext place
  cases place <;> rfl

theorem Pc.notified_serves (pc : Pc) : pc.notified.serves = pc.serves := by
  rw [Pc.serves, Pc.serves, Pc.notified_next]

variable {ofSlot : ModelSlot → Option Nat} {ofThread : Pc → Option Nat}

/-- The places after a step that replaced one slot. -/
theorem State.move_places (hnotified : ∀ pc : Pc, ofThread pc.notified = ofThread pc) {model_name : String}
    {slot' : Option ModelSlot}
    (hmodels : registry'.models_ = Function.update s.registry_.models_ model_name slot') :
    (s.move thread (registry', pc')).places ofSlot ofThread =
      Function.update (Function.update (s.places ofSlot ofThread) (.slot model_name) (slot'.bind ofSlot))
        (.thread thread) (ofThread pc') := by
  funext place
  cases place with
  | slot other =>
    rw [Function.update_of_ne (by simp)]
    by_cases hname : other = model_name
    · subst hname
      rw [Function.update_self]
      simp [places, hmodels]
    · rw [Function.update_of_ne (by simpa using hname)]
      simp [places, hmodels, Function.update_of_ne hname]
  | thread other =>
    have hview : ofThread ((s.move thread (registry', pc')).threads other) =
        Function.update (fun other => ofThread (s.threads other)) thread (ofThread pc') other :=
      congrFun (State.move_view ofThread hnotified) other
    by_cases hother : other = thread
    · subst hother
      rw [Function.update_self]
      simp [places]
    · rw [Function.update_of_ne (by simpa using hother), Function.update_of_ne (by simp)]
      simpa [places, hother] using hview

/-- The places after a thread has moved, with the slots as they were. -/
theorem State.move_places_same (hnotified : ∀ pc : Pc, ofThread pc.notified = ofThread pc)
    (hmodels : registry'.models_ = s.registry_.models_) :
    (s.move thread (registry', pc')).places ofSlot ofThread =
      Function.update (s.places ofSlot ofThread) (.thread thread) (ofThread pc') := by
  have hupdate : registry'.models_ = Function.update s.registry_.models_ "" (s.registry_.models_ "") := by
    rw [hmodels, Function.update_eq_self]
  have hsame : Function.update (s.places ofSlot ofThread) (.slot "") ((s.registry_.models_ "").bind ofSlot) =
      s.places ofSlot ofThread := Function.update_eq_self (Place.slot "") (s.places ofSlot ofThread)
  rw [State.move_places hnotified hupdate, hsame]

/-- Who serves after a thread has moved and one slot has changed. -/
theorem State.move_serves {model_name : String} {slot' : Option ModelSlot}
    (hmodels : registry'.models_ = Function.update s.registry_.models_ model_name slot') :
    (s.move thread (registry', pc')).serves =
      Function.update (Function.update s.serves (.slot model_name) (slot'.bind ModelSlot.serves))
        (.thread thread) pc'.serves := by
  rw [State.serves_eq_places, State.serves_eq_places, State.move_places Pc.notified_serves hmodels]

/-- Who serves after a thread has moved, with the slots as they were. -/
theorem State.move_serves_same (hmodels : registry'.models_ = s.registry_.models_) :
    (s.move thread (registry', pc')).serves = Function.update s.serves (.thread thread) pc'.serves := by
  rw [State.serves_eq_places, State.serves_eq_places, State.move_places_same Pc.notified_serves hmodels]

/-- What a step displaces is what it told to stop, retired, or took down. -/
theorem State.displaced_move {scheduler : Nat} {P : Prop}
    (hdraining : scheduler ∈ registry'.draining → s.Displaced scheduler ∨ P)
    (hretired : scheduler ∈ registry'.retire_queue_ → s.Displaced scheduler ∨ P)
    (hretires : ∀ snapshot held, pc'.retires = some snapshot → snapshot.scheduler = some held →
      held.id = scheduler → s.Displaced scheduler ∨ P)
    (hdisplaced : (s.move thread (registry', pc')).Displaced scheduler) : s.Displaced scheduler ∨ P := by
  cases hdisplaced with
  | stopped hmem => exact hdraining hmem
  | retired hmem => exact hretired hmem
  | retiring other snapshot held hother hheld hid =>
    by_cases hthread : other = thread
    · subst hthread
      rw [State.move_threads_self] at hother
      exact hretires snapshot held hother hheld hid
    · rw [State.move_retires_ne hthread] at hother
      exact .inl (.retiring other snapshot held hother hheld hid)

end Move

end neuriplo.registry
