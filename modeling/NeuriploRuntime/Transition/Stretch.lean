import Mathlib.Algebra.BigOperators.Group.List.Basic
import Mathlib.Algebra.Order.Ring.Int
import NeuriploRuntime.Transition.System

namespace transition

variable {State Event : Type*}

/-- A step as it was taken. -/
structure Taken (State Event : Type*) where
  source : State
  event : Event
  target : State

namespace System

/-- A stretch of a run that stays in some states: the steps taken in it, in
order. -/
inductive Stretch (sys : System State Event) (stay : State → Prop) : State → List (Taken State Event) → State → Prop
  | nil {s : State} (hstay : stay s) : Stretch sys stay s [] s
  | cons {s s' t : State} {event : Event} {steps : List (Taken State Event)} (hstay : stay s)
      (hstep : sys.step s event s') (hrest : Stretch sys stay s' steps t) :
      Stretch sys stay s (⟨s, event, s'⟩ :: steps) t

variable {sys : System State Event} {stay : State → Prop} {s t : State} {steps : List (Taken State Event)}

theorem Stretch.stays (hstretch : sys.Stretch stay s steps t) : stay s := by
  cases hstretch <;> assumption

/-- What every step keeps holds all along the stretch. -/
theorem Stretch.along {holds : State → Prop}
    (hkept : ∀ s event s', sys.Reachable s → holds s → sys.step s event s' → holds s') (hreach : sys.Reachable s)
    (hholds : holds s) (hstretch : sys.Stretch stay s steps t) :
    sys.Stretch (fun s => stay s ∧ holds s) s steps t := by
  induction hstretch with
  | nil hstay => exact .nil ⟨hstay, hholds⟩
  | cons hstay hstep _ ih =>
    exact .cons ⟨hstay, hholds⟩ hstep (ih (hreach.next hstep) (hkept _ _ _ hreach hholds hstep))

theorem Stretch.ends (hstretch : sys.Stretch stay s steps t) : stay t := by
  induction hstretch with
  | nil hstay => exact hstay
  | cons _ _ _ ih => exact ih

/-- A stretch that sets out from a reachable state ends in one. -/
theorem Stretch.reachable (hreach : sys.Reachable s) (hstretch : sys.Stretch stay s steps t) : sys.Reachable t := by
  induction hstretch with
  | nil => exact hreach
  | cons _ hstep _ ih => exact ih (hreach.next hstep)

/-- The potential rule: when every step pays its cost out of a potential and of
what it is credited, all steps together do. -/
theorem Stretch.pays (rank : State → Nat) (cost credit : Taken State Event → Nat)
    (hpays : ∀ s event s', sys.Reachable s → stay s → stay s' → sys.step s event s' →
      cost ⟨s, event, s'⟩ + rank s' ≤ rank s + credit ⟨s, event, s'⟩)
    (hreach : sys.Reachable s) (hstretch : sys.Stretch stay s steps t) :
    (steps.map cost).sum + rank t ≤ rank s + (steps.map credit).sum := by
  induction hstretch with
  | nil => simp
  | cons hstay hstep hrest ih =>
    have hfirst := hpays _ _ _ hreach hstay hrest.stays hstep
    have hothers := ih (hreach.next hstep)
    simp only [List.map_cons, List.sum_cons]
    omega

/-- The measure rule: when every step of a kind lowers a rank that no step raises,
there are no more of them than the rank at the start. -/
theorem Stretch.countP_le (rank : State → Nat) (kind : Taken State Event → Bool)
    (hlowers : ∀ s event s', sys.Reachable s → stay s → sys.step s event s' →
      (if kind ⟨s, event, s'⟩ then 1 else 0) + rank s' ≤ rank s)
    (hreach : sys.Reachable s) (hstretch : sys.Stretch stay s steps t) : steps.countP kind + rank t ≤ rank s := by
  induction hstretch with
  | nil => simp
  | cons hstay hstep _ ih =>
    have hfirst := hlowers _ _ _ hreach hstay hstep
    have hothers := ih (hreach.next hstep)
    rw [List.countP_cons]
    omega

/-- What holds of every step between states of the stretch holds of all of its
steps. -/
theorem Stretch.forall_mem {holds : Taken State Event → Prop}
    (hholds : ∀ s event s', sys.Reachable s → stay s → stay s' → sys.step s event s' → holds ⟨s, event, s'⟩)
    (hreach : sys.Reachable s) (hstretch : sys.Stretch stay s steps t) : ∀ step ∈ steps, holds step := by
  induction hstretch with
  | nil => simp
  | cons hstay hstep hrest ih =>
    exact List.forall_mem_cons.mpr ⟨hholds _ _ _ hreach hstay hrest.stays hstep, ih (hreach.next hstep)⟩

/-- A replay is a stretch of a run, wherever it starts. -/
theorem stretch_of_replay (start : State) {step : State → Event → Option State} {s t : State} {events : List Event}
    (hreplay : replay step s events = some t) :
    ∃ steps, (ofStep start step).Stretch (fun _ => True) s steps t ∧ steps.map (·.event) = events := by
  induction events generalizing s with
  | nil =>
    cases hreplay
    exact ⟨[], .nil trivial, rfl⟩
  | cons event events ih =>
    obtain ⟨s', hstep, hrest⟩ := Option.bind_eq_some_iff.mp hreplay
    obtain ⟨steps, hstretch, hevents⟩ := ih hrest
    refine ⟨⟨s, event, s'⟩ :: steps, .cons trivial hstep hstretch, ?_⟩
    rw [List.map_cons, hevents]

/-- A stretch of the guarded step function is one whose steps meet the
condition. -/
theorem Stretch.of_guarded {start : State} {step : State → Event → Option State} {condition : State → Event → Bool}
    {s t : State} {steps : List (Taken State Event)}
    (hstretch : (ofStep start (guarded condition step)).Stretch (fun _ => True) s steps t) :
    ((ofStep start step).restrict fun s event => condition s event = true).Stretch (fun _ => True) s steps t := by
  induction hstretch with
  | nil => exact .nil trivial
  | cons _ hstep _ ih =>
    simp only [ofStep, guarded, Option.ite_none_right_eq_some] at hstep
    exact .cons trivial ⟨hstep.2, hstep.1⟩ ih

end System

end transition
