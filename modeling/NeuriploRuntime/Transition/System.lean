import Mathlib.Logic.Function.Basic
import NeuriploRuntime.Transition.Update

namespace transition

/-- A labelled transition system: where it may start, and which events lead
from one state to the next. -/
structure System (State Event : Type*) where
  init : State → Prop
  step : State → Event → State → Prop

variable {State Event : Type*}

namespace System

/-- A finite run, as the states passed through before the current one, latest
first. The history is what properties of the form "at some moment of the call"
speak about. -/
inductive Run (sys : System State Event) : List State → State → Prop
  | start {s : State} (hinit : sys.init s) : Run sys [] s
  | next {history : List State} {s s' : State} {event : Event}
      (hrun : Run sys history s) (hstep : sys.step s event s') : Run sys (s :: history) s'

/-- The states some run ends in. -/
def Reachable (sys : System State Event) (s : State) : Prop :=
  ∃ history, sys.Run history s

/-- The runs all of whose steps meet a condition on the state before the step
and on its event. -/
def restrict (sys : System State Event) (condition : State → Event → Prop) : System State Event where
  init := sys.init
  step s event s' := sys.step s event s' ∧ condition s event

variable {sys : System State Event}

theorem Reachable.start {s : State} (hinit : sys.init s) : sys.Reachable s :=
  ⟨[], .start hinit⟩

theorem Reachable.next {s s' : State} {event : Event} (hreach : sys.Reachable s)
    (hstep : sys.step s event s') : sys.Reachable s' := by
  obtain ⟨history, hrun⟩ := hreach
  exact ⟨s :: history, hrun.next hstep⟩

theorem Run.reachable {history : List State} {s : State} (hrun : sys.Run history s) :
    sys.Reachable s :=
  ⟨history, hrun⟩

/-- Every state a run passed through is itself reachable. -/
theorem Run.reachable_of_mem {history : List State} {s : State} (hrun : sys.Run history s)
    {earlier : State} (hmem : earlier ∈ history) : sys.Reachable earlier := by
  induction hrun with
  | start => simp at hmem
  | next hrun _ ih =>
    obtain rfl | hmem := List.mem_cons.mp hmem
    · exact hrun.reachable
    · exact ih hmem

/-- The run rule: what holds of the empty history and is kept by every step
holds of every run. The step may use any state already known to be reachable. -/
theorem Run.induction {motive : List State → State → Prop}
    (start : ∀ s, sys.init s → motive [] s)
    (next : ∀ history s event s', sys.Run history s → motive history s → sys.step s event s' →
      motive (s :: history) s')
    {history : List State} {s : State} (hrun : sys.Run history s) : motive history s := by
  induction hrun with
  | start hinit => exact start _ hinit
  | next hrun hstep ih => exact next _ _ _ _ hrun ih hstep

/-- The invariant rule. -/
theorem Reachable.invariant {inv : State → Prop} (start : ∀ s, sys.init s → inv s)
    (next : ∀ s event s', sys.Reachable s → inv s → sys.step s event s' → inv s')
    {s : State} (hreach : sys.Reachable s) : inv s := by
  obtain ⟨history, hrun⟩ := hreach
  exact Run.induction (motive := fun _ s => inv s) start
    (fun _ s event s' hrun ih hstep => next s event s' hrun.reachable ih hstep) hrun

/-- What every step keeps holds from any moment of a run on. -/
theorem Run.stable {holds : State → Prop}
    (next : ∀ s event s', sys.Reachable s → holds s → sys.step s event s' → holds s')
    {history : List State} {s : State} (hrun : sys.Run history s) : ∀ moment ∈ history, holds moment → holds s := by
  induction hrun with
  | start => exact nofun
  | next hrun hstep ih =>
    intro moment hmem hholds
    obtain rfl | hmem := List.mem_cons.mp hmem
    · exact next _ _ _ hrun.reachable hholds hstep
    · exact next _ _ _ hrun.reachable (ih moment hmem hholds) hstep

/-- A run of a system is one of any system with more starts and more steps. -/
theorem Run.of_le {sys' : System State Event} (hinit : ∀ s, sys.init s → sys'.init s)
    (hstep : ∀ s event s', sys.step s event s' → sys'.step s event s') {history : List State} {s : State}
    (hrun : sys.Run history s) : sys'.Run history s := by
  induction hrun with
  | start hstart => exact .start (hinit _ hstart)
  | next _ hnext ih => exact ih.next (hstep _ _ _ hnext)

/-- A run that meets a condition is a run. -/
theorem Run.of_restrict {condition : State → Event → Prop} {history : List State} {s : State}
    (hrun : (sys.restrict condition).Run history s) : sys.Run history s := by
  refine Run.of_le ?_ ?_ hrun
  · intro s hinit
    exact hinit
  · intro s event s' hstep
    exact hstep.1

theorem Reachable.of_restrict {condition : State → Event → Prop} {s : State}
    (hreach : (sys.restrict condition).Reachable s) : sys.Reachable s := by
  obtain ⟨history, hrun⟩ := hreach
  exact ⟨history, hrun.of_restrict⟩

/-- The runs that meet a condition meet every weaker one. -/
theorem Run.weaken {condition weaker : State → Event → Prop}
    (hweaker : ∀ s event, condition s event → weaker s event) {history : List State} {s : State}
    (hrun : (sys.restrict condition).Run history s) : (sys.restrict weaker).Run history s := by
  refine Run.of_le ?_ ?_ hrun
  · intro s hinit
    exact hinit
  · intro s event s' hstep
    exact ⟨hstep.1, hweaker _ _ hstep.2⟩

/-- What is reachable under a condition is reachable under every weaker one. -/
theorem Reachable.weaken {condition weaker : State → Event → Prop}
    (hweaker : ∀ s event, condition s event → weaker s event) {s : State}
    (hreach : (sys.restrict condition).Reachable s) : (sys.restrict weaker).Reachable s := by
  obtain ⟨history, hrun⟩ := hreach
  exact ⟨history, hrun.weaken hweaker⟩

/-- The invariant rule for the runs that meet a condition: the step may use it. -/
theorem Reachable.invariant_of_restrict {condition : State → Event → Prop} {inv : State → Prop}
    (start : ∀ s, sys.init s → inv s)
    (next : ∀ s event s', sys.Reachable s → condition s event → inv s → sys.step s event s' → inv s')
    {s : State} (hreach : (sys.restrict condition).Reachable s) : inv s :=
  @Reachable.invariant _ _ (sys.restrict condition) inv start
    (fun s event s' hreach ih hstep => next s event s' hreach.of_restrict hstep.2 ih hstep.1) s hreach

/-- The refinement rule: if every step maps to a step of another system or
leaves the image alone, reachable states map to reachable states. -/
theorem Reachable.simulate {State' Event' : Type*} {sys' : System State' Event'} (project : State → State')
    (start : ∀ s, sys.init s → sys'.init (project s))
    (next : ∀ s event s', sys.Reachable s → sys.step s event s' →
      project s' = project s ∨ ∃ event', sys'.step (project s) event' (project s'))
    {s : State} (hreach : sys.Reachable s) : sys'.Reachable (project s) := by
  refine @Reachable.invariant _ _ sys (fun s => sys'.Reachable (project s)) ?_ ?_ s hreach
  · intro s hinit
    exact .start (start s hinit)
  · intro s event s' hreach ih hstep
    obtain hsame | ⟨event', hstep'⟩ := next s event s' hreach hstep
    · rw [hsame]
      exact ih
    · exact ih.next hstep'

/-- The system of a guarded step function: `none` where the event is not
enabled. -/
def ofStep (start : State) (step : State → Event → Option State) : System State Event where
  init s := s = start
  step s event s' := step s event = some s'

/-- Replays events from a state; `none` once one of them is not enabled. -/
def replay (step : State → Event → Option State) : State → List Event → Option State
  | s, [] => some s
  | s, event :: events => (step s event).bind fun s' => replay step s' events

/-- What a replay from the start ends in is reachable, so a concrete scenario
is settled by evaluating it. -/
theorem reachable_of_replay {start s : State} {step : State → Event → Option State}
    {events : List Event} (hreplay : replay step start events = some s) :
    (ofStep start step).Reachable s := by
  suffices ∀ events from_, (ofStep start step).Reachable from_ → replay step from_ events = some s →
      (ofStep start step).Reachable s from
    this events start (Reachable.start rfl) hreplay
  intro events
  induction events with
  | nil =>
    intro from_ hreach hreplay
    simp only [replay, Option.some.injEq] at hreplay
    exact hreplay ▸ hreach
  | cons event events ih =>
    intro from_ hreach hreplay
    obtain ⟨s', hstep, hrest⟩ := Option.bind_eq_some_iff.mp hreplay
    exact ih s' (hreach.next hstep) hrest

/-- What commutes with every step commutes with a replay. -/
theorem replay_map {State' Event' : Type*} {step : State → Event → Option State}
    {step' : State' → Event' → Option State'} {project : State → State'} {translate : Event → Event'}
    (hstep : ∀ s event, step' (project s) (translate event) = (step s event).map project) (events : List Event)
    (s : State) : replay step' (project s) (events.map translate) = (replay step s events).map project := by
  induction events generalizing s with
  | nil => rfl
  | cons event events ih =>
    rw [List.map_cons, replay, replay, hstep]
    cases step s event with
    | none => rfl
    | some s' => exact ih s'

/-- Replays events and keeps the states passed through, latest first. -/
def trace (step : State → Event → Option State) : List State → State → List Event → Option (List State × State)
  | history, s, [] => some (history, s)
  | history, s, event :: events => (step s event).bind fun s' => trace step (s :: history) s' events

/-- A trace of the step function is a run, with the states it passed through. -/
theorem run_of_trace {start s : State} {step : State → Event → Option State} {events : List Event}
    {history : List State} (htrace : trace step [] start events = some (history, s)) :
    (ofStep start step).Run history s := by
  suffices ∀ events earlier from_, (ofStep start step).Run earlier from_ →
      trace step earlier from_ events = some (history, s) → (ofStep start step).Run history s from
    this events [] start (Run.start rfl) htrace
  intro events
  induction events with
  | nil =>
    intro earlier from_ hrun htrace
    simp only [trace, Option.some.injEq, Prod.mk.injEq] at htrace
    obtain ⟨rfl, rfl⟩ := htrace
    exact hrun
  | cons event events ih =>
    intro earlier from_ hrun htrace
    obtain ⟨s', hstep, hrest⟩ := Option.bind_eq_some_iff.mp htrace
    exact ih (from_ :: earlier) s' (hrun.next hstep) hrest

/-- The step function of the runs that meet a condition. -/
def guarded (condition : State → Event → Bool) (step : State → Event → Option State) (s : State)
    (event : Event) : Option State :=
  if condition s event then step s event else none

/-- A run of the guarded step function is one whose steps meet the condition. -/
theorem Run.of_guarded {start s : State} {step : State → Event → Option State}
    {condition : State → Event → Bool} {history : List State}
    (hrun : (ofStep start (guarded condition step)).Run history s) :
    ((ofStep start step).restrict fun s event => condition s event = true).Run history s := by
  refine Run.of_le ?_ ?_ hrun
  · intro s hinit
    exact hinit
  · intro s event s' hstep
    simp only [ofStep, guarded, Option.ite_none_right_eq_some] at hstep
    exact ⟨hstep.2, hstep.1⟩

end System

end transition
