import Mathlib.Data.List.Count
import NeuriploRuntime.Transition.System

namespace transition

variable {State Event Note : Type*}

namespace System

/-- A system beside which a log is kept: of a step that is worth a note, the
note is put in front of what was noted before. -/
def logged (sys : System State Event) (note : State → Event → Option Note) : System (State × List Note) Event where
  init s := sys.init s.1 ∧ s.2 = []
  step s event s' := sys.step s.1 event s'.1 ∧ s'.2 = (note s.1 event).toList ++ s.2

variable {sys : System State Event} {note : State → Event → Option Note}

/-- Keeping a log changes nothing about the system. -/
theorem Reachable.of_logged {s : State × List Note} (hreach : (sys.logged note).Reachable s) : sys.Reachable s.1 := by
  refine @Reachable.invariant _ _ (sys.logged note) (fun s => sys.Reachable s.1) ?_ ?_ s hreach
  · intro s hinit
    exact .start hinit.1
  · intro s event s' _ ih hstep
    exact ih.next hstep.1

/-- Every run can be logged. -/
theorem Reachable.logged {s : State} (hreach : sys.Reachable s) :
    ∃ log : List Note, (sys.logged note).Reachable (s, log) := by
  refine @Reachable.invariant _ _ sys (fun s => ∃ log : List Note, (sys.logged note).Reachable (s, log)) ?_ ?_ s hreach
  · intro s hinit
    exact ⟨[], .start ⟨hinit, rfl⟩⟩
  · rintro s event s' _ ⟨log, hlogged⟩ hstep
    exact ⟨_, hlogged.next ⟨hstep, rfl⟩⟩

/-- The invariant rule for a state and its log. -/
theorem Reachable.invariant_of_logged {inv : State → List Note → Prop} (start : ∀ s, sys.init s → inv s [])
    (next : ∀ s log event s', sys.Reachable s → inv s log → sys.step s event s' →
      inv s' ((note s event).toList ++ log))
    {s : State} {log : List Note} (hreach : (sys.logged note).Reachable (s, log)) : inv s log := by
  refine @Reachable.invariant _ _ (sys.logged note) (fun s => inv s.1 s.2) ?_ ?_ (s, log) hreach
  · rintro ⟨s, log⟩ ⟨hinit, hlog⟩
    subst hlog
    exact start s hinit
  · rintro ⟨s, log⟩ event ⟨s', log'⟩ hreach ih ⟨hstep, hlog⟩
    subst hlog
    exact next s log event s' hreach.of_logged ih hstep

/-- A counter that each step raises by the notes of one kind has the number of
these notes in the log. -/
theorem Reachable.counter_of_logged {counter : State → Nat} {kind : Note → Bool}
    (start : ∀ s, sys.init s → counter s = 0)
    (next : ∀ s event s', sys.step s event s' → counter s' = counter s + (note s event).toList.countP kind)
    {s : State} {log : List Note} (hreach : (sys.logged note).Reachable (s, log)) :
    counter s = log.countP kind := by
  refine @Reachable.invariant_of_logged _ _ _ sys note (fun s log => counter s = log.countP kind) ?_ ?_ _ _ hreach
  · intro s hinit
    rw [start s hinit]
    rfl
  · intro s log event s' _ ih hstep
    rw [next s event s' hstep, ih, List.countP_append, Nat.add_comm]

/-- The step function of a system with a log. -/
def logging (note : State → Event → Option Note) (step : State → Event → Option State) (s : State × List Note)
    (event : Event) : Option (State × List Note) :=
  (step s.1 event).map fun s' => (s', (note s.1 event).toList ++ s.2)

/-- A step of the guarded function is a step of the logged system. -/
theorem logged_of_logging {start : State} {step : State → Event → Option State} {s s' : State × List Note}
    {event : Event} (hstep : logging note step s event = some s') :
    ((ofStep start step).logged note).step s event s' := by
  obtain ⟨t, hnext, rfl⟩ := Option.map_eq_some_iff.mp hstep
  exact ⟨hnext, rfl⟩

/-- A run of the step function with a log is a logged run. -/
theorem Run.of_logging {start : State} {step : State → Event → Option State} {history : List (State × List Note)}
    {s : State × List Note} (hrun : (ofStep (start, []) (logging note step)).Run history s) :
    ((ofStep start step).logged note).Run history s := by
  refine Run.of_le ?_ ?_ hrun
  · rintro s rfl
    exact ⟨rfl, rfl⟩
  · intro s event s' hstep
    exact logged_of_logging hstep

/-- A run that meets a condition is a logged run that meets it. -/
theorem Run.of_logging_restrict {start : State} {step : State → Event → Option State}
    {condition : State × List Note → Event → Prop} {history : List (State × List Note)} {s : State × List Note}
    (hrun : ((ofStep (start, []) (logging note step)).restrict condition).Run history s) :
    (((ofStep start step).logged note).restrict condition).Run history s := by
  refine Run.of_le ?_ ?_ hrun
  · rintro s rfl
    exact ⟨rfl, rfl⟩
  · rintro s event s' ⟨hstep, hmeets⟩
    exact ⟨logged_of_logging hstep, hmeets⟩

end System

end transition
