import Mathlib.Logic.Function.Basic

namespace transition

section Families

variable {Index State : Type*} [DecidableEq Index]

/-- One of a family moves: the others are as before, and it is as it is now. -/
theorem update_or {family : Index → State} {index : Index} {state : State} {now : Index → State → Prop}
    (hnow : now index state) (other : Index) :
    Function.update family index state other = family other ∨ now other (Function.update family index state other) := by
  by_cases hother : other = index
  · rw [hother, Function.update_self]
    exact .inr hnow
  · exact .inl (Function.update_of_ne hother ..)

end Families

section Tables

variable {Entry Value : Type*} [DecidableEq Entry] {table : Entry → Option Value} {entry other : Entry} {value : Value}

/-- What a table holds after one entry was replaced. An entry may hold nothing. -/
theorem update_eq_some_iff {found : Option Value} :
    Function.update table entry found other = some value ↔
      other = entry ∧ found = some value ∨ other ≠ entry ∧ table other = some value := by
  by_cases hother : other = entry
  · rw [hother, Function.update_self]
    simp
  · rw [Function.update_of_ne hother]
    simp [hother]

/-- What a table holds after an entry is cleared. -/
theorem update_none_eq_some_iff :
    Function.update table entry none other = some value ↔ other ≠ entry ∧ table other = some value := by
  rw [update_eq_some_iff]
  simp

/-- What a table holds after an entry is set. -/
theorem update_some_eq_some_iff {value' : Value} :
    Function.update table entry (some value') other = some value ↔
      other = entry ∧ value' = value ∨ other ≠ entry ∧ table other = some value := by
  rw [update_eq_some_iff, Option.some.injEq]

/-- Replacing an entry that holds something leaves which entries do. -/
theorem update_some_eq_none_iff {value' : Value} (hentry : table entry = some value) :
    Function.update table entry (some value') other = none ↔ table other = none := by
  by_cases hother : other = entry
  · subst hother
    rw [Function.update_self, hentry]
    simp
  · rw [Function.update_of_ne hother]

end Tables

end transition
