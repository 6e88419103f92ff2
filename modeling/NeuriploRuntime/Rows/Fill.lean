import Mathlib.Data.List.Basic

namespace rows

variable {α : Type*} {values : Nat → α} {rest : α} {size count : Nat} {buffer : List α}

/-- A buffer whose first places hold their values. At the other places is what it was made of. -/
structure Filled (values : Nat → α) (rest : α) (size count : Nat) (buffer : List α) : Prop where
  length : buffer.length = size
  getElem? : ∀ place < size, buffer[place]? = some (if place < count then values place else rest)

/-- A buffer nothing was written to is filled up to its start. -/
theorem filled_replicate (values : Nat → α) (rest : α) (size : Nat) :
    Filled values rest size 0 (List.replicate size rest) := by
  refine ⟨List.length_replicate, fun place hplace => ?_⟩
  rw [List.getElem?_replicate_of_lt hplace, if_neg (Nat.not_lt_zero place)]

/-- Writing the next value fills one place more. -/
theorem Filled.set (hfilled : Filled values rest size count buffer) (hcount : count < size) :
    Filled values rest size (count + 1) (buffer.set count (values count)) := by
  refine ⟨by rw [List.length_set, hfilled.length], fun place hplace => ?_⟩
  by_cases hsame : place = count
  · subst hsame
    rw [List.getElem?_set_self (by rwa [hfilled.length]), if_pos (Nat.lt_succ_self place)]
  · have hnext : place < count + 1 ↔ place < count := by omega
    rw [List.getElem?_set_ne (Ne.symm hsame), hfilled.getElem? place hplace]
    simp only [hnext]

/-- Places whose value is already there may be left out. -/
theorem Filled.skip (hfilled : Filled values rest size count buffer) {next : Nat}
    (hrest : ∀ place, count ≤ place → place < next → values place = rest) (hnext : count ≤ next) :
    Filled values rest size next buffer := by
  refine ⟨hfilled.length, fun place hplace => ?_⟩
  rw [hfilled.getElem? place hplace]
  by_cases hbefore : place < count
  · rw [if_pos hbefore, if_pos (by omega)]
  · rw [if_neg hbefore]
    by_cases hskipped : place < next
    · rw [if_pos hskipped, hrest place (by omega) hskipped]
    · rw [if_neg hskipped]

/-- A list read at a fixed number of places is itself and its padding. -/
theorem map_range_getD (items : List α) (padding : α) (hfits : items.length ≤ size) :
    ((List.range size).map fun place => (items[place]?).getD padding) =
      items ++ List.replicate (size - items.length) padding := by
  refine List.ext_getElem (by simp; omega) fun place hplace _ => ?_
  rw [List.getElem_map, List.getElem_range]
  by_cases hitem : place < items.length
  · rw [List.getElem?_eq_getElem hitem, Option.getD_some, List.getElem_append_left hitem]
  · rw [List.getElem?_eq_none (by omega), Option.getD_none, List.getElem_append_right (by omega),
      List.getElem_replicate]

end rows
