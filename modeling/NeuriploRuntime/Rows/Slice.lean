import Mathlib.Algebra.BigOperators.Group.List.Basic
import Mathlib.Tactic.Ring

namespace rows

variable {α β : Type*} {size start count : Nat} {buffer : List α}

/-- `count` rows of `size` symbols each, from row `start` on. -/
def slice (size start count : Nat) (buffer : List α) : List α := (buffer.drop (start * size)).take (count * size)

/-- A slice inside the buffer has all of its rows. -/
theorem length_slice (hinside : (start + count) * size ≤ buffer.length) :
    (slice size start count buffer).length = count * size := by
  rw [Nat.add_mul] at hinside
  rw [slice, List.length_take, List.length_drop]
  omega

/-- The slice of all rows is the buffer. -/
theorem slice_whole (hlength : buffer.length ≤ count * size) : slice size 0 count buffer = buffer := by
  rw [slice, Nat.zero_mul, List.drop_zero, List.take_of_length_le hlength]

/-- A slice of a slice is a slice of the buffer. -/
theorem slice_slice {start' count' : Nat} (hinside : start' + count' ≤ count) :
    slice size start' count' (slice size start count buffer) = slice size (start + start') count' buffer := by
  have hmul : start' * size + count' * size ≤ count * size := by
    rw [← Nat.add_mul]
    exact Nat.mul_le_mul_right size hinside
  rw [slice, slice, slice, List.drop_take, List.drop_drop, List.take_take, ← Nat.add_mul, Nat.min_eq_left (by omega)]

/-- A longer slice ends with one more row. -/
theorem slice_succ (size start count : Nat) (buffer : List α) :
    slice size start (count + 1) buffer = slice size start count buffer ++ slice size (start + count) 1 buffer := by
  rw [slice, slice, slice, Nat.add_mul, List.take_add, List.drop_drop, Nat.add_mul]

/-- Buffers agree where they agree row by row. -/
theorem slice_ext {left right : List α} {start' : Nat}
    (hrows : ∀ row < count, slice size (start + row) 1 left = slice size (start' + row) 1 right) :
    slice size start count left = slice size start' count right := by
  induction count with
  | zero => simp [slice]
  | succ count ih =>
    have hbefore := ih fun row hrow => hrows row (Nat.lt_succ_of_lt hrow)
    rw [slice_succ size start, slice_succ size start', hrows count (Nat.lt_succ_self count), hbefore]

/-- A slice of rows given by their number is the rows of these numbers. -/
theorem slice_range {total : Nat} (rowOf : Nat → α) (hinside : start + count ≤ total) :
    slice 1 start count ((List.range total).map rowOf) = (List.range count).map fun row => rowOf (start + row) := by
  apply List.ext_getElem
  · simp only [slice, List.length_take, List.length_drop, List.length_map, List.length_range]
    omega
  · intro row hleft hright
    simp [slice]

/-- Cuts from each boundary to the next make up the buffer again. -/
theorem flatMap_cuts {boundary : Nat → Nat} (hzero : boundary 0 = 0)
    (hforward : ∀ index < count, boundary index ≤ boundary (index + 1)) :
    (List.range count).flatMap (fun index =>
      (buffer.drop (boundary index)).take (boundary (index + 1) - boundary index)) = buffer.take (boundary count) := by
  induction count with
  | zero => simp [hzero]
  | succ count ih =>
    have hlast := hforward count (Nat.lt_succ_self count)
    rw [List.range_succ, List.flatMap_append, ih fun index hindex => hforward index (Nat.lt_succ_of_lt hindex),
      List.flatMap_singleton, ← List.take_add, Nat.add_sub_cancel' hlast]

theorem getElem?_of_split {items before after : List β} {item : β} (hsplit : items = before ++ item :: after) :
    items[before.length]? = some item := by
  rw [hsplit, List.getElem?_append_right (le_refl _), Nat.sub_self, List.getElem?_cons_zero]

theorem split_of_getElem? {items : List β} {item : β} {index : Nat} (hindex : items[index]? = some item) :
    ∃ before after, items = before ++ item :: after ∧ before.length = index := by
  obtain ⟨hlt, hget⟩ := List.getElem?_eq_some_iff.mp hindex
  refine ⟨items.take index, items.drop (index + 1), ?_, ?_⟩
  · rw [← hget, List.cons_getElem_drop_succ, List.take_append_drop]
  · rw [List.length_take, Nat.min_eq_left (Nat.le_of_lt hlt)]

/-- The place of an item among the counts of all. -/
theorem map_at {items before after : List β} {item : β} (countOf : β → Nat) (hsplit : items = before ++ item :: after) :
    (items.map countOf).take before.length = before.map countOf ∧
      (items.map countOf).getD before.length 0 = countOf item := by
  rw [hsplit, List.map_append, List.map_cons]
  refine ⟨?_, ?_⟩
  · rw [List.take_append_of_le_length (by rw [List.length_map]), List.take_of_length_le (by rw [List.length_map])]
  · rw [List.getD_eq_getElem?_getD, List.getElem?_append_right (by rw [List.length_map]), List.length_map, Nat.sub_self,
      List.getElem?_cons_zero, Option.getD_some]

/-- Buffers with whole rows end to end have as many rows as all of them. -/
theorem length_flatMap_rows {items : List β} {rowsOf : β → List α} {countOf : β → Nat}
    (hexact : ∀ item ∈ items, (rowsOf item).length = countOf item * size) :
    (items.flatMap rowsOf).length = (items.map countOf).sum * size := by
  induction items with
  | nil => simp
  | cons item items ih =>
    obtain ⟨hfirst, hrest⟩ := List.forall_mem_cons.mp hexact
    rw [List.flatMap_cons, List.length_append, hfirst, ih hrest, List.map_cons, List.sum_cons, Nat.add_mul]

/-- In buffers put one behind the other, the rows of one of them begin where the
rows of those before it end, provided that these have no other symbols. -/
theorem slice_flatMap {before after : List β} {item : β} {rowsOf : β → List α} {countOf : β → Nat}
    (hexact : ∀ other ∈ before, (rowsOf other).length = countOf other * size)
    (hlong : countOf item * size ≤ (rowsOf item).length) :
    slice size (before.map countOf).sum (countOf item) ((before ++ item :: after).flatMap rowsOf) =
      slice size 0 (countOf item) (rowsOf item) := by
  have hlength := length_flatMap_rows hexact
  have hdrop : ((before ++ item :: after).flatMap rowsOf).drop ((before.map countOf).sum * size) =
      rowsOf item ++ after.flatMap rowsOf := by
    rw [List.flatMap_append, List.flatMap_cons, ← hlength, List.drop_left]
  rw [slice, slice, hdrop, Nat.zero_mul, List.drop_zero, List.take_append_of_le_length hlong]

end rows
