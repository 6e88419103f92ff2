import Mathlib.Data.Set.Function

namespace store

variable {Key Value : Type*} [DecidableEq Key]

/-- A store agrees with another on every key that may still be read. Writing one
key of both makes them agree on it too. -/
theorem eqOn_update {live : Set Key} {values full : Key → Option Value} {key : Key}
    (hagree : Set.EqOn values full (live \ {key})) (value : Option Value) :
    Set.EqOn (Function.update values key value) (Function.update full key value) live := by
  intro other hother
  by_cases hkey : other = key
  · subst hkey
    simp
  · rw [Function.update_of_ne hkey, Function.update_of_ne hkey]
    exact hagree ⟨hother, hkey⟩

/-- What happens to a key that is never read again cannot be noticed. -/
theorem eqOn_update_left {live : Set Key} {values full : Key → Option Value} {key : Key}
    (hagree : Set.EqOn values full live) (hdead : key ∉ live) (value : Option Value) :
    Set.EqOn (Function.update values key value) full live := by
  intro other hother
  have hne : other ≠ key := fun heq => hdead (heq ▸ hother)
  rw [Function.update_of_ne hne]
  exact hagree hother

/-- Writes each key's index into a table, the groups of keys counted from
`index` on; a later write replaces an earlier one. -/
def lastRead : Nat → List (List Key) → (Key → Option Nat) → Key → Option Nat
  | _, [], table => table
  | index, keys :: rest, table =>
    lastRead (index + 1) rest (keys.foldl (fun table key => Function.update table key (some index)) table)

/-- Setting some keys to one value, one after the other. -/
theorem foldl_update (keys : List Key) (value : Option Value) (table : Key → Option Value) (key : Key) :
    keys.foldl (fun table key => Function.update table key value) table key =
      if key ∈ keys then value else table key := by
  induction keys generalizing table with
  | nil => simp
  | cons first keys ih =>
    rw [List.foldl_cons, ih, Function.update_apply]
    by_cases hrest : key ∈ keys
    · simp [hrest]
    · by_cases hfirst : key = first <;> simp [hrest, hfirst]

/-- Once the table holds an index for a key, later groups only raise it. -/
theorem lastRead_raises {index start : Nat} (groups : List (List Key)) {table : Key → Option Nat} {key : Key}
    (hstart : index ≤ start) (htable : ∃ value, table key = some value ∧ index ≤ value) :
    ∃ value, lastRead start groups table key = some value ∧ index ≤ value := by
  induction groups generalizing table start with
  | nil => exact htable
  | cons keys groups ih =>
    refine ih (Nat.le_succ_of_le hstart) ?_
    rw [foldl_update]
    split
    · exact ⟨start, rfl, hstart⟩
    · exact htable

/-- An index in the table is never below a group that has its key. -/
theorem le_of_lastRead {index last : Nat} {groups : List (List Key)} {table : Key → Option Nat} {key : Key}
    (hlast : lastRead index groups table key = some last) {position : Nat} {keys : List Key}
    (hkeys : groups[position]? = some keys) (hmem : key ∈ keys) : index + position ≤ last := by
  induction groups generalizing index table position with
  | nil => simp at hkeys
  | cons first groups ih =>
    rw [lastRead] at hlast
    cases position with
    | succ position =>
      have hle := ih hlast (by simpa using hkeys)
      omega
    | zero =>
      obtain rfl : first = keys := by simpa using hkeys
      have hwritten : ∃ value, first.foldl (fun table key => Function.update table key (some index)) table key =
          some value ∧ index ≤ value :=
        ⟨index, by rw [foldl_update, if_pos hmem], le_refl index⟩
      obtain ⟨value, hvalue, hle⟩ := lastRead_raises groups (Nat.le_succ index) hwritten
      rw [hvalue] at hlast
      cases hlast
      exact hle

end store
