import Mathlib.Algebra.Order.Floor.Div
import NeuriploRuntime.Transition.Tally

namespace transition

variable {Party : Type*} [Fintype Party]

/-- How many parties hold a resource. -/
def load (held : Party → Option Nat) (index : Nat) : Nat := tally fun party => if held party = some index then 1 else 0

/-- How many parties hold any resource. -/
def holders (held : Party → Option Nat) : Nat := tally fun party => if (held party).isSome then 1 else 0

/-- Parties hold at most one of `n` resources each, and take one held least. The
counters count, and no resource is held by more than its share of the parties,
rounded up. -/
structure Balanced (n : Nat) (counters : List Nat) (held : Party → Option Nat) : Prop where
  length : counters.length = n
  counts : ∀ index, counters[index]?.getD 0 = load held index
  bound : ∀ index, load held index ≤ Fintype.card Party ⌈/⌉ n

/-- The loads of the resources sum up to at most the holders. -/
theorem sum_load_le_holders (held : Party → Option Nat) (n : Nat) :
    ∑ index ∈ Finset.range n, load held index ≤ holders held := by
  unfold load holders tally
  rw [Finset.sum_comm]
  apply Finset.sum_le_sum
  intro party _
  cases hheld : held party with
  | none => simp
  | some taken =>
    simp only [Option.some.injEq, Option.isSome_some, ↓reduceIte, Finset.sum_ite_eq, Finset.mem_range]
    split <;> omega

/-- The sum of the counters, index by index. -/
theorem sum_eq_sum_range (counters : List Nat) :
    counters.sum = ∑ index ∈ Finset.range counters.length, counters[index]?.getD 0 := by
  induction counters with
  | nil => rfl
  | cons counter counters ih =>
    rw [List.length_cons, Finset.sum_range_succ', List.sum_cons, ih]
    simp only [List.getElem?_cons_succ, List.getElem?_cons_zero, Option.getD_some]
    exact Nat.add_comm ..

namespace Balanced

variable {n : Nat} {counters : List Nat} {held : Party → Option Nat}

/-- What is held is one of the resources. -/
theorem inside (hbalanced : Balanced n counters held) {party : Party} {index : Nat} (hheld : held party = some index) :
    index < n := by
  by_contra houtside
  have hcount := hbalanced.counts index
  rw [List.getElem?_eq_none (by rw [hbalanced.length]; omega)] at hcount
  have hle := le_tally (fun p => if held p = some index then 1 else 0) party
  rw [if_pos hheld] at hle
  unfold load at hcount
  simp only [Option.getD_none] at hcount
  omega

/-- The counters sum up to the number of parties that hold one. -/
theorem sum (hbalanced : Balanced n counters held) : counters.sum = holders held := by
  have hsum : counters.sum = ∑ index ∈ Finset.range n, load held index := by
    rw [sum_eq_sum_range, hbalanced.length]
    exact Finset.sum_congr rfl fun index _ => hbalanced.counts index
  rw [hsum]
  unfold load holders tally
  rw [Finset.sum_comm]
  apply Finset.sum_congr rfl
  intro party _
  cases hheld : held party with
  | none => simp [hheld]
  | some taken => simp [hheld, hbalanced.inside hheld]

end Balanced

variable [DecidableEq Party]

/-- A party that takes a resource adds one to the load of that resource only. -/
theorem load_update_of_none {held : Party → Option Nat} {party : Party} (hfree : held party = none)
    (index other : Nat) :
    load (Function.update held party (some index)) other = load held other + if index = other then 1 else 0 := by
  have hshares : (fun p => if Function.update held party (some index) p = some other then 1 else 0) =
      Function.update (fun p => if held p = some other then 1 else 0) party (if index = other then 1 else 0) := by
    funext p
    by_cases hp : p = party
    · subst hp
      rw [Function.update_self, Function.update_self]
      simp only [Option.some.injEq]
    · rw [Function.update_of_ne hp, Function.update_of_ne hp]
  have hupdate := tally_update (fun p => if held p = some other then 1 else 0) party (if index = other then 1 else 0)
  unfold load
  rw [hshares]
  simp only [hfree, reduceCtorEq, ↓reduceIte, Nat.add_zero] at hupdate
  exact hupdate

/-- A party that lets go of its resource takes one off that load only. -/
theorem load_update_of_some {held : Party → Option Nat} {party : Party} {index : Nat} (hheld : held party = some index)
    (other : Nat) :
    load (Function.update held party none) other + (if index = other then 1 else 0) = load held other := by
  have hshares : (fun p => if Function.update held party none p = some other then 1 else 0) =
      Function.update (fun p => if held p = some other then 1 else 0) party 0 := by
    funext p
    by_cases hp : p = party
    · subst hp
      rw [Function.update_self, Function.update_self]
      rfl
    · rw [Function.update_of_ne hp, Function.update_of_ne hp]
  have hupdate := tally_update (fun p => if held p = some other then 1 else 0) party 0
  unfold load
  rw [hshares]
  simp only [hheld, Option.some.injEq, Nat.add_zero] at hupdate
  exact hupdate

namespace Balanced

variable {n : Nat} {counters : List Nat} {held : Party → Option Nat}

/-- A free party takes a resource that is held least. -/
theorem acquire (hbalanced : Balanced n counters held) {party : Party} (hfree : held party = none) {index : Nat}
    (hindex : index < n) (hleast : ∀ other < n, load held index ≤ load held other) :
    Balanced n (counters.modify index (· + 1)) (Function.update held party (some index)) := by
  refine ⟨?_, ?_, ?_⟩
  · rw [List.length_modify, hbalanced.length]
  · intro other
    have hcount := hbalanced.counts other
    rw [load_update_of_none hfree, List.getElem?_modify, ← hcount]
    by_cases hother : index = other
    · subst hother
      have hlt : index < counters.length := by rw [hbalanced.length]; exact hindex
      simp [List.getElem?_eq_getElem hlt]
    · simp [hother]
  · intro other
    rw [load_update_of_none hfree]
    split
    · rename_i hother
      subst hother
      -- all resources are held at least as often, and one party holds none
      have hholders : holders held < Fintype.card Party := by
        unfold holders
        apply tally_lt_card ?_ party
        · rw [hfree]
          rfl
        · intro p
          split <;> omega
      have hsum : ∑ _other ∈ Finset.range n, load held index ≤ ∑ other ∈ Finset.range n, load held other :=
        Finset.sum_le_sum fun other hmem => hleast other (Finset.mem_range.mp hmem)
      rw [Finset.sum_const_nat fun _ _ => rfl, Finset.card_range] at hsum
      have hle := sum_load_le_holders held n
      rw [Nat.ceilDiv_eq_add_pred_div, Nat.le_div_iff_mul_le (by omega), Nat.add_mul, Nat.mul_comm]
      omega
    · exact hbalanced.bound other

/-- A party gives back what it holds. -/
theorem release (hbalanced : Balanced n counters held) {party : Party} {index : Nat} (hheld : held party = some index) :
    Balanced n (counters.modify index (· - 1)) (Function.update held party none) := by
  refine ⟨?_, ?_, ?_⟩
  · rw [List.length_modify, hbalanced.length]
  · intro other
    have hcount := hbalanced.counts other
    have hload := load_update_of_some hheld other
    rw [List.getElem?_modify]
    by_cases hother : index = other
    · subst hother
      have hlt : index < counters.length := by rw [hbalanced.length]; exact hbalanced.inside hheld
      rw [List.getElem?_eq_getElem hlt] at hcount ⊢
      simp only [↓reduceIte, Option.map_eq_map, Option.map_some, Option.getD_some] at hcount hload ⊢
      omega
    · simp only [hother, ↓reduceIte] at hload ⊢
      rw [Nat.add_zero] at hload
      rw [hload, ← hcount]
      cases counters[other]? <;> rfl
  · intro other
    have hload := load_update_of_some hheld other
    have hbound := hbalanced.bound other
    omega

end Balanced

end transition
