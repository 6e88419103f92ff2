import Mathlib.Algebra.BigOperators.Group.Finset.Basic
import Mathlib.Algebra.BigOperators.Ring.Finset
import Mathlib.Algebra.Order.BigOperators.Group.Finset
import Mathlib.Data.Fintype.BigOperators

namespace transition

variable {Party : Type*} [Fintype Party]

/-- What a finite number of parties hold altogether. -/
def tally (held : Party → Nat) : Nat := ∑ party, held party

/-- No party holds more than all of them together. -/
theorem le_tally (held : Party → Nat) (party : Party) : held party ≤ tally held :=
  Finset.single_le_sum (fun _ _ => Nat.zero_le _) (Finset.mem_univ party)

theorem tally_eq_zero {held : Party → Nat} : tally held = 0 ↔ ∀ party, held party = 0 := by
  simp [tally]

/-- Parties that hold at most one each hold no more than there are parties. -/
theorem tally_le_card {held : Party → Nat} (hle : ∀ party, held party ≤ 1) : tally held ≤ Fintype.card Party := by
  rw [Fintype.card_eq_sum_ones]
  apply Finset.sum_le_sum
  intro party _
  exact hle party

theorem tally_mono {held more : Party → Nat} (hle : ∀ party, held party ≤ more party) : tally held ≤ tally more := by
  apply Finset.sum_le_sum
  intro party _
  exact hle party

/-- Shares that are bounded for each thing held. -/
theorem tally_le_mul {share held : Party → Nat} {bound : Nat} (hle : ∀ party, share party ≤ held party * bound) :
    tally share ≤ tally held * bound := by
  unfold tally
  rw [Finset.sum_mul]
  apply Finset.sum_le_sum
  intro party _
  exact hle party

variable [DecidableEq Party]

/-- One party's share is exchanged for another. -/
theorem tally_update (held : Party → Nat) (party : Party) (share : Nat) :
    tally (Function.update held party share) + held party = tally held + share := by
  unfold tally
  rw [Finset.sum_update_of_mem (Finset.mem_univ party)]
  have hsplit := Finset.add_sum_erase Finset.univ held (Finset.mem_univ party)
  rw [Finset.erase_eq] at hsplit
  omega

/-- Two parties hold no more than all of them together. -/
theorem add_le_tally (held : Party → Nat) {party other : Party} (hne : other ≠ party) :
    held party + held other ≤ tally held := by
  have hupdate := tally_update held party 0
  have hle := le_tally (Function.update held party 0) other
  rw [Function.update_of_ne hne] at hle
  omega

/-- When nobody holds more than one, and one party nothing, not everybody holds
one. -/
theorem tally_lt_card {held : Party → Nat} (hle : ∀ party, held party ≤ 1) (party : Party)
    (hnone : held party = 0) : tally held < Fintype.card Party := by
  have hupdate := tally_update held party 1
  have hbound : tally (Function.update held party 1) ≤ Fintype.card Party := by
    apply tally_le_card
    intro other
    by_cases hother : other = party
    · subst hother
      rw [Function.update_self]
    · rw [Function.update_of_ne hother]
      exact hle other
  omega

end transition
