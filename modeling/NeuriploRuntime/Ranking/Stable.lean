import Mathlib.Data.List.Nodup
import Mathlib.Order.Defs.Unbundled
import Mathlib.Order.Lattice

namespace ranking

variable {α κ : Type*} [LinearOrder κ] (key : α → κ)

/-- Greatest key first, and items of one key in the order they came in. -/
def ranked (items : List α) : List α := items.mergeSort fun left right => decide (key right ≤ key left)

/-- A comparator that looks at keys only orders weakly. -/
theorem strictWeakOrder_of_key {before : α → α → Prop} (hkey : ∀ left right, before left right ↔ key right < key left) :
    IsStrictWeakOrder α before where
  irrefl item h := lt_irrefl _ ((hkey item item).mp h)
  trans a b c hab hbc := (hkey a c).mpr (lt_trans ((hkey b c).mp hbc) ((hkey a b).mp hab))
  incomp_trans a b c hab hbc := by
    simp only [hkey, not_lt] at hab hbc ⊢
    exact ⟨hab.1.trans hbc.1, hbc.2.trans hab.2⟩

/-- Ranking neither loses nor repeats an item. -/
theorem ranked_perm (items : List α) : (ranked key items).Perm items := List.mergeSort_perm items _

private theorem ranked_trans (a b c : α) (hab : decide (key b ≤ key a) = true) (hbc : decide (key c ≤ key b) = true) :
    decide (key c ≤ key a) = true :=
  decide_eq_true ((of_decide_eq_true hbc).trans (of_decide_eq_true hab))

private theorem ranked_total (a b : α) : (decide (key b ≤ key a) || decide (key a ≤ key b)) = true := by
  simpa using le_total (key b) (key a)

/-- Ranked items stand in descending order. -/
theorem ranked_descending (items : List α) : (ranked key items).Pairwise fun left right => key right ≤ key left :=
  (List.pairwise_mergeSort (ranked_trans key) (ranked_total key) items).imp of_decide_eq_true

/-- Ranking leaves the items of one key as they were. -/
theorem filter_ranked (items : List α) (value : κ) :
    (ranked key items).filter (key · = value) = items.filter (key · = value) := by
  have hequal : (items.filter (key · = value)).Pairwise fun left right => decide (key right ≤ key left) = true := by
    refine List.pairwise_of_forall_mem_list fun left hleft right hright => ?_
    simp only [List.mem_filter, decide_eq_true_eq] at hleft hright
    simp [hleft.2, hright.2]
  have hsublist : (items.filter (key · = value)).Sublist (ranked key items) :=
    List.sublist_mergeSort (ranked_trans key) (ranked_total key) hequal List.filter_sublist
  have hkept := hsublist.filter (key · = value)
  rw [List.filter_filter, List.filter_congr fun item _ => Bool.and_self _] at hkept
  refine (hkept.eq_of_length ?_).symm
  exact ((ranked_perm key items).filter _).length_eq.symm

/-- Where the keys are the same, an order of the items survives. -/
theorem ranked_stable {order : α → α → Prop} {items : List α} (horder : items.Pairwise order) :
    (ranked key items).Pairwise fun left right => key right < key left ∨ key right = key left ∧ order left right := by
  rw [List.pairwise_iff_forall_sublist]
  intro left right hpair
  obtain hlt | hsame := ((List.pairwise_iff_forall_sublist.mp (ranked_descending key items)) hpair).lt_or_eq
  · exact .inl hlt
  · have hfiltered := hpair.filter (key · = key left)
    rw [filter_ranked, List.filter_cons_of_pos (by simp), List.filter_cons_of_pos (by simp [hsame])] at hfiltered
    exact .inr ⟨hsame, List.pairwise_iff_forall_sublist.mp horder (hfiltered.trans List.filter_sublist)⟩

/-- What a cut of a ranking at `cap` keeps of the items. -/
structure Top (order : α → α → Prop) (items : List α) (cap : Nat) (kept : List α) : Prop where
  length : kept.length = min items.length cap
  subset : ∀ item ∈ kept, item ∈ items
  descending : kept.Pairwise fun left right => key right < key left ∨ key right = key left ∧ order left right
  left_out : ∀ item ∈ items, item ∉ kept → ∀ other ∈ kept,
    key item < key other ∨ key item = key other ∧ order other item

/-- The first of the ranked items are the top ones, ties kept in the order of
the list. -/
theorem top_take_ranked {order : α → α → Prop} {items : List α} (horder : items.Pairwise order) (cap : Nat) :
    Top key order items cap ((ranked key items).take cap) := by
  have hstable := ranked_stable key horder
  have hmem : ∀ item, item ∈ ranked key items ↔ item ∈ items := fun item => (ranked_perm key items).mem_iff
  refine ⟨?_, fun item hitem => (hmem item).mp (List.mem_of_mem_take hitem),
    hstable.sublist (List.take_sublist _ _), ?_⟩
  · rw [List.length_take, (ranked_perm key items).length_eq, Nat.min_comm]
  · intro item hitem hout other hother
    rw [← List.take_append_drop cap (ranked key items), List.pairwise_append] at hstable
    refine hstable.2.2 other hother item ?_
    rw [← hmem, ← List.take_append_drop cap (ranked key items), List.mem_append] at hitem
    exact hitem.resolve_left hout

end ranking
