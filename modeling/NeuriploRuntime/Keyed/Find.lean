import Mathlib.Data.List.Forall2
import Mathlib.Data.List.Nodup

namespace keyed

variable {α β κ : Type*} [DecidableEq κ] {key : α → κ} {items : List α}

/-- What is found is in the list, under the key that was wanted. -/
theorem mem_of_find? {wanted : κ} {item : α} (hfind : items.find? (key · = wanted) = some item) :
    item ∈ items ∧ key item = wanted :=
  ⟨List.mem_of_find?_eq_some hfind, by simpa using List.find?_some hfind⟩

/-- Nothing is found exactly when no item has the key. -/
theorem find?_eq_none_iff {wanted : κ} : items.find? (key · = wanted) = none ↔ wanted ∉ items.map key := by
  simp

/-- With distinct keys, an item is found exactly under its own key. -/
theorem find?_eq_some_iff (hdistinct : (items.map key).Nodup) {wanted : κ} {item : α} :
    items.find? (key · = wanted) = some item ↔ item ∈ items ∧ key item = wanted := by
  refine ⟨mem_of_find?, ?_⟩
  rintro ⟨hmem, rfl⟩
  cases hfind : items.find? (key · = key item) with
  | none => exact absurd (List.mem_map_of_mem hmem) (find?_eq_none_iff.mp hfind)
  | some found =>
    obtain ⟨hfound, hkey⟩ := mem_of_find? hfind
    rw [List.inj_on_of_nodup_map hdistinct hfound hmem hkey]

variable {name : β → κ} {wanted : List β} {found : List α}

/-- What is found for some names has these names, in their order. -/
theorem map_key_of_found (hfound : List.Forall₂ (fun query item => items.find? (key · = name query) = some item)
    wanted found) : found.map key = wanted.map name := by
  induction hfound with
  | nil => rfl
  | cons hitem _ ih => rw [List.map_cons, List.map_cons, (mem_of_find? hitem).2, ih]

theorem mem_of_found (hfound : List.Forall₂ (fun query item => items.find? (key · = name query) = some item)
    wanted found) {item : α} (hmem : item ∈ found) : item ∈ items := by
  induction hfound with
  | nil => cases hmem
  | cons hitem _ ih =>
    obtain rfl | hrest := List.mem_cons.mp hmem
    · exact (mem_of_find? hitem).1
    · exact ih hrest

/-- Items looked up under a permutation of their distinct keys are the items in another order. -/
theorem perm_of_found (hfound : List.Forall₂ (fun query item => items.find? (key · = name query) = some item)
    wanted found) (hdistinct : (items.map key).Nodup) (hkeys : (items.map key).Perm (wanted.map name)) :
    found.Perm items := by
  have hmap : found.map key = wanted.map name := map_key_of_found hfound
  have hfoundDistinct : (found.map key).Nodup := by
    rw [hmap]
    exact hkeys.nodup_iff.mp hdistinct
  refine (List.perm_ext_iff_of_nodup hfoundDistinct.of_map hdistinct.of_map).mpr fun item => ?_
  refine ⟨mem_of_found hfound, fun hmem => ?_⟩
  have hkey : key item ∈ found.map key := by
    rw [hmap]
    exact hkeys.subset (List.mem_map_of_mem hmem)
  obtain ⟨other, hother, hsame⟩ := List.mem_map.mp hkey
  have hitem : other = item := List.inj_on_of_nodup_map hdistinct (mem_of_found hfound hother) hmem hsame
  exact hitem ▸ hother

end keyed
