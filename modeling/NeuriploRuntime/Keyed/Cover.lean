import Mathlib.Order.Defs.Unbundled
import NeuriploRuntime.Keyed.Find

namespace keyed

variable {α κ : Type*} [DecidableEq κ] (key : α → κ) (same : α → α → Prop)

/-- Each item of one list is like the first item under its key in another, which
has no keys of its own. -/
structure Covers (left right : List α) : Prop where
  found : ∀ item ∈ left, ∃ other, right.find? (key · = key item) = some other ∧ same item other
  keys : ∀ other ∈ right, ∃ item ∈ left, key item = key other

/-- The keys are the same, and the first items under each are alike. -/
structure FirstsAgree (left right : List α) : Prop where
  keys : ∀ wanted, wanted ∈ left.map key ↔ wanted ∈ right.map key
  firsts : ∀ wanted first other, left.find? (key · = wanted) = some first →
    right.find? (key · = wanted) = some other → same first other

/-- Items under one key are alike, each item like itself. -/
def Uniform (items : List α) : Prop := ∀ item ∈ items, ∀ other ∈ items, key other = key item → same item other

variable {key same} {left right : List α}

/-- A key that occurs has a first item. -/
theorem first_of_mem {items : List α} {wanted : κ} (hmem : wanted ∈ items.map key) :
    ∃ first, items.find? (key · = wanted) = some first ∧ first ∈ items ∧ key first = wanted := by
  cases hfind : items.find? (key · = wanted) with
  | none => exact absurd hmem (find?_eq_none_iff.mp hfind)
  | some first => exact ⟨first, rfl, mem_of_find? hfind⟩

theorem FirstsAgree.symm [Std.Symm same] (hagree : FirstsAgree key same left right) :
    FirstsAgree key same right left := by
  refine ⟨fun wanted => (hagree.keys wanted).symm, ?_⟩
  intro wanted other first hother hfirst
  exact Std.Symm.symm first other (hagree.firsts wanted first other hfirst hother)

theorem FirstsAgree.trans [IsTrans α same] {middle : List α} (hleft : FirstsAgree key same left middle)
    (hright : FirstsAgree key same middle right) : FirstsAgree key same left right := by
  refine ⟨fun wanted => (hleft.keys wanted).trans (hright.keys wanted), ?_⟩
  intro wanted first last hfirst hlast
  have hmem : wanted ∈ left.map key := by
    obtain ⟨hfirstMem, rfl⟩ := mem_of_find? hfirst
    exact List.mem_map_of_mem hfirstMem
  obtain ⟨between, hbetween, -⟩ := first_of_mem ((hleft.keys wanted).mp hmem)
  exact IsTrans.trans first between last (hleft.firsts wanted first between hfirst hbetween)
    (hright.firsts wanted between last hbetween hlast)

/-- A list agrees on the first items with one that covers it. -/
theorem Covers.firstsAgree (hcovers : Covers key same left right) : FirstsAgree key same left right := by
  refine ⟨fun wanted => ⟨?_, ?_⟩, ?_⟩
  · intro hmem
    obtain ⟨item, hitem, rfl⟩ := List.mem_map.mp hmem
    obtain ⟨other, hother, -⟩ := hcovers.found item hitem
    obtain ⟨hotherMem, hkey⟩ := mem_of_find? hother
    exact hkey ▸ List.mem_map_of_mem hotherMem
  · intro hmem
    obtain ⟨other, hother, rfl⟩ := List.mem_map.mp hmem
    obtain ⟨item, hitem, hkey⟩ := hcovers.keys other hother
    exact hkey ▸ List.mem_map_of_mem hitem
  · intro wanted first other hfirst hother
    obtain ⟨hmem, rfl⟩ := mem_of_find? hfirst
    obtain ⟨found, hfound, hsame⟩ := hcovers.found first hmem
    rw [hother] at hfound
    cases hfound
    exact hsame

/-- A covering list has like items under each key: the other list's first item is
like all of them. -/
theorem Covers.uniform [Std.Symm same] [IsTrans α same] (hcovers : Covers key same left right) :
    Uniform key same left := by
  intro item hitem other hother hkey
  obtain ⟨first, hfirst, hsame⟩ := hcovers.found item hitem
  obtain ⟨found, hfound, hsame'⟩ := hcovers.found other hother
  rw [hkey, hfirst] at hfound
  cases hfound
  exact IsTrans.trans item first other hsame (Std.Symm.symm other first hsame')

/-- Where all items of a key are alike, agreement on the first ones covers the
list. -/
theorem FirstsAgree.covers [IsTrans α same] (hagree : FirstsAgree key same left right)
    (huniform : Uniform key same left) : Covers key same left right := by
  refine ⟨?_, ?_⟩
  · intro item hitem
    have hmem : key item ∈ left.map key := List.mem_map_of_mem hitem
    obtain ⟨first, hfirst, hfirstMem, hkey⟩ := first_of_mem hmem
    obtain ⟨other, hother, -⟩ := first_of_mem ((hagree.keys (key item)).mp hmem)
    exact ⟨other, hother, IsTrans.trans item first other (huniform item hitem first hfirstMem hkey)
      (hagree.firsts (key item) first other hfirst hother)⟩
  · intro other hother
    exact List.mem_map.mp ((hagree.keys (key other)).mpr (List.mem_map_of_mem hother))

/-- Covering is symmetric but for the items behind the first under their key. -/
theorem covers_iff [Std.Symm same] [IsTrans α same] :
    Covers key same left right ↔ FirstsAgree key same left right ∧ Uniform key same left :=
  ⟨fun hcovers => ⟨hcovers.firstsAgree, hcovers.uniform⟩, fun ⟨hagree, huniform⟩ => hagree.covers huniform⟩

end keyed
