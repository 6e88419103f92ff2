import Mathlib.Data.List.Forall2

namespace fallible

variable {α β ε : Type}

/-- A computation that succeeds went through a value of its first part. -/
theorem bind_ok {first : Except ε α} {next : α → Except ε β} {result : β}
    (hbind : (first >>= next) = .ok result) : ∃ value, first = .ok value ∧ next value = .ok result := by
  cases first with
  | error error => cases hbind
  | ok value => exact ⟨value, rfl, hbind⟩

/-- Two fallible steps succeed when both do, the second on the first's value. -/
theorem bind_eq_ok {first : Except ε α} {next : α → Except ε β} {result : β} :
    (first >>= next) = .ok result ↔ ∃ value, first = .ok value ∧ next value = .ok result := by
  refine ⟨bind_ok, ?_⟩
  rintro ⟨value, rfl, hnext⟩
  exact hnext

/-- Fails where something is bad. -/
def refuse (bad : Prop) [Decidable bad] (error : ε) : Except ε Unit := if bad then .error error else .ok ()

/-- A refusal lets pass what is not bad. -/
theorem refuse_eq_ok {bad : Prop} [Decidable bad] {error : ε} {result : Unit} :
    refuse bad error = .ok result ↔ ¬bad := by
  unfold refuse
  split_ifs with hbad
  · exact iff_of_false nofun (not_not_intro hbad)
  · exact iff_of_true rfl hbad

/-- A pass over a list that succeeds succeeded on every item. -/
theorem mapM_inv {f : α → Except ε β} {items : List α} {results : List β}
    (hmap : items.mapM f = .ok results) : List.Forall₂ (fun item result => f item = .ok result) items results := by
  induction items generalizing results with
  | nil =>
    cases hmap
    exact .nil
  | cons item items ih =>
    rw [List.mapM_cons] at hmap
    obtain ⟨first, hfirst, hrest⟩ := bind_ok hmap
    obtain ⟨rest, hitems, hresults⟩ := bind_ok hrest
    cases hresults
    exact .cons hfirst (ih hitems)

/-- A pass that succeeds on every item is a map. -/
theorem mapM_ok {f : α → Except ε β} {g : α → β} {items : List α}
    (hok : ∀ item ∈ items, f item = .ok (g item)) : items.mapM f = .ok (items.map g) := by
  induction items with
  | nil => rfl
  | cons item items ih =>
    obtain ⟨hfirst, hrest⟩ := List.forall_mem_cons.mp hok
    rw [List.mapM_cons, hfirst, ih hrest]
    rfl

/-- A pass succeeds exactly when each item does. -/
theorem mapM_isOk {f : α → Except ε β} {items : List α} :
    (∃ results, items.mapM f = .ok results) ↔ ∀ item ∈ items, ∃ result, f item = .ok result := by
  induction items with
  | nil => exact iff_of_true ⟨[], rfl⟩ nofun
  | cons item items ih =>
    rw [List.mapM_cons, List.forall_mem_cons, ← ih]
    constructor
    · rintro ⟨results, hmap⟩
      obtain ⟨first, hfirst, hrest⟩ := bind_ok hmap
      obtain ⟨rest, hitems, -⟩ := bind_ok hrest
      exact ⟨⟨first, hfirst⟩, rest, hitems⟩
    · rintro ⟨⟨first, hfirst⟩, rest, hitems⟩
      rw [hfirst, hitems]
      exact ⟨_, rfl⟩

/-- A pass that fails fails on one of the items. -/
theorem mapM_error {f : α → Except ε β} {items : List α} {error : ε} (hmap : items.mapM f = .error error) :
    ∃ item ∈ items, f item = .error error := by
  induction items with
  | nil => cases hmap
  | cons item items ih =>
    rw [List.mapM_cons] at hmap
    cases hfirst : f item with
    | error first =>
      rw [hfirst] at hmap
      cases hmap
      exact ⟨item, List.mem_cons_self, hfirst⟩
    | ok result =>
      rw [hfirst] at hmap
      cases hrest : items.mapM f with
      | error rest =>
        simp only [bind, Except.bind, hrest, Except.error.injEq] at hmap
        subst hmap
        obtain ⟨other, hmem, hother⟩ := ih hrest
        exact ⟨other, List.mem_cons_of_mem item hmem, hother⟩
      | ok results =>
        simp only [bind, Except.bind, hrest] at hmap
        cases hmap

end fallible
