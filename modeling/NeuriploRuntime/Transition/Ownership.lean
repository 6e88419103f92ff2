import Mathlib.Logic.Equiv.Basic
import NeuriploRuntime.Transition.Update

namespace transition

/-- A table says of each resource whether it is taken, and how; each party claims
at most one resource. The table and the claims agree: what is claimed is taken
that way, by one party only, and nothing is taken without a party that claims it. -/
structure Exclusive {Resource Kind Party : Type*} (table : Resource → Option Kind)
    (claims : Party → Option (Resource × Kind)) : Prop where
  taken : ∀ party resource kind, claims party = some (resource, kind) → table resource = some kind
  unique : ∀ party party' resource kind kind', claims party = some (resource, kind) →
    claims party' = some (resource, kind') → party = party'
  held : ∀ resource kind, table resource = some kind → ∃ party, claims party = some (resource, kind)

namespace Exclusive

variable {Resource Kind Party : Type*} [DecidableEq Resource] [DecidableEq Party]
  {table : Resource → Option Kind} {claims : Party → Option (Resource × Kind)}

/-- A party without a claim takes a free resource. -/
theorem acquire (hexclusive : Exclusive table claims) {party : Party} {resource : Resource} {kind : Kind}
    (hfree : table resource = none) (hclaims : claims party = none) :
    Exclusive (Function.update table resource (some kind))
      (Function.update claims party (some (resource, kind))) := by
  have hnobody (other : Party) (kind' : Kind) : claims other ≠ some (resource, kind') := by
    intro hother
    have htaken := hexclusive.taken other resource kind' hother
    rw [hfree] at htaken
    cases htaken
  refine ⟨?_, ?_, ?_⟩
  · intro other resource' kind' hother
    rw [update_some_eq_some_iff] at hother ⊢
    obtain ⟨-, hclaim⟩ | ⟨-, hclaim⟩ := hother
    · cases hclaim
      exact .inl ⟨rfl, rfl⟩
    · have hresource : resource' ≠ resource := by
        rintro rfl
        exact hnobody other kind' hclaim
      exact .inr ⟨hresource, hexclusive.taken other resource' kind' hclaim⟩
  · intro first second resource' kind₁ kind₂ hfirst hsecond
    rw [update_some_eq_some_iff] at hfirst hsecond
    obtain ⟨hparty₁, hclaim₁⟩ | ⟨-, hclaim₁⟩ := hfirst <;> obtain ⟨hparty₂, hclaim₂⟩ | ⟨-, hclaim₂⟩ := hsecond
    · rw [hparty₁, hparty₂]
    · cases hclaim₁
      exact absurd hclaim₂ (hnobody second kind₂)
    · cases hclaim₂
      exact absurd hclaim₁ (hnobody first kind₁)
    · exact hexclusive.unique first second resource' kind₁ kind₂ hclaim₁ hclaim₂
  · intro resource' kind' htable
    rw [update_some_eq_some_iff] at htable
    obtain ⟨rfl, rfl⟩ | ⟨-, htaken⟩ := htable
    · exact ⟨party, Function.update_self ..⟩
    · obtain ⟨other, hother⟩ := hexclusive.held resource' kind' htaken
      have hparty : other ≠ party := by
        rintro rfl
        rw [hclaims] at hother
        cases hother
      exact ⟨other, update_some_eq_some_iff.mpr (.inr ⟨hparty, hother⟩)⟩

/-- The party that claims a resource gives it back. -/
theorem release (hexclusive : Exclusive table claims) {party : Party} {resource : Resource} {kind : Kind}
    (hclaims : claims party = some (resource, kind)) :
    Exclusive (Function.update table resource none) (Function.update claims party none) := by
  refine ⟨?_, ?_, ?_⟩
  · intro other resource' kind' hother
    rw [update_none_eq_some_iff] at hother ⊢
    obtain ⟨hparty, hclaim⟩ := hother
    refine ⟨?_, hexclusive.taken other resource' kind' hclaim⟩
    rintro rfl
    exact hparty (hexclusive.unique other party resource' kind' kind hclaim hclaims)
  · intro first second resource' kind₁ kind₂ hfirst hsecond
    rw [update_none_eq_some_iff] at hfirst hsecond
    exact hexclusive.unique first second resource' kind₁ kind₂ hfirst.2 hsecond.2
  · intro resource' kind' htable
    obtain ⟨hresource, htaken⟩ := update_none_eq_some_iff.mp htable
    obtain ⟨other, hother⟩ := hexclusive.held resource' kind' htaken
    have hparty : other ≠ party := by
      rintro rfl
      rw [hclaims] at hother
      cases hother
      exact hresource rfl
    exact ⟨other, update_none_eq_some_iff.mpr ⟨hparty, hother⟩⟩

end Exclusive

/-- No value is held in two places. -/
def Unshared {Place Value : Type*} (held : Place → Option Value) : Prop :=
  ∀ place place' value, held place = some value → held place' = some value → place = place'

namespace Unshared

variable {Place Value : Type*} [DecidableEq Place] {held : Place → Option Value}

/-- What one place lets go of stays unshared. -/
theorem drop (hunshared : Unshared held) (place : Place) :
    Unshared (Function.update held place none) := by
  intro first second value hfirst hsecond
  rw [update_none_eq_some_iff] at hfirst hsecond
  exact hunshared first second value hfirst.2 hsecond.2

/-- A value held nowhere else may be put anywhere. -/
theorem put (hunshared : Unshared held) {place : Place} {value : Value}
    (hfresh : ∀ other, other ≠ place → held other ≠ some value) :
    Unshared (Function.update held place (some value)) := by
  intro first second value' hfirst hsecond
  rw [update_some_eq_some_iff] at hfirst hsecond
  obtain ⟨hplace₁, rfl⟩ | ⟨hne₁, hheld₁⟩ := hfirst <;> obtain ⟨hplace₂, hvalue₂⟩ | ⟨hne₂, hheld₂⟩ := hsecond
  · rw [hplace₁, hplace₂]
  · exact absurd hheld₂ (hfresh second hne₂)
  · rw [← hvalue₂] at hheld₁
    exact absurd hheld₁ (hfresh first hne₁)
  · exact hunshared first second value' hheld₁ hheld₂

/-- A value moves from one place to another, whatever was there before. -/
theorem move (hunshared : Unshared held) {source target : Place} {value : Value}
    (hsource : held source = some value) (hne : source ≠ target) :
    Unshared (Function.update (Function.update held target (some value)) source none) := by
  rw [Function.update_comm hne.symm]
  refine (hunshared.drop source).put ?_
  intro other _ hother
  obtain ⟨hplace, hheld⟩ := update_none_eq_some_iff.mp hother
  exact hplace (hunshared other source value hheld hsource)

end Unshared

/-- Values are numbered as they are created. Each is held in at most one place, and
once it is gone it is never held again. -/
structure Custody {Place : Type*} (held : Place → Option Nat) (gone : Nat → Prop) (next : Nat) : Prop where
  unshared : Unshared held
  held_lt : ∀ place value, held place = some value → value < next
  gone_lt : ∀ value, gone value → value < next
  live : ∀ place value, held place = some value → ¬ gone value

namespace Custody

variable {Place : Type*} {held held' : Place → Option Nat} {gone gone' : Nat → Prop} {next next' : Nat}

/-- Custody does not mind numbers that were skipped. -/
theorem mono (hcustody : Custody held gone next) (hle : next ≤ next') : Custody held gone next' where
  unshared := hcustody.unshared
  held_lt place value hheld := Nat.lt_of_lt_of_le (hcustody.held_lt place value hheld) hle
  gone_lt value hgone := Nat.lt_of_lt_of_le (hcustody.gone_lt value hgone) hle
  live := hcustody.live

/-- Values may be let go of, and what is let go of may be gone. -/
theorem shrink (hcustody : Custody held gone next)
    (hheld : ∀ place value, held' place = some value → held place = some value)
    (hgone : ∀ value, gone' value → gone value ∨ ∃ place, held place = some value ∧ held' place = none) :
    Custody held' gone' next where
  unshared place place' value hplace hplace' :=
    hcustody.unshared place place' value (hheld _ _ hplace) (hheld _ _ hplace')
  held_lt place value hplace := hcustody.held_lt place value (hheld _ _ hplace)
  gone_lt value hvalue := by
    obtain hvalue | ⟨place, hplace, -⟩ := hgone value hvalue
    · exact hcustody.gone_lt value hvalue
    · exact hcustody.held_lt place value hplace
  live place value hplace hvalue := by
    obtain hvalue | ⟨place', hplace', hnone⟩ := hgone value hvalue
    · exact hcustody.live place value (hheld _ _ hplace) hvalue
    · have heq := hcustody.unshared place place' value (hheld _ _ hplace) hplace'
      rw [heq, hnone] at hplace
      cases hplace

variable [DecidableEq Place]

/-- Two places exchange what they hold. -/
theorem swap (hcustody : Custody held gone next) (source target : Place) :
    Custody (Function.update (Function.update held target (held source)) source (held target)) gone next := by
  have hswap : Function.update (Function.update held target (held source)) source (held target) =
      held ∘ Equiv.swap source target := by
    funext place
    by_cases hsource : place = source
    · subst hsource
      rw [Function.update_self, Function.comp_apply, Equiv.swap_apply_left]
    · rw [Function.update_of_ne hsource]
      by_cases htarget : place = target
      · subst htarget
        rw [Function.update_self, Function.comp_apply, Equiv.swap_apply_right]
      · rw [Function.update_of_ne htarget, Function.comp_apply, Equiv.swap_apply_of_ne_of_ne hsource htarget]
  rw [hswap]
  refine ⟨?_, fun place => hcustody.held_lt _, hcustody.gone_lt, fun place => hcustody.live _⟩
  intro first second value hfirst hsecond
  exact (Equiv.swap source target).injective (hcustody.unshared _ _ value hfirst hsecond)

/-- A value moves to another place, and the value it replaces there is gone. -/
theorem move (hcustody : Custody held gone next) {source target : Place} {value : Nat}
    (hsource : held source = some value) (hne : source ≠ target)
    (hgone : ∀ other, gone' other → gone other ∨ held target = some other) :
    Custody (Function.update (Function.update held target (some value)) source none) gone' next := by
  have hcases (place : Place) (other : Nat)
      (hheld : Function.update (Function.update held target (some value)) source none place = some other) :
      (place = target ∧ value = other) ∨ (place ≠ target ∧ held place = some other) :=
    update_some_eq_some_iff.mp (update_none_eq_some_iff.mp hheld).2
  refine ⟨hcustody.unshared.move hsource hne, ?_, ?_, ?_⟩
  · intro place other hheld
    obtain ⟨-, rfl⟩ | ⟨-, hheld⟩ := hcases place other hheld
    · exact hcustody.held_lt source value hsource
    · exact hcustody.held_lt place other hheld
  · intro other hother
    obtain hother | htarget := hgone other hother
    · exact hcustody.gone_lt other hother
    · exact hcustody.held_lt target other htarget
  · intro place other hheld hother
    obtain ⟨-, rfl⟩ | ⟨htarget, hheld⟩ := hcases place other hheld
    · obtain hother | hold := hgone value hother
      · exact hcustody.live source value hsource hother
      · exact hne (hcustody.unshared source target value hsource hold)
    · obtain hother | hold := hgone other hother
      · exact hcustody.live place other hheld hother
      · exact htarget (hcustody.unshared place target other hheld hold)

/-- The next value is created in a place. -/
theorem create (hcustody : Custody held gone next) (place : Place) :
    Custody (Function.update held place (some next)) gone (next + 1) := by
  refine ⟨hcustody.unshared.put ?_, ?_, ?_, ?_⟩
  · intro other _ hother
    exact absurd (hcustody.held_lt other next hother) (Nat.lt_irrefl next)
  · intro other value hheld
    obtain ⟨-, rfl⟩ | ⟨-, hheld⟩ := update_some_eq_some_iff.mp hheld
    · exact Nat.lt_succ_self next
    · exact Nat.lt_succ_of_lt (hcustody.held_lt other value hheld)
  · intro value hvalue
    exact Nat.lt_succ_of_lt (hcustody.gone_lt value hvalue)
  · intro other value hheld hvalue
    obtain ⟨-, rfl⟩ | ⟨-, hheld⟩ := update_some_eq_some_iff.mp hheld
    · exact absurd (hcustody.gone_lt next hvalue) (Nat.lt_irrefl next)
    · exact hcustody.live other value hheld hvalue

end Custody

end transition
