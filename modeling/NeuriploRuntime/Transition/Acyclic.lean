import Mathlib.Logic.Relation

namespace transition

open Relation

/-- No node leads back to itself. -/
def Acyclic {Node : Type*} (edge : Node → Node → Prop) : Prop :=
  ∀ node, ¬ TransGen edge node node

namespace Acyclic

variable {Node : Type*} {edge edge' : Node → Node → Prop}

/-- A graph with fewer edges has no cycles either. -/
theorem mono (hacyclic : Acyclic edge) (hsub : ∀ a b, edge' a b → edge a b) : Acyclic edge' := by
  intro node hcycle
  exact hacyclic node (TransGen.mono hsub node node hcycle)

/-- A path whose end goes on is a path of edges that go on. -/
theorem transGen_onward {a b : Node} (hpath : TransGen edge a b) (honward : ∃ c, edge b c) :
    TransGen (fun x y => edge x y ∧ ∃ z, edge y z) a b := by
  induction hpath with
  | single hedge => exact .single ⟨hedge, honward⟩
  | @tail b c _ hedge ih => exact (ih ⟨c, hedge⟩).tail ⟨hedge, honward⟩

/-- A node may be added in front of nodes that lead nowhere, with any edges
into it: no cycle can pass through it. -/
theorem insert (hacyclic : Acyclic edge) (added : Node)
    (hedges : ∀ a b, edge' a b → edge a b ∨ a = added ∨ b = added)
    (hsinks : ∀ b, edge' added b → ∀ c, ¬ edge' b c) : Acyclic edge' := by
  intro node hcycle
  obtain ⟨first, hfirst, -⟩ : ∃ b, edge' node b ∧ ReflTransGen edge' b node :=
    TransGen.head'_iff.mp hcycle
  have honward := transGen_onward hcycle ⟨first, hfirst⟩
  -- what goes on does not start at the added node
  have hsource {a b : Node} (hedge : edge' a b ∧ ∃ c, edge' b c) : a ≠ added := by
    rintro rfl
    obtain ⟨c, hc⟩ := hedge.2
    exact hsinks b hedge.1 c hc
  have hnode : node ≠ added := by
    obtain ⟨b, hedge, -⟩ := TransGen.head'_iff.mp honward
    exact hsource hedge
  suffices ∀ a, TransGen (fun x y => edge' x y ∧ ∃ z, edge' y z) a node → TransGen edge a node from
    hacyclic node (this node honward)
  intro a hpath
  induction hpath using TransGen.head_induction_on with
  | single hedge =>
    obtain hold | rfl | rfl := hedges _ _ hedge.1
    · exact .single hold
    · exact absurd rfl (hsource hedge)
    · exact absurd rfl hnode
  | head hedge hrest ih =>
    obtain hold | rfl | rfl := hedges _ _ hedge.1
    · exact .head hold ih
    · exact absurd rfl (hsource hedge)
    · obtain ⟨b, hnext, -⟩ := TransGen.head'_iff.mp hrest
      exact absurd rfl (hsource hnext)

end Acyclic

end transition
