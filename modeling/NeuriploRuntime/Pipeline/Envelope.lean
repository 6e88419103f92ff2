import Mathlib.Order.WithBot
import NeuriploRuntime.Ranking.Stable
import NeuriploRuntime.Tensor.Metadata

open neuriplo.tensor

namespace neuriplo.pipeline

/-- The entries of an envelope. -/
def kPipelineMaxDetections : Nat := 100

/-- What a type of floating-point numbers is compared by: its numbers are ordered, a NaN is none of
them. -/
structure FloatOrder (φ κ : Type*) where
  number : φ → Option κ

section Scores

variable {φ κ : Type*} [LinearOrder κ] (float : FloatOrder φ κ)

def FloatOrder.isnan (value : φ) : Bool := (float.number value).isNone

/-- `left > right`, which is false of a NaN. -/
def FloatOrder.greater (left right : φ) : Bool :=
  match float.number left, float.number right with
  | some left, some right => right < left
  | _, _ => false

/-- The comparator of the sort. -/
def ranksBefore (left right : φ) : Bool :=
  let left_nan := float.isnan left
  let right_nan := float.isnan right
  if left_nan || right_nan then !left_nan && right_nan else float.greater left right

/-- The indices of the scores, sorted stably by the comparator and cut. -/
def pipelineTopScoreIndices (scores : List φ) (cap : Nat) : List (Fin scores.length) :=
  let indices := (List.finRange scores.length).mergeSort fun left right =>
    !ranksBefore float scores[right] scores[left]
  if cap < indices.length then indices.take cap else indices

/-- Where a score ranks: a NaN below all numbers. -/
def FloatOrder.rank (value : φ) : WithBot κ := (float.number value).elim ⊥ fun number => (number : WithBot κ)

/-- One score ranks before another exactly when it is the larger, NaN being the
least. -/
theorem ranksBefore_iff (left right : φ) :
    ranksBefore float left right = true ↔ float.rank right < float.rank left := by
  unfold ranksBefore FloatOrder.isnan FloatOrder.greater FloatOrder.rank
  cases float.number left with
  | none => simp
  | some left =>
    cases float.number right with
    | none => simp
    | some right => simp

/-- Of all indices the best `cap`: in descending order of their scores, NaN behind all numbers, and in
their original order where scores are the same; what is left out ranks no better than what is kept, and
comes later where it ranks the same. -/
structure TopScores (scores : List φ) (cap : Nat) (kept : List (Fin scores.length)) : Prop where
  length : kept.length = min scores.length cap
  distinct : kept.Nodup
  descending : kept.Pairwise fun left right =>
    float.rank scores[right] < float.rank scores[left] ∨
      float.rank scores[right] = float.rank scores[left] ∧ left < right
  left_out : ∀ index, index ∉ kept → ∀ other ∈ kept,
    float.rank scores[index] < float.rank scores[other] ∨
      float.rank scores[index] = float.rank scores[other] ∧ other < index

/-- The indices kept are the first of those ranked by score. -/
theorem pipelineTopScoreIndices_eq (scores : List φ) (cap : Nat) :
    pipelineTopScoreIndices float scores cap =
      (ranking.ranked (fun index : Fin scores.length => float.rank scores[index])
        (List.finRange scores.length)).take cap := by
  have hcomparator : (fun left right : Fin scores.length => !ranksBefore float scores[right] scores[left]) =
      fun left right => decide (float.rank scores[right] ≤ float.rank scores[left]) := by
    funext left right
    rw [Bool.eq_iff_iff, Bool.not_eq_true', ← Bool.not_eq_true, ranksBefore_iff, decide_eq_true_eq, not_lt]
  unfold pipelineTopScoreIndices ranking.ranked
  simp only [hcomparator]
  split
  · rfl
  · rw [List.take_of_length_le (by omega)]

theorem topScores (scores : List φ) (cap : Nat) :
    TopScores float scores cap (pipelineTopScoreIndices float scores cap) := by
  have htop := ranking.top_take_ranked (fun index : Fin scores.length => float.rank scores[index])
    (List.pairwise_lt_finRange scores.length) cap
  rw [← pipelineTopScoreIndices_eq] at htop
  refine ⟨by simpa using htop.length, ?_, htop.descending, fun index => htop.left_out index (List.mem_finRange index)⟩
  refine htop.descending.imp fun {left right} horder hsame => ?_
  subst hsame
  exact horder.elim (lt_irrefl _) fun h => Nat.lt_irrefl _ h.2

/-- The best scores are kept, and the comparator that picks them is one a sort may be given. -/
theorem topScores_kept (scores : List φ) (cap : Nat) :
    TopScores float scores cap (pipelineTopScoreIndices float scores cap) ∧
      IsStrictWeakOrder (Fin scores.length) fun left right => ranksBefore float scores[left] scores[right] = true :=
  ⟨topScores float scores cap,
    ranking.strictWeakOrder_of_key (fun index : Fin scores.length => float.rank scores[index])
      fun left right => ranksBefore_iff float scores[left] scores[right]⟩

end Scores

end neuriplo.pipeline
