import Mathlib.Data.List.Basic

namespace loops

variable {σ : Type*} (holds : Nat → σ → Prop) {start : σ}

/-- What the first turns of a counted loop keep, all of its turns keep. -/
theorem foldl_range {step : σ → Nat → σ} (hstart : holds 0 start)
    (hstep : ∀ index state, holds index state → holds (index + 1) (step state index)) (count : Nat) :
    holds count ((List.range count).foldl step start) := by
  induction count with
  | zero => exact hstart
  | succ count ih =>
    rw [List.range_succ, List.foldl_append]
    exact hstep count _ ih

/-- A counted loop ends when each of its turns does and keeps what the turns before have established. -/
theorem foldlM_range {step : σ → Nat → Option σ} {count : Nat} (hstart : holds 0 start)
    (hstep : ∀ index state, index < count → holds index state →
      ∃ next, step state index = some next ∧ holds (index + 1) next) :
    ∃ final, (List.range count).foldlM step start = some final ∧ holds count final := by
  induction count with
  | zero => exact ⟨start, rfl, hstart⟩
  | succ count ih =>
    obtain ⟨state, hstate, hholds⟩ := ih fun index state hindex => hstep index state (by omega)
    obtain ⟨final, hfinal, hlast⟩ := hstep count state (Nat.lt_succ_self count) hholds
    refine ⟨final, ?_, hlast⟩
    rw [List.range_succ, List.foldlM_append, hstate]
    simpa using hfinal

end loops
