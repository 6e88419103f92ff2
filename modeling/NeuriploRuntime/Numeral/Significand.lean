import Mathlib.Algebra.Order.Ring.Int
import Mathlib.Data.Nat.Log

namespace numeral

variable {precision number : Nat}

/-- A number of at most `precision` significant bits: what remains of it without
trailing zeros is below `2 ^ precision`. -/
def HasSignificand (precision number : Nat) : Prop :=
  ∃ significand exponent, significand < 2 ^ precision ∧ number = significand * 2 ^ exponent

/-- The distance of the numbers of `precision` significant bits around a number. -/
def spacing (precision number : Nat) : Nat := 2 ^ (number.log2 + 1 - precision)

/-- The nearest number of `precision` significant bits, of two equally near ones
the even multiple of their distance. -/
def roundSignificand (precision number : Nat) : Nat :=
  let distance := spacing precision number
  let below := number / distance
  let rest := number % distance
  if 2 * rest < distance ∨ 2 * rest = distance ∧ below % 2 = 0 then below * distance else (below + 1) * distance

/-- The sign is kept. -/
def roundSigned (precision : Nat) (value : Int) : Int := value.sign * roundSignificand precision value.natAbs

/-- A number of at most so many bits has them as its significand. -/
theorem hasSignificand_of_lt (hlt : number < 2 ^ precision) : HasSignificand precision number :=
  ⟨number, 0, hlt, (Nat.mul_one number).symm⟩

/-- A number has no more than the precision's bits above its spacing. -/
theorem lt_spacing (precision number : Nat) : number < spacing precision number * 2 ^ precision := by
  calc number
      < 2 ^ (number.log2 + 1) := Nat.lt_log2_self
    _ ≤ 2 ^ (number.log2 + 1 - precision + precision) := Nat.pow_le_pow_right Nat.two_pos (by omega)
    _ = spacing precision number * 2 ^ precision := Nat.pow_add _ _ _

/-- A number has a significand of the precision exactly when its spacing divides
it. -/
theorem spacing_dvd_iff : spacing precision number ∣ number ↔ HasSignificand precision number := by
  constructor
  · rintro ⟨significand, hnumber⟩
    refine ⟨significand, number.log2 + 1 - precision, ?_, ?_⟩
    · have hlt := lt_spacing precision number
      apply Nat.lt_of_mul_lt_mul_left (a := spacing precision number)
      omega
    · rw [Nat.mul_comm]
      exact hnumber
  · rintro ⟨significand, exponent, hsignificand, hnumber⟩
    by_cases hzero : number = 0
    · rw [hzero]
      exact Nat.dvd_zero _
    · have hbound : number < 2 ^ (precision + exponent) := by
        rw [hnumber, Nat.pow_add]
        exact Nat.mul_lt_mul_of_pos_right hsignificand (Nat.two_pow_pos exponent)
      have hlog := (Nat.log2_lt hzero).mpr hbound
      have hdvd : spacing precision number ∣ 2 ^ exponent := Nat.pow_dvd_pow 2 (by omega)
      exact hdvd.trans ⟨significand, hnumber.trans (Nat.mul_comm _ _)⟩

theorem spacing_dvd_roundSignificand (precision number : Nat) :
    spacing precision number ∣ roundSignificand precision number := by
  unfold roundSignificand
  dsimp only
  split
  · exact Nat.dvd_mul_left _ _
  · exact Nat.dvd_mul_left _ _

/-- Rounding keeps exactly the numbers that have a significand of that size. -/
theorem roundSignificand_eq_self_iff :
    roundSignificand precision number = number ↔ HasSignificand precision number := by
  rw [← spacing_dvd_iff]
  constructor
  · intro heq
    have hdvd := spacing_dvd_roundSignificand precision number
    rwa [heq] at hdvd
  · intro hdvd
    have hpositive : 0 < spacing precision number := Nat.two_pow_pos _
    have hrest : number % spacing precision number = 0 := Nat.mod_eq_zero_of_dvd hdvd
    have hnear : 2 * (number % spacing precision number) < spacing precision number := by omega
    unfold roundSignificand
    rw [if_pos (.inl hnear)]
    exact Nat.div_mul_cancel hdvd

/-- Rounding keeps a signed number exactly when its magnitude has such a
significand. -/
theorem roundSigned_eq_self_iff {value : Int} :
    roundSigned precision value = value ↔ HasSignificand precision value.natAbs := by
  rw [← roundSignificand_eq_self_iff, roundSigned]
  constructor
  · intro heq
    have habs := congrArg Int.natAbs heq
    rw [Int.natAbs_mul, Int.natAbs_natCast] at habs
    by_cases hzero : value = 0
    · rw [hzero, Int.natAbs_zero, roundSignificand_eq_self_iff]
      exact hasSignificand_of_lt (Nat.two_pow_pos precision)
    · rw [Int.natAbs_sign_of_ne_zero hzero, Nat.one_mul] at habs
      exact habs
  · intro heq
    rw [heq, Int.sign_mul_natAbs]

end numeral
