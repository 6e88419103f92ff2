import Mathlib.Data.List.DropRight
import Mathlib.Data.Nat.Log
import NeuriploRuntime.Numeral.Double

namespace numeral

section RoundHalfEven

variable {numerator larger denominator bound : Nat}

/-- Rounding keeps the order. -/
theorem roundHalfEven_mono (hle : numerator ≤ larger) (denominator : Nat) :
    roundHalfEven numerator denominator ≤ roundHalfEven larger denominator := by
  have hbelow := Nat.div_le_div_right (c := denominator) hle
  have hnumerator := Nat.div_add_mod numerator denominator
  have hlarger := Nat.div_add_mod larger denominator
  simp only [roundHalfEven]
  obtain hless | hsame := hbelow.lt_or_eq
  · split <;> split <;> omega
  · rw [← hsame] at hlarger ⊢
    split <;> split <;> omega

/-- A whole number rounds to itself. -/
theorem roundHalfEven_mul (hpositive : 0 < denominator) (number : Nat) :
    roundHalfEven (number * denominator) denominator = number := by
  simp [roundHalfEven, Nat.mul_div_cancel number hpositive, hpositive]

/-- A multiple of a power of two is rounded to that multiple. -/
theorem roundHalfEven_mul_pow (number exponent factor : Nat) :
    roundHalfEven (number * 2 ^ exponent * factor) (2 ^ exponent) = number * factor := by
  rw [Nat.mul_right_comm, roundHalfEven_mul (Nat.two_pow_pos exponent)]

/-- Rounding stays below a whole bound. -/
theorem roundHalfEven_le (hpositive : 0 < denominator) (hle : numerator ≤ bound * denominator) :
    roundHalfEven numerator denominator ≤ bound :=
  (roundHalfEven_mono hle denominator).trans_eq (roundHalfEven_mul hpositive bound)

/-- Rounding stays above a whole bound. -/
theorem le_roundHalfEven (hpositive : 0 < denominator) (hle : bound * denominator ≤ numerator) :
    bound ≤ roundHalfEven numerator denominator := by
  have hbelow := (Nat.le_div_iff_mul_le hpositive).mpr hle
  simp only [roundHalfEven]
  split <;> omega

end RoundHalfEven

namespace Double

/-- What is nearest to a quotient among the integers of 53 bits and their doubles, of two
equally near ones the even one. -/
def nearestUnits (numerator denominator : Nat) : Nat :=
  let spacing := 2 ^ ((numerator / denominator).log2 - 52)
  roundHalfEven numerator (denominator * spacing) * spacing

/-- The number nearest to a quotient. -/
def ofQuotient (numerator denominator : Nat) : Double := ofUnits (nearestUnits (numerator * 2 ^ 1074) denominator)

/-- An integer that is converted. -/
def ofNat (number : Nat) : Double := ofQuotient number 1

/-- The quotient of two finite numbers that are not negative. -/
def quotient (number divisor : Double) : Double := ofQuotient number.units divisor.units

/-- A finite number in units of the least positive one. -/
def signed (number : Double) : Int := if number.negative then -number.units else number.units

def le (number bound : Double) : Bool := !number.IsNan && !bound.IsNan && number.signed ≤ bound.signed

/-- The sum, of infinities of two signs not a number, and of a number and its opposite
the positive zero. -/
def add (number other : Double) : Double :=
  if number.IsNan ∨ other.IsNan then nan
  else if ¬ number.IsFinite then
    if ¬ other.IsFinite ∧ number.negative ≠ other.negative then nan else number
  else if ¬ other.IsFinite then other
  else
    let sum := number.signed + other.signed
    if sum = 0 then { zero with negative := number.negative && other.negative }
    else { ofUnits (nearestUnits sum.natAbs 1) with negative := sum < 0 }

section Units

variable {units numerator larger denominator : Nat}

/-- How far a magnitude that fits is shifted. -/
theorem log2_lt_of_lt {exponent : Nat} (hlt : units < 2 ^ (53 + exponent)) : units.log2 - 52 ≤ exponent := by
  by_cases hzero : units = 0
  · rw [hzero, Nat.log2_zero]
    omega
  · have hlog := (Nat.log2_lt hzero).mpr hlt
    omega

/-- A magnitude that is shifted has 53 bits in front of those it loses. -/
theorem pow_le_of_shift (hshift : 0 < units.log2 - 52) : 2 ^ (52 + (units.log2 - 52)) ≤ units := by
  have hzero : units ≠ 0 := by
    rintro rfl
    rw [Nat.log2_zero] at hshift
    omega
  rw [Nat.add_sub_cancel' (by omega)]
  exact Nat.log2_self_le hzero

theorem pow_log2_le (hle : 2 ^ 52 ≤ units) : 2 ^ (52 + (units.log2 - 52)) ≤ units := by
  by_cases hshift : 0 < units.log2 - 52
  · exact pow_le_of_shift hshift
  · rw [Nat.eq_zero_of_not_pos hshift]
    exact hle

/-- What the shift leaves has no more than 53 bits. -/
theorem lt_pow_shift (units : Nat) : units < 2 ^ (53 + (units.log2 - 52)) := by
  have hlt := @Nat.lt_log2_self units
  exact hlt.trans_le (Nat.pow_le_pow_right (Nat.succ_pos 1) (by omega))

/-- The magnitude of a normal double, in its smallest units. -/
theorem units_of_exponent {number : Double} (hexponent : number.exponent ≠ 0) :
    number.units = (2 ^ 52 + number.fraction.val) * 2 ^ (number.exponent.val - 1) := by
  rw [Double.units, if_neg hexponent]

theorem units_infinity : infinity.units = 2 ^ (52 + (infinity.exponent.val - 1)) := by
  have hexponent : infinity.exponent ≠ 0 := by decide
  have hfraction : infinity.fraction.val = 0 := rfl
  rw [units_of_exponent hexponent, hfraction, Nat.add_zero, Nat.pow_add]

theorem exponent_infinity : infinity.exponent.val - 1 = 2046 := rfl

/-- A number below the infinity is finite. -/
theorem isFinite_of_units {number : Double} (hless : number.units < infinity.units) : number.IsFinite := by
  intro hlast
  have hexponent : number.exponent ≠ 0 := by
    rw [hlast]
    decide
  have hexponents : number.exponent.val - 1 = infinity.exponent.val - 1 := by
    rw [hlast]
    rfl
  rw [units_infinity, units_of_exponent hexponent, hexponents] at hless
  generalize infinity.exponent.val - 1 = last at hless
  rw [Nat.pow_add] at hless
  have hfraction := Nat.lt_of_mul_lt_mul_right hless
  omega

/-- What 53 bits can hold is the magnitude of its number, below the infinity. -/
theorem units_ofUnits (hspaced : 2 ^ (units.log2 - 52) ∣ units) : (ofUnits units).units = min units infinity.units := by
  have hlt := lt_pow_shift units
  have hinfinity := exponent_infinity
  rw [units_infinity]
  generalize infinity.exponent.val - 1 = last at hinfinity ⊢
  simp only [ofUnits]
  split
  · next hsmall =>
    have hfits : units ≤ 2 ^ (52 + last) := hsmall.le.trans (Nat.pow_le_pow_right (Nat.succ_pos 1) (by omega))
    rw [min_eq_left hfits]
    simp only [Double.units, if_true, Fin.ofNat, Nat.mod_eq_of_lt hsmall]
    exact Nat.mul_one units
  · next hlarge =>
    have hleast := Nat.le_of_not_lt hlarge
    split
    · next hshift =>
      have hfits : units ≤ 2 ^ (52 + last) := hlt.le.trans (Nat.pow_le_pow_right (Nat.succ_pos 1) (by omega))
      have hexponent : Fin.ofNat 2048 (units.log2 - 52 + 1) ≠ 0 := by
        intro hzero
        have hval := congrArg Fin.val hzero
        simp only [Fin.ofNat, Fin.val_zero] at hval
        omega
      have hunits := pow_log2_le hleast
      rw [min_eq_left hfits, units_of_exponent hexponent]
      simp only [Fin.ofNat, Nat.mod_eq_of_lt (show units.log2 - 52 + 1 < 2048 by omega), Nat.add_sub_cancel]
      generalize units.log2 - 52 = shift at *
      obtain ⟨significand, rfl⟩ := hspaced
      rw [Nat.pow_add, Nat.mul_comm (2 ^ 52)] at hunits
      rw [Nat.pow_add, Nat.mul_comm (2 ^ 53)] at hlt
      have hlow := Nat.le_of_mul_le_mul_left hunits (Nat.two_pow_pos shift)
      have hhigh := Nat.lt_of_mul_lt_mul_left hlt
      have hleading : 2 ^ 52 + significand % 2 ^ 52 = significand := by omega
      rw [Nat.mul_div_cancel_left _ (Nat.two_pow_pos shift), hleading, Nat.mul_comm]
    · next hshift =>
      have hover := @pow_le_of_shift units (by omega)
      rw [min_eq_right ((Nat.pow_le_pow_right (Nat.succ_pos 1) (by omega)).trans hover), units_infinity,
        exponent_infinity, hinfinity]

/-- A larger quotient is shifted at least as far. -/
theorem shift_mono (hle : numerator ≤ larger) (denominator : Nat) :
    (numerator / denominator).log2 - 52 ≤ (larger / denominator).log2 - 52 := by
  have hunits := Nat.div_le_div_right (c := denominator) hle
  apply log2_lt_of_lt
  exact hunits.trans_lt (lt_pow_shift _)

/-- A rounded quotient stays within the binade of the quotient. -/
theorem nearestUnits_le (hpositive : 0 < denominator) (numerator : Nat) :
    nearestUnits numerator denominator ≤ 2 ^ (53 + ((numerator / denominator).log2 - 52)) := by
  have hunits := lt_pow_shift (numerator / denominator)
  rw [Nat.div_lt_iff_lt_mul hpositive] at hunits
  simp only [nearestUnits]
  generalize (numerator / denominator).log2 - 52 = shift at hunits ⊢
  rw [Nat.pow_add]
  apply Nat.mul_le_mul_right
  apply roundHalfEven_le
  · exact Nat.mul_pos hpositive (Nat.two_pow_pos shift)
  · rw [Nat.mul_comm denominator, ← Nat.mul_assoc, ← Nat.pow_add]
    exact hunits.le

theorem le_nearestUnits (hpositive : 0 < denominator) (hshift : 0 < (numerator / denominator).log2 - 52) :
    2 ^ (52 + ((numerator / denominator).log2 - 52)) ≤ nearestUnits numerator denominator := by
  have hunits := pow_le_of_shift hshift
  rw [Nat.le_div_iff_mul_le hpositive] at hunits
  simp only [nearestUnits]
  generalize (numerator / denominator).log2 - 52 = shift at hunits ⊢
  rw [Nat.pow_add]
  apply Nat.mul_le_mul_right
  apply le_roundHalfEven
  · exact Nat.mul_pos hpositive (Nat.two_pow_pos shift)
  · rw [Nat.mul_comm denominator, ← Nat.mul_assoc, ← Nat.pow_add]
    exact hunits

/-- Rounding keeps the order of quotients. -/
theorem nearestUnits_mono (hpositive : 0 < denominator) (hle : numerator ≤ larger) :
    nearestUnits numerator denominator ≤ nearestUnits larger denominator := by
  obtain hless | hsame := (shift_mono hle denominator).lt_or_eq
  · calc nearestUnits numerator denominator
        ≤ 2 ^ (53 + ((numerator / denominator).log2 - 52)) := nearestUnits_le hpositive numerator
      _ ≤ 2 ^ (52 + ((larger / denominator).log2 - 52)) := Nat.pow_le_pow_right (Nat.succ_pos 1) (by omega)
      _ ≤ nearestUnits larger denominator := le_nearestUnits hpositive (by omega)
  · simp only [nearestUnits]
    rw [← hsame]
    apply Nat.mul_le_mul_right
    exact roundHalfEven_mono hle _

/-- A rounded quotient has 53 bits. -/
theorem spaced_nearestUnits (hpositive : 0 < denominator) (numerator : Nat) :
    2 ^ ((nearestUnits numerator denominator).log2 - 52) ∣ nearestUnits numerator denominator := by
  have hle := nearestUnits_le hpositive numerator
  have hdvd : 2 ^ ((numerator / denominator).log2 - 52) ∣ nearestUnits numerator denominator := by
    simp only [nearestUnits]
    exact Nat.dvd_mul_left _ _
  generalize (numerator / denominator).log2 - 52 = shift at hle hdvd
  obtain hless | hsame := hle.lt_or_eq
  · exact (Nat.pow_dvd_pow 2 (log2_lt_of_lt hless)).trans hdvd
  · rw [hsame, Nat.log2_two_pow]
    exact Nat.pow_dvd_pow 2 (by omega)

/-- The magnitude of the double next to a quotient, up to infinity. -/
theorem units_ofQuotient (hpositive : 0 < denominator) (numerator : Nat) :
    (ofQuotient numerator denominator).units =
      min (nearestUnits (numerator * 2 ^ 1074) denominator) infinity.units :=
  units_ofUnits (spaced_nearestUnits hpositive _)

/-- A larger quotient has no smaller double. -/
theorem ofQuotient_mono (hpositive : 0 < denominator) (hle : numerator ≤ larger) :
    (ofQuotient numerator denominator).units ≤ (ofQuotient larger denominator).units := by
  rw [units_ofQuotient hpositive, units_ofQuotient hpositive]
  exact min_le_min_right _ (nearestUnits_mono hpositive (Nat.mul_le_mul_right _ hle))

end Units

/-- Neither negative nor not a number. -/
def IsMagnitude (number : Double) : Prop := number.negative = false ∧ ¬ number.IsNan

section Magnitudes

variable {number other : Double}

theorem isMagnitude_zero : zero.IsMagnitude := ⟨rfl, by decide⟩

theorem isMagnitude_infinity : infinity.IsMagnitude := ⟨rfl, by decide⟩

/-- A double made of units has no sign and is a number. -/
theorem isMagnitude_ofUnits (units : Nat) : (ofUnits units).IsMagnitude := by
  have hfinite {exponent : Fin 2048} {fraction : Fin (2 ^ 52)} (hexponent : exponent ≠ 2047) :
      ({ negative := false, exponent, fraction } : Double).IsMagnitude :=
    ⟨rfl, fun hnan => hexponent hnan.1⟩
  simp only [ofUnits]
  split
  · exact hfinite (by decide)
  · split
    · next hshift =>
      apply hfinite
      intro hlast
      have hval := congrArg Fin.val hlast
      simp only [Fin.ofNat, Nat.mod_eq_of_lt (show units.log2 - 52 + 1 < 2048 by omega)] at hval
      exact absurd hval (by change units.log2 - 52 + 1 ≠ 2047; omega)
    · exact isMagnitude_infinity

/-- Unsigned numbers compare as their units do. -/
theorem IsMagnitude.le_iff (hnumber : number.IsMagnitude) (hother : other.IsMagnitude) :
    number.le other = true ↔ number.units ≤ other.units := by
  simp only [le, hnumber.2, hother.2, signed, hnumber.1, hother.1, decide_false, Bool.not_false, Bool.true_and,
    decide_eq_true_eq, Bool.false_eq_true, if_false, Int.ofNat_le]

/-- The sum of unsigned numbers is one. -/
theorem IsMagnitude.add (hnumber : number.IsMagnitude) (hother : other.IsMagnitude) :
    (number.add other).IsMagnitude := by
  have hsum : ¬ number.signed + other.signed < 0 := by
    simp only [signed, hnumber.1, hother.1, Bool.false_eq_true, if_false]
    omega
  unfold Double.add
  rw [if_neg (not_or.mpr ⟨hnumber.2, hother.2⟩)]
  split
  · rw [if_neg fun hsigns => hsigns.2 (hnumber.1.trans hother.1.symm)]
    exact hnumber
  · split
    · exact hother
    · simp only
      split
      · rw [hnumber.1, hother.1]
        exact isMagnitude_zero
      · obtain ⟨-, hnan⟩ := isMagnitude_ofUnits (nearestUnits (number.signed + other.signed).natAbs 1)
        exact ⟨decide_eq_false hsum, hnan⟩

end Magnitudes

section Integers

variable {number : Nat}

theorem mul_pow_lt (hsmall : number < 2 ^ 53) (exponent : Nat) : number * 2 ^ exponent < 2 ^ (53 + exponent) := by
  rw [Nat.pow_add]
  exact Nat.mul_lt_mul_of_pos_right hsmall (Nat.two_pow_pos exponent)

/-- What 53 bits can hold is not rounded. -/
theorem nearestUnits_mul_pow (hsmall : number < 2 ^ 53) (exponent : Nat) :
    nearestUnits (number * 2 ^ exponent) 1 = number * 2 ^ exponent := by
  have hshift := log2_lt_of_lt (mul_pow_lt hsmall exponent)
  simp only [nearestUnits, Nat.div_one, Nat.one_mul]
  generalize (number * 2 ^ exponent).log2 - 52 = shift at hshift
  obtain ⟨rest, hrest⟩ : 2 ^ shift ∣ number * 2 ^ exponent := (Nat.pow_dvd_pow 2 hshift).mul_left number
  rw [hrest, Nat.mul_comm (2 ^ shift), roundHalfEven_mul (Nat.two_pow_pos shift)]

theorem mul_pow_lt_infinity (hsmall : number < 2 ^ 53) {exponent : Nat} (hexponent : exponent < 2046) :
    number * 2 ^ exponent < infinity.units := by
  rw [units_infinity]
  refine (mul_pow_lt hsmall exponent).trans_le ?_
  have hinfinity := exponent_infinity
  generalize infinity.exponent.val - 1 = last at hinfinity ⊢
  exact Nat.pow_le_pow_right (Nat.succ_pos 1) (by omega)

/-- A natural number below 2^53 is exact. -/
theorem units_ofNat (hsmall : number < 2 ^ 53) : (ofNat number).units = number * 2 ^ 1074 := by
  have hbelow := mul_pow_lt_infinity hsmall (show 1074 < 2046 by decide)
  rw [ofNat, units_ofQuotient Nat.one_pos, nearestUnits_mul_pow hsmall, min_eq_left hbelow.le]

/-- A natural number below 2^53 is finite. -/
theorem isFinite_ofNat (hsmall : number < 2 ^ 53) : (ofNat number).IsFinite := by
  apply isFinite_of_units
  rw [units_ofNat hsmall]
  exact mul_pow_lt_infinity hsmall (by decide)

theorem isMagnitude_ofNat (number : Nat) : (ofNat number).IsMagnitude := isMagnitude_ofUnits _

theorem sign_ofNat (number : Nat) : (ofNat number).sign = [] := by
  rw [sign, (isMagnitude_ofNat number).1]
  rfl

/-- A whole number of units scales by a power of ten without rounding. -/
theorem scaled_mul_pow {number : Double} {whole : Nat} (hunits : number.units = whole * 2 ^ 1074) (places : Nat) :
    number.scaled places = whole * 10 ^ places := by
  rw [scaled, hunits, roundHalfEven_mul_pow]

/-- A natural number below 2^53 is printed with its digits and zeros behind the
point. -/
theorem fixedText_ofNat (hsmall : number < 2 ^ 53) (places : Nat) :
    (ofNat number).fixedText places = Nat.toDigits 10 number ++ '.' :: (Nat.toDigits 10 0).leftpad places '0' := by
  rw [fixedText, if_pos (isFinite_ofNat hsmall), sign_ofNat, scaled_mul_pow (units_ofNat hsmall),
    Nat.mul_div_cancel _ (Nat.pow_pos (by omega)), Nat.mul_mod_left]
  rfl

end Integers

/-- The exponent of ten below a finite number that is not zero. -/
def decimalExponent (number : Double) : Int :=
  if 2 ^ 1074 ≤ number.units then (Nat.toDigits 10 (number.units / 2 ^ 1074)).length - 1
  else -(Nat.toDigits 10 ((2 ^ 1074 - 1) / number.units)).length

/-- The digits of a finite number that is not zero, rounded to some, and the exponent of the first. -/
def significantDigits (digits : Nat) (number : Double) : Nat × Int :=
  let exponent := number.decimalExponent
  let last := exponent - (digits - 1)
  let rounded :=
    if last ≤ 0 then roundHalfEven (number.units * 10 ^ (-last).toNat) (2 ^ 1074)
    else roundHalfEven number.units (2 ^ 1074 * 10 ^ last.toNat)
  if rounded = 10 ^ digits then (10 ^ (digits - 1), exponent + 1) else (rounded, exponent)

/-- What a stream writes of a number with some digits: neither zeros nor a point stay behind them. -/
def generalText (digits : Nat) (number : Double) : List Char :=
  if number.IsFinite then
    if number.units = 0 then number.sign ++ ['0']
    else
      let (significand, exponent) := number.significantDigits digits
      let text := Nat.toDigits 10 significand
      let pointed (whole places : List Char) :=
        let places := places.rdropWhile (· = '0')
        if places.isEmpty then whole else whole ++ '.' :: places
      if 0 ≤ exponent ∧ exponent < digits then
        number.sign ++ pointed (text.take (exponent + 1).toNat) (text.drop (exponent + 1).toNat)
      else if -4 ≤ exponent ∧ exponent < 0 then
        number.sign ++ pointed ['0'] (List.replicate (-exponent - 1).toNat '0' ++ text)
      else
        number.sign ++ pointed (text.take 1) (text.drop 1) ++
          'e' :: (if exponent < 0 then '-' else '+') :: (Nat.toDigits 10 exponent.natAbs).leftpad 2 '0'
  else if number.IsNan then number.sign ++ ['n', 'a', 'n']
  else number.sign ++ ['i', 'n', 'f']

end Double

end numeral
