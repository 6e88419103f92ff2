import Mathlib.Algebra.Order.Ring.Int
import Mathlib.Order.Basic

namespace numeral

/-- A binary floating point number of 64 bits, by its fields. -/
structure Double where
  negative : Bool
  exponent : Fin 2048
  fraction : Fin (2 ^ 52)
deriving DecidableEq, Repr

/-- The integer nearest to a quotient, of two equally near ones the even one. -/
def roundHalfEven (numerator denominator : Nat) : Nat :=
  let below := numerator / denominator
  let rest := numerator % denominator
  if 2 * rest < denominator ∨ 2 * rest = denominator ∧ below % 2 = 0 then below else below + 1

namespace Double

def zero : Double := { negative := false, exponent := 0, fraction := 0 }

def infinity : Double := { negative := false, exponent := 2047, fraction := 0 }

def nan : Double := { negative := false, exponent := 2047, fraction := 1 }

/-- Neither an infinity nor not a number. -/
def IsFinite (number : Double) : Prop := number.exponent ≠ 2047

instance (number : Double) : Decidable number.IsFinite := inferInstanceAs (Decidable (number.exponent ≠ 2047))

def IsNan (number : Double) : Prop := number.exponent = 2047 ∧ number.fraction ≠ 0

instance (number : Double) : Decidable number.IsNan :=
  inferInstanceAs (Decidable (number.exponent = 2047 ∧ number.fraction ≠ 0))

theorem IsNan.not_isFinite {number : Double} (hnan : number.IsNan) : ¬ number.IsFinite :=
  fun hfinite => hfinite hnan.1

/-- The magnitude of a finite number, in units of the least positive one. -/
def units (number : Double) : Nat :=
  (if number.exponent = 0 then number.fraction.val else 2 ^ 52 + number.fraction.val) * 2 ^ (number.exponent.val - 1)

/-- The number of a magnitude in units of the least positive one. -/
def ofUnits (units : Nat) : Double :=
  let shift := units.log2 - 52
  if units < 2 ^ 52 then { negative := false, exponent := 0, fraction := Fin.ofNat _ units }
  else if shift < 2046 then
    { negative := false, exponent := Fin.ofNat _ (shift + 1), fraction := Fin.ofNat _ (units / 2 ^ shift) }
  else infinity

def sign (number : Double) : List Char := if number.negative then ['-'] else []

/-- The magnitude of a finite number in decimal places, rounded to the nearest. -/
def scaled (places : Nat) (number : Double) : Nat := roundHalfEven (number.units * 10 ^ places) (2 ^ 1074)

/-- The text of a number with a fixed count of decimal places, at least one. -/
def fixedText (places : Nat) (number : Double) : List Char :=
  if number.IsFinite then
    number.sign ++ (Nat.toDigits 10 (number.scaled places / 10 ^ places) ++
      '.' :: (Nat.toDigits 10 (number.scaled places % 10 ^ places)).leftpad places '0')
  else if number.IsNan then number.sign ++ ['n', 'a', 'n']
  else number.sign ++ ['i', 'n', 'f']

end Double

section Digits

variable {symbol : Char}

/-- Padding with zeros keeps a text of digits one. -/
theorem isDigit_of_mem_leftpad {places number : Nat} (hsymbol : symbol ∈ (Nat.toDigits 10 number).leftpad places '0') :
    symbol.isDigit = true := by
  obtain hzero | hdigit := List.mem_append.mp hsymbol
  · rw [List.eq_of_mem_replicate hzero]
    decide
  · exact Nat.isDigit_of_mem_toDigits (by decide) (by decide) hdigit

/-- The codes of the digits. -/
theorem toUInt8_digit (hdigit : symbol.isDigit = true) : 48 ≤ symbol.toUInt8 ∧ symbol.toUInt8 ≤ 57 := by
  rw [Char.isDigit, Bool.and_eq_true, decide_eq_true_eq, decide_eq_true_eq, ge_iff_le, UInt32.le_iff_toNat_le,
    UInt32.le_iff_toNat_le] at hdigit
  have hlow : 48 ≤ symbol.val.toNat := hdigit.1
  have hhigh : symbol.val.toNat ≤ 57 := hdigit.2
  have hcode : symbol.toUInt8.toNat = symbol.val.toNat := by
    change symbol.val.toNat % 256 = symbol.val.toNat
    omega
  rw [UInt8.le_iff_toNat_le, UInt8.le_iff_toNat_le, hcode]
  exact ⟨hlow, hhigh⟩

end Digits

end numeral
