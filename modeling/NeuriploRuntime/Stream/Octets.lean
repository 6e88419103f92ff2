import Mathlib.Data.List.Infix

namespace stream

/-- The octets of a text. -/
def octets (text : String) : List UInt8 := text.toUTF8.data.toList

def isDigit (byte : UInt8) : Bool := 48 ≤ byte && byte ≤ 57

/-- An upper-case letter in lower case, and any other octet as it is. -/
def lowerCase (byte : UInt8) : UInt8 := if 65 ≤ byte && byte ≤ 90 then byte + 32 else byte

section Octets

variable {byte : UInt8}

/-- A digit is no octet that is not one. -/
theorem isDigit_ne {other : UInt8} (hdigit : isDigit byte = true) (hother : isDigit other = false) : byte ≠ other := by
  rintro rfl
  rw [hdigit] at hother
  cases hother

theorem lowerCase_digit (hdigit : isDigit byte = true) : lowerCase byte = byte := by
  rw [isDigit, Bool.and_eq_true, decide_eq_true_eq, decide_eq_true_eq] at hdigit
  apply if_neg
  rw [Bool.and_eq_true, decide_eq_true_eq, decide_eq_true_eq]
  rintro ⟨hletter, -⟩
  exact absurd (UInt8.le_trans hletter hdigit.2) (by decide)

end Octets

/-- Different texts have different octets. -/
theorem octets_inj {text other : String} : octets text = octets other ↔ text = other := by
  refine ⟨fun hsame => ?_, congrArg octets⟩
  apply String.toByteArray_inj.mp
  exact ByteArray.ext (Array.toList_inj.mp hsame)

/-- The text that octets spell, if they are UTF-8. -/
def decodeUtf8 (bytes : List UInt8) : Option String := String.fromUTF8? ⟨bytes.toArray⟩

end stream
