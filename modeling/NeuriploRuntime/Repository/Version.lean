import Mathlib.Data.String.Basic
import NeuriploRuntime.Numeral.Positional

open numeral

namespace neuriplo.repository

def isNumericVersion (name : String) : Bool := !name.isEmpty && name.toList.all Char.isDigit

/-- Strips leading zeros, so that `01` and `1` carry the same label. -/
def canonicalVersion (raw : String) : String :=
  match raw.toList.dropWhile (· == '0') with
  | [] => "0"
  | digit :: rest => String.ofList (digit :: rest)

/-- Compares two version names without converting them to an integer. -/
def isHigherVersion (candidate current : String) : Bool :=
  let lhs := canonicalVersion candidate
  let rhs := canonicalVersion current
  if lhs.length ≠ rhs.length then lhs.length > rhs.length
  else lhs > rhs

/-- The ASCII digits. -/
def decimal : Positional Char where
  base := 10
  symbols := {symbol | symbol.isDigit = true}
  digit symbol := symbol.toNat - '0'.toNat
  zero := '0'
  one_lt_base := by decide
  digit_lt := by
    intro symbol hsymbol
    simp only [Set.mem_ofPred_eq, Char.isDigit, Bool.and_eq_true, decide_eq_true_eq] at hsymbol
    have hupper : symbol.toNat ≤ '9'.toNat := UInt32.le_iff_toNat_le.mp hsymbol.2
    simp only [Char.reduceToNat] at hupper ⊢
    omega
  strictMono := by
    intro first hfirst second _ hlt
    simp only [Set.mem_ofPred_eq, Char.isDigit, Bool.and_eq_true, decide_eq_true_eq] at hfirst
    have hlower : '0'.toNat ≤ first.toNat := UInt32.le_iff_toNat_le.mp hfirst.1
    have hvalue : first.toNat < second.toNat := UInt32.lt_iff_toNat_lt.mp hlt
    simp only [Char.reduceToNat] at hlower ⊢
    omega
  zero_mem := by decide
  digit_zero := by decide

/-- The number a version name writes. -/
def versionNumber (version : String) : ℕ := decimal.value version.toList

theorem isNumericVersion_valid {version : String} (hversion : isNumericVersion version = true) :
    decimal.Valid version.toList := by
  simp only [isNumericVersion, Bool.and_eq_true, List.all_eq_true] at hversion
  exact hversion.2

/-- A version is numeric when it has digits and nothing else. -/
theorem isNumericVersion_iff {version : String} :
    isNumericVersion version = true ↔ version.toList ≠ [] ∧ decimal.Valid version.toList := by
  simp [isNumericVersion, Positional.Valid, decimal]

/-- A canonical version has no leading zeros. -/
theorem canonicalVersion_toList (raw : String) :
    (canonicalVersion raw).toList = decimal.normalize raw.toList := by
  simp only [canonicalVersion, Positional.normalize, decimal]
  cases raw.toList.dropWhile (· == '0') with
  | nil => rfl
  | cons digit rest => simp

/-- A version and its canonical form are one number. -/
@[simp] theorem versionNumber_canonicalVersion (raw : String) :
    versionNumber (canonicalVersion raw) = versionNumber raw := by
  rw [versionNumber, canonicalVersion_toList, Positional.value_normalize, versionNumber]

/-- A canonical version is in normal form. -/
theorem canonicalVersion_normal (raw : String) : decimal.Normal (canonicalVersion raw).toList := by
  rw [canonicalVersion_toList]
  exact Positional.normalize_normal raw.toList

/-- The canonical form of a numeric version is numeric. -/
theorem canonicalVersion_isNumeric {raw : String} (hraw : isNumericVersion raw = true) :
    isNumericVersion (canonicalVersion raw) = true := by
  rw [isNumericVersion_iff]
  refine ⟨(canonicalVersion_normal raw).nonempty, ?_⟩
  rw [canonicalVersion_toList]
  exact Positional.normalize_valid (isNumericVersion_valid hraw)

/-- A canonical version is its own canonical form. -/
@[simp] theorem canonicalVersion_idem (raw : String) :
    canonicalVersion (canonicalVersion raw) = canonicalVersion raw := by
  rw [← String.toList_inj, canonicalVersion_toList, (canonicalVersion_normal raw).normalize_eq]

/-- Two digit names share a label exactly when they write the same number. -/
theorem canonicalVersion_eq_iff {first second : String} (hfirst : isNumericVersion first = true)
    (hsecond : isNumericVersion second = true) :
    canonicalVersion first = canonicalVersion second ↔ versionNumber first = versionNumber second := by
  rw [← String.toList_inj, canonicalVersion_toList, canonicalVersion_toList]
  exact Positional.normalize_eq_iff (isNumericVersion_valid hfirst) (isNumericVersion_valid hsecond)

/-- The order of the scan is the order of the numbers, whatever the number of
digits. -/
theorem isHigherVersion_iff {candidate current : String}
    (hcandidate : isNumericVersion candidate = true) (hcurrent : isNumericVersion current = true) :
    isHigherVersion candidate current = true ↔ versionNumber current < versionNumber candidate := by
  have horder := (canonicalVersion_normal current).value_lt_iff
    (isNumericVersion_valid (canonicalVersion_isNumeric hcurrent))
    (isNumericVersion_valid (canonicalVersion_isNumeric hcandidate))
    (canonicalVersion_normal candidate)
  change versionNumber (canonicalVersion current) < versionNumber (canonicalVersion candidate) ↔ _
    at horder
  rw [versionNumber_canonicalVersion, versionNumber_canonicalVersion] at horder
  rw [horder]
  simp only [isHigherVersion, String.lt_iff_toList_lt, String.length_toList]
  by_cases hlength : (canonicalVersion candidate).length = (canonicalVersion current).length
  · simp [hlength]
  · have hne : (canonicalVersion current).length ≠ (canonicalVersion candidate).length := by omega
    simp [hlength, hne]

end neuriplo.repository
