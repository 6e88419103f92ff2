import Mathlib.Data.Nat.Digits.Defs
import Mathlib.Data.List.Lex
import Mathlib.Order.Monotone.Basic

namespace numeral

/-- A positional numeral system over ordered symbols: the order of the symbols
is the order of the digits they stand for. -/
structure Positional (α : Type*) [LinearOrder α] where
  base : ℕ
  symbols : Set α
  digit : α → ℕ
  zero : α
  one_lt_base : 1 < base
  digit_lt : ∀ symbol ∈ symbols, digit symbol < base
  strictMono : StrictMonoOn digit symbols
  zero_mem : zero ∈ symbols
  digit_zero : digit zero = 0

namespace Positional

variable {α : Type*} [LinearOrder α] (system : Positional α)

/-- Every symbol of the numeral belongs to the system. -/
def Valid (numeral : List α) : Prop := ∀ symbol ∈ numeral, symbol ∈ system.symbols

/-- The number a numeral writes, most significant digit first. -/
def value (numeral : List α) : ℕ := Nat.ofDigits system.base (numeral.map system.digit).reverse

/-- A numeral without leading zeros. Zero itself is written with one symbol. -/
structure Normal (numeral : List α) : Prop where
  nonempty : numeral ≠ []
  leading : ∀ rest, numeral = system.zero :: rest → rest = []

/-- Drop the leading zeros, leaving one symbol when nothing else is left. -/
def normalize (numeral : List α) : List α :=
  match numeral.dropWhile (· == system.zero) with
  | [] => [system.zero]
  | symbol :: rest => symbol :: rest

variable {system}

@[simp] theorem value_nil : system.value [] = 0 := rfl

theorem value_cons (symbol : α) (rest : List α) :
    system.value (symbol :: rest) = system.digit symbol * system.base ^ rest.length + system.value rest := by
  simp only [value, List.map_cons, List.reverse_cons, Nat.ofDigits_append, Nat.ofDigits_singleton,
    List.length_reverse, List.length_map]
  rw [Nat.mul_comm, Nat.add_comm]

/-- A leading zero adds nothing. -/
@[simp] theorem value_zero_cons (rest : List α) : system.value (system.zero :: rest) = system.value rest := by
  simp [value_cons, system.digit_zero]

theorem Valid.of_cons {symbol : α} {rest : List α} (hvalid : system.Valid (symbol :: rest)) :
    symbol ∈ system.symbols ∧ system.Valid rest := by
  refine ⟨hvalid symbol (by simp), ?_⟩
  intro other hother
  exact hvalid other (List.mem_cons_of_mem symbol hother)

/-- A numeral of some length is less than the power of its base. -/
theorem value_lt {numeral : List α} (hvalid : system.Valid numeral) :
    system.value numeral < system.base ^ numeral.length := by
  have hbound := @Nat.ofDigits_lt_base_pow_length system.base (numeral.map system.digit).reverse
    system.one_lt_base (by
      intro digit hdigit
      simp only [List.mem_reverse, List.mem_map] at hdigit
      obtain ⟨symbol, hsymbol, rfl⟩ := hdigit
      exact system.digit_lt symbol (hvalid symbol hsymbol))
  simpa [value] using hbound

/-- Equally long numerals compare like words. -/
theorem value_lt_iff_of_length_eq {first second : List α} (hfirst : system.Valid first)
    (hsecond : system.Valid second) (hlength : first.length = second.length) :
    system.value first < system.value second ↔ first < second := by
  induction first generalizing second with
  | nil =>
    have hnil : second = [] := List.length_eq_zero_iff.mp hlength.symm
    simp [hnil]
  | cons symbol rest ih =>
    cases second with
    | nil => simp at hlength
    | cons other others =>
      simp only [List.length_cons, Nat.add_right_cancel_iff] at hlength
      obtain ⟨hsymbol, hrest⟩ := hfirst.of_cons
      obtain ⟨hother, hothers⟩ := hsecond.of_cons
      have hlow := value_lt hrest
      have hhigh := value_lt hothers
      rw [hlength] at hlow
      rw [value_cons, value_cons, hlength, List.cons_lt_cons_iff, ← ih hrest hothers hlength]
      obtain hlt | heq | hgt := lt_trichotomy symbol other
      · -- The leading digits decide, whatever follows them.
        have hdigit := system.strictMono hsymbol hother hlt
        have hstep := Nat.mul_le_mul_right (system.base ^ others.length) (Nat.succ_le_of_lt hdigit)
        rw [Nat.succ_mul] at hstep
        simp only [hlt, true_or, iff_true]
        omega
      · subst heq
        simp
      · have hdigit := system.strictMono hother hsymbol hgt
        have hstep := Nat.mul_le_mul_right (system.base ^ others.length) (Nat.succ_le_of_lt hdigit)
        rw [Nat.succ_mul] at hstep
        simp only [not_lt_of_gt hgt, ne_of_gt hgt, false_and, or_false, iff_false]
        omega

/-- Without leading zeros a shorter numeral writes a smaller number. -/
theorem Normal.value_lt_of_length_lt {first second : List α} (hnonempty : first ≠ [])
    (hfirst : system.Valid first) (hsecond : system.Valid second) (hnormal : system.Normal second)
    (hlength : first.length < second.length) : system.value first < system.value second := by
  cases second with
  | nil => simp at hlength
  | cons symbol rest =>
    simp only [List.length_cons] at hlength
    have hpositive := List.length_pos_iff.mpr hnonempty
    have hleading : symbol ≠ system.zero := by
      rintro rfl
      have hempty := hnormal.leading rest rfl
      simp only [hempty, List.length_nil] at hlength
      omega
    obtain ⟨hsymbol, -⟩ := hsecond.of_cons
    have hdigit : 1 ≤ system.digit symbol := by
      by_contra hzero
      apply hleading
      apply system.strictMono.injOn hsymbol system.zero_mem
      rw [system.digit_zero]
      omega
    calc system.value first
        < system.base ^ first.length := value_lt hfirst
      _ ≤ system.base ^ rest.length :=
          Nat.pow_le_pow_right (Nat.zero_lt_of_lt system.one_lt_base) (by omega)
      _ ≤ system.digit symbol * system.base ^ rest.length := Nat.le_mul_of_pos_left _ hdigit
      _ ≤ system.value (symbol :: rest) := by rw [value_cons]; omega

/-- Numerals without leading zeros compare by length first and like words
among equal lengths. -/
theorem Normal.value_lt_iff {first second : List α} (hfirst : system.Valid first)
    (hsecond : system.Valid second) (hnormalFirst : system.Normal first)
    (hnormalSecond : system.Normal second) :
    system.value first < system.value second ↔
      first.length < second.length ∨ first.length = second.length ∧ first < second := by
  obtain hlt | heq | hgt := lt_trichotomy first.length second.length
  · have hvalue := hnormalSecond.value_lt_of_length_lt hnormalFirst.nonempty hfirst hsecond hlt
    simp [hvalue, hlt]
  · rw [value_lt_iff_of_length_eq hfirst hsecond heq]
    simp [heq]
  · have hvalue := hnormalFirst.value_lt_of_length_lt hnormalSecond.nonempty hsecond hfirst hgt
    have hnot : ¬ first.length < second.length := by omega
    have hne : first.length ≠ second.length := by omega
    simp [not_lt_of_gt hvalue, hnot, hne]

/-- A number has one numeral without leading zeros. -/
theorem Normal.value_injective {first second : List α} (hfirst : system.Valid first)
    (hsecond : system.Valid second) (hnormalFirst : system.Normal first)
    (hnormalSecond : system.Normal second) (hvalue : system.value first = system.value second) :
    first = second := by
  have hforward := hnormalFirst.value_lt_iff hfirst hsecond hnormalSecond
  have hbackward := hnormalSecond.value_lt_iff hsecond hfirst hnormalFirst
  simp only [hvalue, lt_irrefl, false_iff, not_or, not_and, not_lt] at hforward hbackward
  have hlength : first.length = second.length := Nat.le_antisymm hbackward.1 hforward.1
  exact le_antisymm (hbackward.2 hlength.symm) (hforward.2 hlength)

theorem normalize_zero_cons (rest : List α) :
    system.normalize (system.zero :: rest) = system.normalize rest := by
  simp [normalize]

theorem normalize_cons_of_ne {symbol : α} (rest : List α) (hne : symbol ≠ system.zero) :
    system.normalize (symbol :: rest) = symbol :: rest := by
  simp [normalize, hne]

/-- Without its leading zeros a numeral is normal. -/
theorem normalize_normal (numeral : List α) : system.Normal (system.normalize numeral) := by
  induction numeral with
  | nil => exact ⟨by simp [normalize], by simp [normalize]⟩
  | cons symbol rest ih =>
    by_cases hzero : symbol = system.zero
    · rw [hzero, normalize_zero_cons]
      exact ih
    · rw [normalize_cons_of_ne rest hzero]
      exact ⟨by simp, by simp [hzero]⟩

/-- Taking leading zeros off leaves valid symbols. -/
theorem normalize_valid {numeral : List α} (hvalid : system.Valid numeral) :
    system.Valid (system.normalize numeral) := by
  induction numeral with
  | nil => simpa [normalize, Valid] using system.zero_mem
  | cons symbol rest ih =>
    by_cases hzero : symbol = system.zero
    · rw [hzero, normalize_zero_cons]
      exact ih hvalid.of_cons.2
    · rw [normalize_cons_of_ne rest hzero]
      exact hvalid

/-- Leading zeros do not change the value. -/
@[simp] theorem value_normalize (numeral : List α) :
    system.value (system.normalize numeral) = system.value numeral := by
  induction numeral with
  | nil => simp [normalize]
  | cons symbol rest ih =>
    by_cases hzero : symbol = system.zero
    · rw [hzero, normalize_zero_cons, value_zero_cons, ih]
    · rw [normalize_cons_of_ne rest hzero]

/-- Two numerals write the same number exactly when they differ in leading
zeros only. -/
theorem normalize_eq_iff {first second : List α} (hfirst : system.Valid first)
    (hsecond : system.Valid second) :
    system.normalize first = system.normalize second ↔ system.value first = system.value second := by
  constructor
  · intro heq
    rw [← value_normalize first, heq, value_normalize]
  · intro heq
    apply (normalize_normal first).value_injective (normalize_valid hfirst)
      (normalize_valid hsecond) (normalize_normal second)
    simpa using heq

/-- A normal numeral has no leading zeros to take off. -/
theorem Normal.normalize_eq {numeral : List α} (hnormal : system.Normal numeral) :
    system.normalize numeral = numeral := by
  cases numeral with
  | nil => exact absurd rfl hnormal.nonempty
  | cons symbol rest =>
    by_cases hzero : symbol = system.zero
    · subst hzero
      rw [hnormal.leading rest rfl, normalize_zero_cons]
      rfl
    · exact normalize_cons_of_ne rest hzero

end Positional

end numeral
