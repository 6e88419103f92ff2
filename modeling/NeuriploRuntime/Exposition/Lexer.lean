import Mathlib.Data.List.Infix
import Mathlib.Data.List.TakeWhile
import NeuriploRuntime.Stream.Octets

open stream

namespace exposition

def newline : UInt8 := 10

def quote : UInt8 := 34

def backslash : UInt8 := 92

def space : UInt8 := 32

def comma : UInt8 := 44

def point : UInt8 := 46

def equals : UInt8 := 61

def openBrace : UInt8 := 123

def closeBrace : UInt8 := 125

/-- A space or a tabulator. -/
def isBlank (byte : UInt8) : Bool := byte = space || byte = 9

def isLetter (byte : UInt8) : Bool := (65 ≤ byte && byte ≤ 90) || (97 ≤ byte && byte ≤ 122)

def isLabelStart (byte : UInt8) : Bool := isLetter byte || byte = 95

def isLabelByte (byte : UInt8) : Bool := isLabelStart byte || isDigit byte

def isMetricStart (byte : UInt8) : Bool := isLabelStart byte || byte = 58

def isMetricByte (byte : UInt8) : Bool := isMetricStart byte || isDigit byte

/-- The text is the encoding of a sequence of characters. -/
def IsUtf8 (text : List UInt8) : Prop := (ByteArray.mk text.toArray).IsValidUTF8

instance (text : List UInt8) : Decidable (IsUtf8 text) :=
  inferInstanceAs (Decidable (ByteArray.mk text.toArray).IsValidUTF8)

def skipBlanks (text : List UInt8) : List UInt8 := text.dropWhile isBlank

/-- What is behind a byte that must come next. -/
def expect (byte : UInt8) : List UInt8 → Option (List UInt8)
  | [] => none
  | first :: rest => if first = byte then some rest else none

def isName (start inner : UInt8 → Bool) : List UInt8 → Bool
  | [] => false
  | first :: rest => start first && rest.all inner

/-- The longest name at the start of a text. -/
def readName (start inner : UInt8 → Bool) : List UInt8 → Option (List UInt8 × List UInt8)
  | [] => none
  | first :: rest => if start first then some (first :: rest.takeWhile inner, rest.dropWhile inner) else none

/-- The three escapes of a label value. -/
def unescape (byte : UInt8) : Option UInt8 :=
  if byte = backslash then some backslash
  else if byte = quote then some quote
  else if byte = 110 then some newline
  else none

/-- A label value up to its closing quote, with its escapes resolved. It does not
go beyond the end of the line. -/
def readQuoted : List UInt8 → Option (List UInt8 × List UInt8)
  | [] => none
  | first :: rest =>
    if first = quote then some ([], rest)
    else if first = newline then none
    else if first = backslash then
      match rest with
      | [] => none
      | escape :: rest =>
        (unescape escape).bind fun byte => (readQuoted rest).map fun (value, tail) => (byte :: value, tail)
    else (readQuoted rest).map fun (value, tail) => (first :: value, tail)

def isDigits (text : List UInt8) : Bool := !text.isEmpty && text.all isDigit

def dropSign : List UInt8 → List UInt8
  | [] => []
  | first :: rest => if first = 43 || first = 45 then rest else first :: rest

/-- Digits with at most one point among them, and an exponent of ten. -/
def isDecimal (text : List UInt8) : Bool :=
  let mantissa := text.takeWhile fun byte => lowerCase byte ≠ 101
  let exponent := text.dropWhile fun byte => lowerCase byte ≠ 101
  isDigits (mantissa.takeWhile (· ≠ point) ++ (mantissa.dropWhile (· ≠ point)).drop 1) &&
    (exponent.isEmpty || isDigits (dropSign (exponent.drop 1)))

/-- A decimal number, an infinity with or without a sign, or not a number, which
has none. -/
def isFloat (text : List UInt8) : Bool :=
  let unsigned := (dropSign text).map lowerCase
  text.map lowerCase = [110, 97, 110] || unsigned = [105, 110, 102] ||
    unsigned = [105, 110, 102, 105, 110, 105, 116, 121] || isDecimal (dropSign text)

theorem skipBlanks_cons {first : UInt8} (hfirst : isBlank first = false) (rest : List UInt8) :
    skipBlanks (first :: rest) = first :: rest :=
  List.dropWhile_cons_of_neg (by simp [hfirst])

@[simp] theorem expect_self (byte : UInt8) (rest : List UInt8) : expect byte (byte :: rest) = some rest := if_pos rfl

theorem expect_of_ne {byte first : UInt8} (hne : first ≠ byte) (rest : List UInt8) :
    expect byte (first :: rest) = none := if_neg hne

/-- An expected byte takes one byte off the text. -/
theorem expect_length {byte : UInt8} {text rest : List UInt8} (hexpect : expect byte text = some rest) :
    rest.length < text.length := by
  cases text with
  | nil => cases hexpect
  | cons first text =>
    simp only [expect, Option.ite_none_right_eq_some, Option.some.injEq] at hexpect
    rw [hexpect.2, List.length_cons]
    omega

section Numbers

variable {byte : UInt8} {text whole places : List UInt8}

/-- Digits with a point among them have no exponent. -/
theorem isDecimal_of_forall (htext : ∀ byte ∈ text, isDigit byte = true ∨ byte = point)
    (hdigits : isDigits (text.takeWhile (· ≠ point) ++ (text.dropWhile (· ≠ point)).drop 1) = true) :
    isDecimal text = true := by
  have hmantissa : ∀ byte ∈ text, decide (lowerCase byte ≠ 101) = true := by
    intro byte hbyte
    obtain hdigit | rfl := htext byte hbyte
    · rw [lowerCase_digit hdigit]
      exact decide_eq_true (isDigit_ne hdigit (by decide))
    · decide
  have htake : text.takeWhile (fun byte => lowerCase byte ≠ 101) = text := List.takeWhile_eq_self_iff.mpr hmantissa
  have hdrop : text.dropWhile (fun byte => lowerCase byte ≠ 101) = [] := List.dropWhile_eq_nil_iff.mpr hmantissa
  rw [isDecimal, htake, hdrop, hdigits]
  rfl

/-- A run of digits is a decimal. -/
theorem isDecimal_digits (hwhole : isDigits whole = true) : isDecimal whole = true := by
  have hall := hwhole
  rw [isDigits, Bool.and_eq_true, List.all_eq_true] at hall
  apply isDecimal_of_forall fun byte hbyte => .inl (hall.2 byte hbyte)
  have hpoint : ∀ byte ∈ whole, decide (byte ≠ point) = true :=
    fun byte hbyte => decide_eq_true (isDigit_ne (hall.2 byte hbyte) (by decide))
  rw [List.takeWhile_eq_self_iff.mpr hpoint, List.dropWhile_eq_nil_iff.mpr hpoint, List.drop_nil, List.append_nil]
  exact hwhole

/-- Digits behind a point keep a decimal one. -/
theorem isDecimal_point (hwhole : isDigits whole = true) (hplaces : ∀ byte ∈ places, isDigit byte = true) :
    isDecimal (whole ++ point :: places) = true := by
  rw [isDigits, Bool.and_eq_true, List.all_eq_true] at hwhole
  obtain ⟨hempty, hall⟩ := hwhole
  apply isDecimal_of_forall
  · intro byte hbyte
    obtain hmem | hmem := List.mem_append.mp hbyte
    · exact .inl (hall byte hmem)
    obtain rfl | hmem := List.mem_cons.mp hmem
    · exact .inr rfl
    · exact .inl (hplaces byte hmem)
  · have hpoint : ∀ byte ∈ whole, decide (byte ≠ point) = true :=
      fun byte hbyte => decide_eq_true (isDigit_ne (hall byte hbyte) (by decide))
    rw [List.takeWhile_append_of_pos hpoint, List.dropWhile_append_of_pos hpoint,
      List.takeWhile_cons_of_neg (by decide), List.dropWhile_cons_of_neg (by decide), List.append_nil,
      List.drop_succ_cons, List.drop_zero, isDigits, List.all_append, Bool.and_eq_true, Bool.and_eq_true,
      List.all_eq_true, List.all_eq_true]
    refine ⟨?_, hall, hplaces⟩
    rw [Bool.not_eq_true', List.isEmpty_eq_false_iff] at hempty ⊢
    exact List.append_ne_nil_of_left_ne_nil hempty places

/-- A signed decimal is a float. -/
theorem isFloat_of_isDecimal (hdecimal : isDecimal (dropSign text) = true) : isFloat text = true := by
  rw [isFloat, hdecimal, Bool.or_true]

/-- A digit is not taken for a sign. -/
theorem dropSign_digits (hwhole : isDigits whole = true) (rest : List UInt8) :
    dropSign (whole ++ rest) = whole ++ rest := by
  cases whole with
  | nil => cases hwhole
  | cons first whole =>
    rw [isDigits, Bool.and_eq_true, List.all_eq_true] at hwhole
    have hfirst := hwhole.2 first List.mem_cons_self
    apply if_neg
    rw [Bool.or_eq_true, decide_eq_true_eq, decide_eq_true_eq, not_or]
    exact ⟨isDigit_ne hfirst (by decide), isDigit_ne hfirst (by decide)⟩

end Numbers

section Names

variable {start inner : UInt8 → Bool}

/-- What is read as a name is one. -/
theorem readName_isName {text name rest : List UInt8} (hread : readName start inner text = some (name, rest)) :
    isName start inner name = true := by
  cases text with
  | nil => cases hread
  | cons first text =>
    simp only [readName, Option.ite_none_right_eq_some, Option.some.injEq, Prod.mk.injEq] at hread
    obtain ⟨hfirst, rfl, -⟩ := hread
    rw [isName, hfirst, Bool.true_and]
    exact List.all_takeWhile

/-- Reading a name takes at least a byte off the text. -/
theorem readName_length {text name rest : List UInt8} (hread : readName start inner text = some (name, rest)) :
    rest.length < text.length := by
  cases text with
  | nil => cases hread
  | cons first text =>
    simp only [readName, Option.ite_none_right_eq_some, Option.some.injEq, Prod.mk.injEq] at hread
    obtain ⟨-, -, rfl⟩ := hread
    have hle := List.length_dropWhile_le inner text
    rw [List.length_cons]
    omega

/-- A name ends where no byte of a name follows. -/
theorem readName_append {name : List UInt8} (hname : isName start inner name = true) {next : UInt8}
    (hnext : inner next = false) (rest : List UInt8) :
    readName start inner (name ++ next :: rest) = some (name, next :: rest) := by
  cases name with
  | nil => cases hname
  | cons first name =>
    rw [isName, Bool.and_eq_true, List.all_eq_true] at hname
    obtain ⟨hfirst, hrest⟩ := hname
    rw [List.cons_append, readName, if_pos hfirst, List.takeWhile_append_of_pos hrest,
      List.dropWhile_append_of_pos hrest, List.takeWhile_cons_of_neg (by simp [hnext]),
      List.dropWhile_cons_of_neg (by simp [hnext]), List.append_nil]

end Names

/-- Nothing in the value needs an escape. -/
def IsPlain (value : List UInt8) : Prop := ∀ byte ∈ value, byte ≠ quote ∧ byte ≠ backslash ∧ byte ≠ newline

instance (value : List UInt8) : Decidable (IsPlain value) :=
  List.decidableBAll (fun byte => byte ≠ quote ∧ byte ≠ backslash ∧ byte ≠ newline) value

theorem readQuoted_quote (rest : List UInt8) : readQuoted (quote :: rest) = some ([], rest) := by
  rw [readQuoted.eq_def]
  exact if_pos rfl

/-- An escape stands for one byte. -/
theorem readQuoted_escape (escape : UInt8) (rest : List UInt8) : readQuoted (backslash :: escape :: rest) =
    (unescape escape).bind fun byte => (readQuoted rest).map fun (value, tail) => (byte :: value, tail) := by
  rw [readQuoted.eq_def]
  rfl

theorem readQuoted_cons {first : UInt8} (hquote : first ≠ quote) (hbackslash : first ≠ backslash)
    (hnewline : first ≠ newline) (rest : List UInt8) :
    readQuoted (first :: rest) = (readQuoted rest).map fun (value, tail) => (first :: value, tail) := by
  rw [readQuoted.eq_def]
  simp only [if_neg hquote, if_neg hnewline, if_neg hbackslash]

/-- All that a value can start with. -/
theorem readQuoted_cases {text value tail : List UInt8} (hread : readQuoted text = some (value, tail)) :
    (text = quote :: tail ∧ value = []) ∨
      (∃ escape rest byte others, text = backslash :: escape :: rest ∧ unescape escape = some byte ∧
        readQuoted rest = some (others, tail) ∧ value = byte :: others) ∨
      ∃ first rest others, text = first :: rest ∧ first ≠ quote ∧ first ≠ backslash ∧ first ≠ newline ∧
        readQuoted rest = some (others, tail) ∧ value = first :: others := by
  cases text with
  | nil => cases hread
  | cons first rest =>
    by_cases hquote : first = quote
    · subst hquote
      rw [readQuoted_quote, Option.some.injEq, Prod.mk.injEq] at hread
      exact .inl ⟨by rw [hread.2], hread.1.symm⟩
    by_cases hbackslash : first = backslash
    · subst hbackslash
      cases rest with
      | nil => cases hread
      | cons escape rest =>
        rw [readQuoted_escape] at hread
        obtain ⟨byte, hescape, hmap⟩ := Option.bind_eq_some_iff.mp hread
        obtain ⟨⟨others, tail⟩, hrest, hpair⟩ := Option.map_eq_some_iff.mp hmap
        cases hpair
        exact .inr (.inl ⟨escape, rest, byte, others, rfl, hescape, hrest, rfl⟩)
    by_cases hnewline : first = newline
    · subst hnewline
      rw [readQuoted.eq_def] at hread
      simp only [if_neg hquote, if_true] at hread
      cases hread
    · rw [readQuoted_cons hquote hbackslash hnewline] at hread
      obtain ⟨⟨others, tail⟩, hrest, hpair⟩ := Option.map_eq_some_iff.mp hread
      cases hpair
      exact .inr (.inr ⟨first, rest, others, rfl, hquote, hbackslash, hnewline, hrest, rfl⟩)

/-- Reading a quoted value takes at least its quote off the text. -/
theorem readQuoted_length {text value tail : List UInt8} (hread : readQuoted text = some (value, tail)) :
    tail.length < text.length := by
  induction hlength : text.length using Nat.strong_induction_on generalizing text value with
  | _ length ih =>
    obtain ⟨rfl, -⟩ | ⟨escape, rest, byte, others, rfl, -, hrest, -⟩ | ⟨first, rest, others, rfl, -, -, -, hrest, -⟩ :=
      readQuoted_cases hread
    · rw [← hlength, List.length_cons]
      omega
    · rw [List.length_cons, List.length_cons] at hlength
      have hshorter := ih rest.length (by omega) hrest rfl
      omega
    · rw [List.length_cons] at hlength
      have hshorter := ih rest.length (by omega) hrest rfl
      omega

/-- A value with nothing to escape reads back as it was written. -/
theorem readQuoted_of_plain {value : List UInt8} (hplain : IsPlain value) (rest : List UInt8) :
    readQuoted (value ++ quote :: rest) = some (value, rest) := by
  induction value with
  | nil => exact readQuoted_quote rest
  | cons first value ih =>
    obtain ⟨⟨hquote, hbackslash, hnewline⟩, hvalue⟩ := List.forall_mem_cons.mp hplain
    rw [List.cons_append, readQuoted_cons hquote hbackslash hnewline, ih hvalue]
    rfl

theorem unescape_eq_backslash {escape : UInt8} (hescape : unescape escape = some backslash) : escape = backslash := by
  unfold unescape at hescape
  split_ifs at hescape with hbackslash
  · exact hbackslash
  · cases hescape
  · cases hescape

/-- A run of backslashes is read as fewer of them, so the value falls behind its
own text and never gets to the closing quote. -/
theorem not_prefix_of_backslashes {text value tail : List UInt8} (hread : readQuoted text = some (value, tail))
    (count : Nat) : ¬ value ++ [quote] <+: List.replicate (count + 1) backslash ++ text := by
  induction hlength : text.length using Nat.strong_induction_on generalizing text value count with
  | _ length ih =>
    rw [List.replicate_succ, List.cons_append]
    obtain ⟨-, rfl⟩ | ⟨escape, rest, byte, others, rfl, hescape, hrest, rfl⟩ |
      ⟨first, rest, others, -, -, hbackslash, -, -, rfl⟩ := readQuoted_cases hread
    · intro hstarts
      exact absurd (List.cons_prefix_cons.mp hstarts).1 (by decide)
    · intro hstarts
      obtain ⟨rfl, hothers⟩ := List.cons_prefix_cons.mp hstarts
      obtain rfl := unescape_eq_backslash hescape
      rw [List.length_cons, List.length_cons] at hlength
      apply ih rest.length (by omega) hrest (count + 1) rfl
      have hrun : List.replicate (count + 1 + 1) backslash ++ rest =
          List.replicate count backslash ++ backslash :: backslash :: rest := by
        rw [List.replicate_succ', List.replicate_succ', List.append_assoc, List.append_assoc]
        rfl
      rw [hrun]
      exact hothers
    · intro hstarts
      exact hbackslash (List.cons_prefix_cons.mp hstarts).1

/-- A value that is read as itself needs no escape. -/
theorem isPlain_of_prefix {text value tail : List UInt8} (hread : readQuoted text = some (value, tail))
    (hstarts : value ++ [quote] <+: text) : IsPlain value := by
  induction value generalizing text with
  | nil => exact nofun
  | cons byte value ih =>
    obtain ⟨-, hnil⟩ | ⟨escape, rest, read, others, rfl, hescape, hrest, hvalue⟩ |
      ⟨first, rest, others, rfl, hquote, hbackslash, hnewline, hrest, hvalue⟩ := readQuoted_cases hread
    · cases hnil
    · cases hvalue
      obtain ⟨rfl, hothers⟩ := List.cons_prefix_cons.mp hstarts
      obtain rfl := unescape_eq_backslash hescape
      exact absurd hothers (not_prefix_of_backslashes hrest 0)
    · cases hvalue
      exact List.forall_mem_cons.mpr ⟨⟨hquote, hbackslash, hnewline⟩, ih hrest (List.cons_prefix_cons.mp hstarts).2⟩

/-- A value reads back as it was written exactly when it has nothing to escape. -/
theorem readQuoted_self_iff {value rest : List UInt8} :
    (∃ tail, readQuoted (value ++ quote :: rest) = some (value, tail)) ↔ IsPlain value := by
  constructor
  · rintro ⟨tail, hread⟩
    exact isPlain_of_prefix hread ⟨rest, by rw [List.append_assoc, List.singleton_append]⟩
  · exact fun hplain => ⟨rest, readQuoted_of_plain hplain rest⟩

end exposition
