import Mathlib.Data.List.DropRight
import Mathlib.Data.List.Nodup
import NeuriploRuntime.Exposition.Lexer

namespace exposition

structure Label where
  name : List UInt8
  value : List UInt8
deriving DecidableEq, Repr

/-- A line of the text format: `name{label="value",...} value timestamp`. -/
structure Sample where
  name : List UInt8
  labels : List Label
  value : List UInt8
  timestamp : List UInt8
deriving DecidableEq, Repr

def readLabel (text : List UInt8) : Option (Label × List UInt8) := do
  let (name, text) ← readName isLabelStart isLabelByte (skipBlanks text)
  let text ← expect equals (skipBlanks text)
  let text ← expect quote (skipBlanks text)
  let (value, text) ← readQuoted text
  if IsUtf8 value then some ({ name, value }, text) else none

/-- Skipping blanks adds nothing to the text. -/
theorem skipBlanks_length (text : List UInt8) : (skipBlanks text).length ≤ text.length :=
  List.length_dropWhile_le isBlank text

/-- Reading a label takes at least a byte off the text. -/
theorem readLabel_length {text rest : List UInt8} {label : Label} (hread : readLabel text = some (label, rest)) :
    rest.length < text.length := by
  simp only [readLabel, Option.bind_eq_bind, Option.bind_eq_some_iff, Prod.exists] at hread
  obtain ⟨name, afterName, hname, afterSign, hsign, opened, hopened, value, closed, hquoted, hutf8⟩ := hread
  simp only [Option.ite_none_right_eq_some, Option.some.injEq, Prod.mk.injEq] at hutf8
  obtain ⟨-, -, rfl⟩ := hutf8
  have hlengths := (readName_length hname).trans_le (skipBlanks_length text)
  have hafterSign := (expect_length hsign).trans_le (skipBlanks_length afterName)
  have hafterQuote := (expect_length hopened).trans_le (skipBlanks_length afterSign)
  have hclosed := readQuoted_length hquoted
  omega

/-- The labels up to the closing brace, with or without a comma behind the last. -/
def readLabels (text : List UInt8) : Option (List Label × List UInt8) :=
  match expect closeBrace (skipBlanks text) with
  | some rest => some ([], rest)
  | none =>
    match _hlabel : readLabel text with
    | none => none
    | some (label, behind) =>
      match _hcomma : expect comma (skipBlanks behind) with
      | some rest => (readLabels rest).map fun (labels, rest) => (label :: labels, rest)
      | none => (expect closeBrace (skipBlanks behind)).map fun rest => ([label], rest)
termination_by text.length
decreasing_by
  have hbehind := readLabel_length _hlabel
  have hrest := (expect_length _hcomma).trans_le (skipBlanks_length behind)
  omega

def readBraces (text : List UInt8) : Option (List Label × List UInt8) :=
  match expect openBrace text with
  | some inner => readLabels inner
  | none => some ([], text)

/-- A byte of a value or a timestamp. -/
def isToken (byte : UInt8) : Bool := !isBlank byte && byte ≠ newline

/-- The value, the timestamp if there is one, and the end of the line. -/
def readNumbers (text : List UInt8) : Option (List UInt8 × List UInt8) :=
  let value := (skipBlanks text).takeWhile isToken
  let behind := skipBlanks ((skipBlanks text).dropWhile isToken)
  let timestamp := behind.takeWhile isToken
  if isFloat value ∧ (timestamp.isEmpty || isDigits (dropSign timestamp)) ∧
      skipBlanks (behind.dropWhile isToken) = [newline] then some (value, timestamp)
  else none

/-- A line with one sample, each label name in it at most once. -/
def readSample (text : List UInt8) : Option Sample := do
  let (name, text) ← readName isMetricStart isMetricByte (skipBlanks text)
  let (labels, text) ← readBraces (skipBlanks text)
  let (value, timestamp) ← readNumbers text
  if (labels.map (·.name)).Nodup then some { name, labels, value, timestamp } else none

/-- A label written as it is. -/
def Label.raw (label : Label) : List UInt8 := label.name ++ equals :: quote :: (label.value ++ [quote])

def rawLabels (first : Label) (others : List Label) : List UInt8 :=
  first.raw ++ others.flatMap fun label => comma :: label.raw

/-- A label that is read as it is written. -/
structure Label.Legible (label : Label) : Prop where
  name : isName isLabelStart isLabelByte label.name = true
  plain : IsPlain label.value
  utf8 : IsUtf8 label.value

section Labels

variable {label : Label} {rest : List UInt8}

theorem not_isBlank {start : UInt8 → Bool} (hblank : start space = false) (htab : start 9 = false) {byte : UInt8}
    (hstart : start byte = true) : isBlank byte = false := by
  rw [isBlank, Bool.or_eq_false_iff, decide_eq_false_iff_not, decide_eq_false_iff_not]
  constructor
  · rintro rfl
    rw [hblank] at hstart
    cases hstart
  · rintro rfl
    rw [htab] at hstart
    cases hstart

/-- A name is not taken for blanks. -/
theorem skipBlanks_name {start inner : UInt8 → Bool} (hblank : start space = false) (htab : start 9 = false)
    {name : List UInt8} (hname : isName start inner name = true) (rest : List UInt8) :
    skipBlanks (name ++ rest) = name ++ rest := by
  cases name with
  | nil => cases hname
  | cons first name =>
    rw [isName, Bool.and_eq_true] at hname
    exact skipBlanks_cons (not_isBlank hblank htab hname.1) (name ++ rest)

theorem Label.raw_append (label : Label) (rest : List UInt8) :
    label.raw ++ rest = label.name ++ equals :: quote :: (label.value ++ quote :: rest) := by
  simp [raw]

/-- A label name is read up to its sign, and the value is left to its quotes. -/
theorem readLabel_raw (hname : isName isLabelStart isLabelByte label.name = true) (rest : List UInt8) :
    readLabel (label.raw ++ rest) = (readQuoted (label.value ++ quote :: rest)).bind fun (value, text) =>
      if IsUtf8 value then some ({ name := label.name, value }, text) else none := by
  have hread := readName_append hname (show isLabelByte equals = false by decide)
    (quote :: (label.value ++ quote :: rest))
  have hsign : skipBlanks (equals :: quote :: (label.value ++ quote :: rest)) =
      equals :: quote :: (label.value ++ quote :: rest) := skipBlanks_cons (by decide) _
  have hquote : skipBlanks (quote :: (label.value ++ quote :: rest)) = quote :: (label.value ++ quote :: rest) :=
    skipBlanks_cons (by decide) _
  rw [readLabel, label.raw_append, skipBlanks_name (by decide) (by decide) hname, hread]
  simp only [Option.bind_eq_bind, Option.bind_some, hsign, hquote, expect_self]

/-- A legible label reads back. -/
theorem readLabel_of_legible (hlegible : label.Legible) (rest : List UInt8) :
    readLabel (label.raw ++ rest) = some (label, rest) := by
  rw [readLabel_raw hlegible.name, readQuoted_of_plain hlegible.plain]
  exact if_pos hlegible.utf8

/-- A label read as itself is legible, and nothing behind it is taken for its value. -/
theorem legible_of_readLabel (hname : isName isLabelStart isLabelByte label.name = true) {rest tail : List UInt8}
    (hread : readLabel (label.raw ++ rest) = some (label, tail)) : label.Legible ∧ tail = rest := by
  have hsame := hread
  rw [readLabel_raw hname] at hsame
  obtain ⟨⟨value, text⟩, hquoted, hutf8⟩ := Option.bind_eq_some_iff.mp hsame
  simp only [Option.ite_none_right_eq_some, Option.some.injEq, Prod.mk.injEq] at hutf8
  obtain ⟨hutf8, hlabel, rfl⟩ := hutf8
  obtain rfl : value = label.value := congrArg Label.value hlabel
  have hplain := readQuoted_self_iff.mp ⟨text, hquoted⟩
  rw [readQuoted_of_plain hplain, Option.some.injEq, Prod.mk.injEq] at hquoted
  exact ⟨⟨hname, hplain, hutf8⟩, hquoted.2.symm⟩

/-- A name is not taken for a sign. -/
theorem expect_name {start inner : UInt8 → Bool} {byte : UInt8} (hstart : start byte = false) {name : List UInt8}
    (hname : isName start inner name = true) (rest : List UInt8) : expect byte (name ++ rest) = none := by
  cases name with
  | nil => cases hname
  | cons first name =>
    rw [isName, Bool.and_eq_true] at hname
    apply expect_of_ne
    rintro rfl
    rw [hstart] at hname
    cases hname.1

/-- A text of labels that does not end at once starts with a label, and a comma or
the brace is behind it. -/
theorem readLabels_cons (hname : isName isLabelStart isLabelByte label.name = true) (rest : List UInt8) :
    readLabels (label.raw ++ rest) = (readLabel (label.raw ++ rest)).bind fun (label, behind) =>
      match expect comma (skipBlanks behind) with
      | some rest => (readLabels rest).map fun (labels, rest) => (label :: labels, rest)
      | none => (expect closeBrace (skipBlanks behind)).map fun rest => ([label], rest) := by
  have hbrace : expect closeBrace (skipBlanks (label.raw ++ rest)) = none := by
    rw [label.raw_append, skipBlanks_name (by decide) (by decide) hname]
    exact expect_name (by decide) hname _
  rw [readLabels, hbrace]
  dsimp only
  split <;> rename_i hread
  · rw [hread, Option.bind_none]
  · rw [hread, Option.bind_some]
    split <;> rename_i hcomma
    · rw [hcomma]
    · rw [hcomma]

/-- What is read as a label has a name of the grammar. -/
theorem readLabel_isName {text : List UInt8} (hread : readLabel text = some (label, rest)) :
    isName isLabelStart isLabelByte label.name = true := by
  simp only [readLabel, Option.bind_eq_bind, Option.bind_eq_some_iff, Prod.exists] at hread
  obtain ⟨name, afterName, hname, -, -, -, -, value, closed, -, hutf8⟩ := hread
  simp only [Option.ite_none_right_eq_some, Option.some.injEq, Prod.mk.injEq] at hutf8
  obtain ⟨-, rfl, -⟩ := hutf8
  exact readName_isName hname

/-- Every label that is read has a label name. -/
theorem readLabels_isName {text : List UInt8} {labels : List Label} (hread : readLabels text = some (labels, rest)) :
    ∀ label ∈ labels, isName isLabelStart isLabelByte label.name = true := by
  fun_induction readLabels text generalizing labels with
  | case1 text rest =>
    cases hread
    exact nofun
  | case2 => cases hread
  | case3 text _ label behind hlabel next _ ih =>
    obtain ⟨⟨others, tail⟩, hothers, hpair⟩ := Option.map_eq_some_iff.mp hread
    cases hpair
    exact List.forall_mem_cons.mpr ⟨readLabel_isName hlabel, ih hothers⟩
  | case4 text _ label behind hlabel _ =>
    obtain ⟨tail, -, hpair⟩ := Option.map_eq_some_iff.mp hread
    cases hpair
    exact List.forall_mem_singleton.mpr (readLabel_isName hlabel)

end Labels

section Lists

variable {first second : Label} {others : List Label} {rest : List UInt8}

theorem rawLabels_nil (first : Label) : rawLabels first [] = first.raw := List.append_nil first.raw

theorem rawLabels_cons (first second : Label) (others : List Label) (rest : List UInt8) :
    rawLabels first (second :: others) ++ rest = first.raw ++ comma :: (rawLabels second others ++ rest) := by
  simp [rawLabels]

/-- Behind a legible label with a comma the other labels are read. -/
theorem readLabels_comma (hlegible : first.Legible) (rest : List UInt8) :
    readLabels (first.raw ++ comma :: rest) = (readLabels rest).map fun (labels, rest) => (first :: labels, rest) := by
  rw [readLabels_cons hlegible.name, readLabel_of_legible hlegible, Option.bind_some]
  dsimp only
  rw [skipBlanks_cons (by decide) rest, expect_self]

theorem readLabels_brace (hlegible : first.Legible) (rest : List UInt8) :
    readLabels (first.raw ++ closeBrace :: rest) = some ([first], rest) := by
  rw [readLabels_cons hlegible.name, readLabel_of_legible hlegible, Option.bind_some]
  dsimp only
  rw [skipBlanks_cons (by decide) rest, expect_of_ne (by decide), expect_self]
  rfl

/-- Legible labels between braces read back. -/
theorem readLabels_of_legible (hlegible : ∀ label ∈ first :: others, label.Legible) (rest : List UInt8) :
    readLabels (rawLabels first others ++ closeBrace :: rest) = some (first :: others, rest) := by
  induction others generalizing first with
  | nil => rw [rawLabels_nil, readLabels_brace (hlegible first List.mem_cons_self)]
  | cons second others ih =>
    obtain ⟨hfirst, hothers⟩ := List.forall_mem_cons.mp hlegible
    rw [rawLabels_cons, readLabels_comma hfirst, ih hothers]
    rfl

/-- The first label that is read has the name of the first that was written. -/
theorem readLabels_head (hname : isName isLabelStart isLabelByte first.name = true) {labels : List Label}
    {tail : List UInt8} (hread : readLabels (first.raw ++ rest) = some (labels, tail)) :
    ∃ label behind, readLabel (first.raw ++ rest) = some (label, behind) ∧ label.name = first.name ∧
      label ∈ labels := by
  rw [readLabels_cons hname] at hread
  obtain ⟨⟨label, behind⟩, hlabel, hothers⟩ := Option.bind_eq_some_iff.mp hread
  refine ⟨label, behind, hlabel, ?_, ?_⟩
  · rw [readLabel_raw hname] at hlabel
    obtain ⟨⟨value, text⟩, -, hutf8⟩ := Option.bind_eq_some_iff.mp hlabel
    simp only [Option.ite_none_right_eq_some, Option.some.injEq, Prod.mk.injEq] at hutf8
    obtain ⟨-, rfl, -⟩ := hutf8
    rfl
  · dsimp only at hothers
    split at hothers <;> obtain ⟨_, -, hpair⟩ := Option.map_eq_some_iff.mp hothers <;> cases hpair <;>
      exact List.mem_cons_self

/-- Labels of different names that are read as they were written, in any order, are
legible. -/
theorem legible_of_readLabels {labels : List Label} {tail : List UInt8}
    (hread : readLabels (rawLabels first others ++ rest) = some (labels, tail)) (hperm : labels.Perm (first :: others))
    (hnodup : ((first :: others).map (·.name)).Nodup) : ∀ label ∈ first :: others, label.Legible := by
  have hnames : ∀ label ∈ first :: others, isName isLabelStart isLabelByte label.name = true :=
    fun label hlabel => readLabels_isName hread label (hperm.mem_iff.mpr hlabel)
  induction others generalizing first labels with
  | nil =>
    rw [rawLabels_nil] at hread
    obtain ⟨label, behind, hlabel, -, hmem⟩ := readLabels_head (hnames first List.mem_cons_self) hread
    obtain rfl := List.mem_singleton.mp (hperm.mem_iff.mp hmem)
    exact List.forall_mem_singleton.mpr
      (legible_of_readLabel (hnames label List.mem_cons_self) hlabel).1
  | cons second others ih =>
    rw [rawLabels_cons] at hread
    obtain ⟨label, behind, hlabel, hname, hmem⟩ := readLabels_head (hnames first List.mem_cons_self) hread
    obtain rfl : label = first :=
      List.inj_on_of_nodup_map hnodup (hperm.mem_iff.mp hmem) List.mem_cons_self hname
    obtain ⟨hlegible, -⟩ := legible_of_readLabel (hnames label List.mem_cons_self) hlabel
    rw [readLabels_comma hlegible] at hread
    obtain ⟨⟨labels, tail⟩, hothers, hpair⟩ := Option.map_eq_some_iff.mp hread
    cases hpair
    exact List.forall_mem_cons.mpr ⟨hlegible, ih hothers ((List.perm_cons label).mp hperm)
      (List.nodup_cons.mp hnodup).2 (List.forall_mem_cons.mp hnames).2⟩

end Lists

def rawBraces : List Label → List UInt8
  | [] => []
  | first :: others => openBrace :: (rawLabels first others ++ [closeBrace])

/-- A sample written as it is. -/
def rawSample (name : List UInt8) (labels : List Label) (value : List UInt8) : List UInt8 :=
  name ++ (rawBraces labels ++ space :: (value ++ [newline]))

/-- A value that is one token, and that is not taken for labels. -/
def IsValue (value : List UInt8) : Prop := ∀ byte ∈ value, isToken byte = true ∧ byte ≠ openBrace

instance (value : List UInt8) : Decidable (IsValue value) :=
  List.decidableBAll (fun byte => isToken byte = true ∧ byte ≠ openBrace) value

section Samples

variable {name value : List UInt8} {labels : List Label}

theorem skipBlanks_value (hvalue : IsValue value) :
    skipBlanks (space :: (value ++ [newline])) = value ++ [newline] := by
  rw [skipBlanks, List.dropWhile_cons_of_pos (by decide)]
  cases value with
  | nil => exact skipBlanks_cons (by decide) []
  | cons first rest =>
    have htoken := (hvalue first List.mem_cons_self).1
    rw [isToken, Bool.and_eq_true, Bool.not_eq_true'] at htoken
    exact skipBlanks_cons htoken.1 (rest ++ [newline])

theorem readNumbers_skipBlanks (text : List UInt8) : readNumbers (skipBlanks text) = readNumbers text := by
  have hidem : skipBlanks (skipBlanks text) = skipBlanks text := List.dropWhile_idempotent isBlank text
  rw [readNumbers, hidem]
  rfl

/-- A value at the end of a line is read as a float, without a timestamp. -/
theorem readNumbers_value (hvalue : IsValue value) :
    readNumbers (space :: (value ++ [newline])) = if isFloat value then some (value, []) else none := by
  have htokens : ∀ byte ∈ value, isToken byte = true := fun byte hbyte => (hvalue byte hbyte).1
  have htake : (value ++ [newline]).takeWhile isToken = value := by
    rw [List.takeWhile_append_of_pos htokens, List.takeWhile_cons_of_neg (by decide), List.append_nil]
  have hdrop : (value ++ [newline]).dropWhile isToken = [newline] := by
    rw [List.dropWhile_append_of_pos htokens, List.dropWhile_cons_of_neg (by decide)]
  have hend : skipBlanks [newline] = [newline] := by decide
  have htimestamp : [newline].takeWhile isToken = [] := by decide
  have hrest : [newline].dropWhile isToken = [newline] := by decide
  simp only [readNumbers, skipBlanks_value hvalue, htake, hdrop, hend, htimestamp, hrest, List.isEmpty_nil,
    Bool.true_or, and_true]

/-- The name is read up to the braces, or to the blank. -/
theorem readSample_raw (hname : isName isMetricStart isMetricByte name = true) :
    readSample (rawSample name labels value) =
      (readBraces (skipBlanks (rawBraces labels ++ space :: (value ++ [newline])))).bind fun (labels, text) =>
        (readNumbers text).bind fun (value, timestamp) =>
          if (labels.map (·.name)).Nodup then some { name, labels, value, timestamp } else none := by
  have hread : readName isMetricStart isMetricByte (rawSample name labels value) =
      some (name, rawBraces labels ++ space :: (value ++ [newline])) := by
    cases labels with
    | nil => exact readName_append hname (by decide) (value ++ [newline])
    | cons first others => exact readName_append hname (by decide) _
  rw [readSample, rawSample, skipBlanks_name (by decide) (by decide) hname, ← rawSample, hread]
  rfl

/-- What is read as a sample has a name of the grammar. -/
theorem readSample_isName {text : List UInt8} {sample : Sample} (hread : readSample text = some sample) :
    isName isMetricStart isMetricByte sample.name = true := by
  simp only [readSample, Option.bind_eq_bind, Option.bind_eq_some_iff, Prod.exists] at hread
  obtain ⟨name, afterName, hname, labels, behind, -, value, timestamp, -, hsample⟩ := hread
  simp only [Option.ite_none_right_eq_some, Option.some.injEq] at hsample
  obtain ⟨-, rfl⟩ := hsample
  exact readName_isName hname

/-- A sample may be written without braces. -/
theorem readBraces_nil (hvalue : IsValue value) :
    readBraces (skipBlanks (rawBraces [] ++ space :: (value ++ [newline]))) =
      some ([], skipBlanks (space :: (value ++ [newline]))) := by
  have hbrace : expect openBrace (value ++ [newline]) = none := by
    cases value with
    | nil => rfl
    | cons first rest => exact expect_of_ne (hvalue first List.mem_cons_self).2 (rest ++ [newline])
  rw [rawBraces, List.nil_append, skipBlanks_value hvalue, readBraces, hbrace]

theorem readBraces_cons (first : Label) (others : List Label) (rest : List UInt8) :
    readBraces (skipBlanks (rawBraces (first :: others) ++ rest)) =
      readLabels (rawLabels first others ++ closeBrace :: rest) := by
  rw [rawBraces, List.cons_append, skipBlanks_cons (by decide), readBraces, expect_self, List.append_assoc]
  rfl

/-- What is read of legible labels: the labels, and the value behind them. -/
theorem readBraces_of_legible (hvalue : IsValue value) (hlegible : ∀ label ∈ labels, label.Legible) :
    ∃ text, readBraces (skipBlanks (rawBraces labels ++ space :: (value ++ [newline]))) = some (labels, text) ∧
      readNumbers text = readNumbers (space :: (value ++ [newline])) := by
  cases labels with
  | nil => exact ⟨_, readBraces_nil hvalue, readNumbers_skipBlanks _⟩
  | cons first others =>
    refine ⟨space :: (value ++ [newline]), ?_, rfl⟩
    rw [readBraces_cons, readLabels_of_legible hlegible]

/-- A sample whose labels are legible and of different names reads back exactly
when its value is a float. -/
theorem readSample_of_legible (hname : isName isMetricStart isMetricByte name = true) (hvalue : IsValue value)
    (hlegible : ∀ label ∈ labels, label.Legible) (hnodup : (labels.map (·.name)).Nodup) :
    readSample (rawSample name labels value) =
      if isFloat value then some { name, labels, value, timestamp := [] } else none := by
  obtain ⟨text, hbraces, hnumbers⟩ := readBraces_of_legible hvalue hlegible
  rw [readSample_raw hname, hbraces, Option.bind_some]
  dsimp only
  rw [hnumbers, readNumbers_value hvalue]
  by_cases hfloat : isFloat value = true
  · rw [if_pos hfloat, if_pos hfloat, Option.bind_some]
    exact if_pos hnodup
  · rw [if_neg hfloat, if_neg hfloat, Option.bind_none]

/-- Only legible labels are read as they were written. -/
theorem legible_of_readSample (hvalue : IsValue value) (hnodup : (labels.map (·.name)).Nodup) {sample : Sample}
    (hread : readSample (rawSample name labels value) = some sample) (hname : sample.name = name)
    (hperm : sample.labels.Perm labels) :
    isName isMetricStart isMetricByte name = true ∧ (∀ label ∈ labels, label.Legible) ∧ isFloat value = true := by
  have hmetric : isName isMetricStart isMetricByte name = true := by
    rw [← hname]
    exact readSample_isName hread
  have hlegible : ∀ label ∈ labels, label.Legible := by
    cases labels with
    | nil => exact nofun
    | cons first others =>
      have hlabels := hread
      rw [readSample_raw hmetric, readBraces_cons] at hlabels
      obtain ⟨⟨read, text⟩, hraw, hothers⟩ := Option.bind_eq_some_iff.mp hlabels
      obtain ⟨⟨number, timestamp⟩, -, hsample⟩ := Option.bind_eq_some_iff.mp hothers
      simp only [Option.ite_none_right_eq_some, Option.some.injEq] at hsample
      obtain ⟨-, rfl⟩ := hsample
      exact legible_of_readLabels hraw hperm hnodup
  refine ⟨hmetric, hlegible, ?_⟩
  rw [readSample_of_legible hmetric hvalue hlegible hnodup, Option.ite_none_right_eq_some] at hread
  exact hread.1

/-- A sample with different label names is read as it was written exactly when its
name, its labels and its value can be. -/
theorem readSample_raw_iff (hvalue : IsValue value) (hnodup : (labels.map (·.name)).Nodup) :
    (∃ sample, readSample (rawSample name labels value) = some sample ∧ sample.name = name ∧
        sample.labels.Perm labels) ↔
      isName isMetricStart isMetricByte name = true ∧ (∀ label ∈ labels, label.Legible) ∧ isFloat value = true := by
  constructor
  · rintro ⟨sample, hread, hname, hperm⟩
    exact legible_of_readSample hvalue hnodup hread hname hperm
  · rintro ⟨hname, hlegible, hfloat⟩
    refine ⟨{ name, labels, value, timestamp := [] }, ?_, rfl, List.Perm.refl labels⟩
    rw [readSample_of_legible hname hvalue hlegible hnodup, if_pos hfloat]

end Samples

section Lines

variable {name value : List UInt8} {labels : List Label}

/-- No name holds a newline. -/
theorem newline_not_mem_name {start inner : UInt8 → Bool} (hstart : start newline = false)
    (hinner : inner newline = false) (hname : isName start inner name = true) : newline ∉ name := by
  cases name with
  | nil => cases hname
  | cons first name =>
    rw [isName, Bool.and_eq_true, List.all_eq_true] at hname
    rw [List.mem_cons, not_or]
    constructor
    · rintro rfl
      rw [hstart] at hname
      cases hname.1
    · intro hmem
      have himpossible := hname.2 newline hmem
      rw [hinner] at himpossible
      cases himpossible

/-- A legible label stays on its line. -/
theorem Label.Legible.newline_not_mem {label : Label} (hlegible : label.Legible) : newline ∉ label.raw := by
  have hname := newline_not_mem_name (by decide) (by decide) hlegible.name
  have hvalue : newline ∉ label.value := fun hmem => (hlegible.plain newline hmem).2.2 rfl
  simp only [raw, List.mem_append, List.mem_cons, List.not_mem_nil, not_or]
  exact ⟨hname, by decide, by decide, hvalue, by decide, not_false⟩

/-- Legible labels stay on their line. -/
theorem newline_not_mem_braces (hlegible : ∀ label ∈ labels, label.Legible) : newline ∉ rawBraces labels := by
  cases labels with
  | nil => exact List.not_mem_nil
  | cons first others =>
    obtain ⟨hfirst, hothers⟩ := List.forall_mem_cons.mp hlegible
    simp only [rawBraces, rawLabels, List.mem_cons, List.mem_append, List.mem_flatMap, List.not_mem_nil, not_or,
      not_exists, not_and]
    exact ⟨by decide, ⟨hfirst.newline_not_mem, fun label hmem => ⟨by decide, (hothers label hmem).newline_not_mem⟩⟩,
      by decide, not_false⟩

/-- A legible sample is one line. -/
theorem newline_not_mem_sample (hname : isName isMetricStart isMetricByte name = true) (hvalue : IsValue value)
    (hlegible : ∀ label ∈ labels, label.Legible) : newline ∉ name ++ (rawBraces labels ++ space :: value) := by
  have hend : newline ∉ value := fun hmem => absurd (hvalue newline hmem).1 (by decide)
  simp only [List.mem_append, List.mem_cons, not_or]
  exact ⟨newline_not_mem_name (by decide) (by decide) hname, newline_not_mem_braces hlegible, by decide, hend⟩

end Lines

end exposition
