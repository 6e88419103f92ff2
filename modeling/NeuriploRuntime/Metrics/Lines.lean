import NeuriploRuntime.Exposition.Sample
import NeuriploRuntime.Numeral.Double

namespace neuriplo.metrics

open numeral exposition stream

/-- `std::map<std::string, std::string>`: the keys are in ascending order. -/
structure LabelMap where
  entries : List Label
  sorted : (entries.map (·.name)).Pairwise (· < ·)

/-- `val_str` without the zeros at its end, and without a point that is left there. -/
def trimZeros (val_str : List Char) : List Char :=
  let val_str := val_str.rdropWhile (· = '0')
  if val_str.getLast? = some '.' then val_str.dropLast else val_str

/-- What is put after the space of a line. -/
def valueText (value : Double) : List UInt8 := (trimZeros (value.fixedText 6)).map Char.toUInt8

/-- One round of the loop over the labels: the text so far, and `first`. -/
def appendLabel (written : List UInt8 × Bool) (label : Label) : List UInt8 × Bool :=
  let (out, first) := written
  let out := if !first then out ++ [comma] else out
  let out := out ++ label.name ++ [equals, quote]
  let out := out ++ label.value ++ [quote]
  (out, false)

def appendLine (out name : List UInt8) (labels : LabelMap) (value : Double) : List UInt8 :=
  let out := out ++ name
  let out :=
    if !labels.entries.isEmpty then (labels.entries.foldl appendLabel (out ++ [openBrace], true)).1 ++ [closeBrace]
    else out
  out ++ [space] ++ valueText value ++ [newline]

/-- `labels["deployment"]`, where there is a deployment. -/
def deploymentLabel (deployment_ : List UInt8) : List Label :=
  if !deployment_.isEmpty then [{ name := octets "deployment", value := deployment_ }] else []

/-- The labels of a model. -/
def modelLabel (deployment_ model version : List UInt8) : LabelMap where
  entries := deploymentLabel deployment_ ++
    [{ name := octets "model", value := model }, { name := octets "version", value := version }]
  sorted := by
    unfold deploymentLabel
    split <;> simp only [List.map_append, List.map_cons, List.map_nil] <;> decide

/-- The labels of a count of requests. -/
def requestLabels (deployment_ model version status : List UInt8) : LabelMap where
  entries := deploymentLabel deployment_ ++
    [{ name := octets "model", value := model }, { name := octets "status", value := status },
      { name := octets "version", value := version }]
  sorted := by
    unfold deploymentLabel
    split <;> simp only [List.map_append, List.map_cons, List.map_nil] <;> decide

/-- The line of a metric is read as its name and its labels. -/
def ReadsBack (name : List UInt8) (labels : LabelMap) (value : Double) : Prop :=
  ∃ sample, readSample (appendLine [] name labels value) = some sample ∧ sample.name = name ∧
    sample.labels.Perm labels.entries

/-- The name and the keys are names, no value of a label needs an escape or is other
than UTF-8, and the value of the metric has a text that is read. -/
structure Legible (name : List UInt8) (labels : LabelMap) (value : Double) : Prop where
  name : isName isMetricStart isMetricByte name = true
  keys : ∀ label ∈ labels.entries, isName isLabelStart isLabelByte label.name = true
  plain : ∀ label ∈ labels.entries, IsPlain label.value
  utf8 : ∀ label ∈ labels.entries, IsUtf8 label.value
  value : value.IsNan → value.negative = false

/-- The labels of a map have different names. -/
theorem LabelMap.nodup (labels : LabelMap) : (labels.entries.map (·.name)).Nodup := by
  apply labels.sorted.imp
  rintro name other hlt rfl
  exact List.lt_irrefl name hlt

/-- Behind the first label each one follows a comma. -/
theorem appendLabel_others (out : List UInt8) (others : List Label) :
    others.foldl appendLabel (out, false) = (out ++ others.flatMap fun label => comma :: label.raw, false) := by
  induction others generalizing out with
  | nil => rw [List.flatMap_nil, List.append_nil, List.foldl_nil]
  | cons label others ih =>
    rw [List.foldl_cons, appendLabel, ih]
    simp [Label.raw]

/-- A line is what it would be without escapes. -/
theorem appendLine_eq (out name : List UInt8) (labels : LabelMap) (value : Double) :
    appendLine out name labels value = out ++ rawSample name labels.entries (valueText value) := by
  unfold appendLine
  cases labels.entries with
  | nil => simp [rawSample, rawBraces]
  | cons first others =>
    simp [appendLabel, appendLabel_others, rawSample, rawBraces, rawLabels, Label.raw]

example : appendLine [] (octets "up") (modelLabel [] (octets "m") (octets "1"))
    { negative := false, exponent := 1023, fraction := 2 ^ 51 } =
      octets "up\x7bmodel=\"m\",version=\"1\"\x7d 1.5\n" := by decide +kernel

section Values

variable {front places : List Char} {value : Double}

/-- Trailing zeros are dropped down to the point. -/
theorem rdropWhile_point (front places : List Char) :
    (front ++ '.' :: places).rdropWhile (· = '0') = front ++ '.' :: places.rdropWhile (· = '0') := by
  have hreverse : (front ++ '.' :: places).reverse = places.reverse ++ '.' :: front.reverse := by simp
  rw [List.rdropWhile, hreverse, List.dropWhile_append, List.dropWhile_cons_of_neg (by decide), List.rdropWhile]
  split
  · rename_i hempty
    rw [List.isEmpty_iff.mp hempty]
    simp
  · simp

/-- Of a decimal text only places are trimmed. -/
theorem trimZeros_point (hplaces : ∀ symbol ∈ places, symbol.isDigit = true) :
    trimZeros (front ++ '.' :: places) = front ∨
      ∃ kept, trimZeros (front ++ '.' :: places) = front ++ '.' :: kept ∧ ∀ symbol ∈ kept, symbol.isDigit = true := by
  rw [trimZeros, rdropWhile_point]
  have hkept : ∀ symbol ∈ places.rdropWhile (· = '0'), symbol.isDigit = true :=
    fun symbol hsymbol => hplaces symbol ((List.rdropWhile_prefix _ places).subset hsymbol)
  generalize places.rdropWhile (· = '0') = kept at hkept
  cases hlast : kept.getLast? with
  | none =>
    rw [List.getLast?_eq_none_iff.mp hlast]
    simp
  | some last =>
    have hlastDigit := hkept last (List.mem_of_getLast? hlast)
    have hpoint : (front ++ '.' :: kept).getLast? ≠ some '.' := by
      rw [List.getLast?_append, List.getLast?_cons, hlast]
      rintro hsame
      cases hsame
      cases hlastDigit
    rw [if_neg hpoint]
    exact .inr ⟨kept, rfl, hkept⟩

theorem isDigit_toUInt8 {symbols : List Char} (hsymbols : ∀ symbol ∈ symbols, symbol.isDigit = true) :
    ∀ byte ∈ symbols.map Char.toUInt8, isDigit byte = true := by
  intro byte hbyte
  obtain ⟨symbol, hsymbol, rfl⟩ := List.mem_map.mp hbyte
  obtain ⟨hlow, hhigh⟩ := toUInt8_digit (hsymbols symbol hsymbol)
  rw [isDigit, decide_eq_true hlow, decide_eq_true hhigh]
  rfl

/-- A number is printed in digits. -/
theorem isDigits_toDigits (number : Nat) : isDigits ((Nat.toDigits 10 number).map Char.toUInt8) = true := by
  have hdigits := isDigit_toUInt8 fun symbol hsymbol =>
    Nat.isDigit_of_mem_toDigits (b := 10) (n := number) (by decide) (by decide) hsymbol
  rw [isDigits, Bool.and_eq_true, Bool.not_eq_true', List.isEmpty_eq_false_iff, List.all_eq_true]
  refine ⟨?_, hdigits⟩
  rw [ne_eq, List.map_eq_nil_iff]
  exact Nat.toDigits_ne_nil

/-- The text of a finite number is made of digits, with at most a point among them,
behind the sign. -/
theorem valueText_finite (hfinite : value.IsFinite) :
    ∃ whole, isDigits whole = true ∧ (valueText value = value.sign.map Char.toUInt8 ++ whole ∨
      ∃ kept, (∀ byte ∈ kept, isDigit byte = true) ∧
        valueText value = value.sign.map Char.toUInt8 ++ (whole ++ point :: kept)) := by
  refine ⟨_, isDigits_toDigits (value.scaled 6 / 10 ^ 6), ?_⟩
  have hplaces : ∀ symbol ∈ (Nat.toDigits 10 (value.scaled 6 % 10 ^ 6)).leftpad 6 '0', symbol.isDigit = true :=
    fun symbol hsymbol => isDigit_of_mem_leftpad hsymbol
  rw [valueText, Double.fixedText, if_pos hfinite, ← List.append_assoc]
  obtain hwhole | ⟨kept, hpoint, hkept⟩ := trimZeros_point hplaces
  · rw [hwhole, List.map_append]
    exact .inl rfl
  · rw [hpoint, List.map_append, List.map_append, List.append_assoc]
    exact .inr ⟨kept.map Char.toUInt8, isDigit_toUInt8 hkept, rfl⟩

theorem sign_cases (value : Double) :
    (value.negative = false ∧ value.sign = []) ∨ (value.negative = true ∧ value.sign = ['-']) := by
  unfold Double.sign
  cases value.negative with
  | false => exact .inl ⟨rfl, rfl⟩
  | true => exact .inr ⟨rfl, rfl⟩

/-- What is not a number is printed as `nan`. -/
theorem valueText_nan (hnan : value.IsNan) :
    valueText value = value.sign.map Char.toUInt8 ++ [110, 97, 110] := by
  rw [valueText, Double.fixedText, if_neg hnan.not_isFinite, if_pos hnan]
  obtain ⟨-, hsign⟩ | ⟨-, hsign⟩ := sign_cases value <;> rw [hsign] <;> decide

/-- What is infinite is printed as `inf`. -/
theorem valueText_infinite (hfinite : ¬ value.IsFinite) (hnan : ¬ value.IsNan) :
    valueText value = value.sign.map Char.toUInt8 ++ [105, 110, 102] := by
  rw [valueText, Double.fixedText, if_neg hfinite, if_neg hnan]
  obtain ⟨-, hsign⟩ | ⟨-, hsign⟩ := sign_cases value <;> rw [hsign] <;> decide

/-- Values end to end are one. -/
theorem isValue_append {front rest : List UInt8} (hfront : IsValue front) (hrest : IsValue rest) :
    IsValue (front ++ rest) := List.forall_mem_append.mpr ⟨hfront, hrest⟩

theorem isValue_sign (value : Double) : IsValue (value.sign.map Char.toUInt8) := by
  obtain ⟨-, hsign⟩ | ⟨-, hsign⟩ := sign_cases value <;> rw [hsign] <;> decide

theorem isValue_digits {digits : List UInt8} (hdigits : ∀ byte ∈ digits, isDigit byte = true) : IsValue digits := by
  intro byte hbyte
  have hdigit := hdigits byte hbyte
  have hspace := isDigit_ne hdigit (show isDigit space = false by decide)
  have htabulator := isDigit_ne hdigit (show isDigit 9 = false by decide)
  have hnewline := isDigit_ne hdigit (show isDigit newline = false by decide)
  refine ⟨?_, isDigit_ne hdigit (by decide)⟩
  rw [isToken, isBlank, decide_eq_false hspace, decide_eq_false htabulator, decide_eq_true hnewline]
  rfl

/-- The text of a number is a token. -/
theorem isValue_valueText (value : Double) : IsValue (valueText value) := by
  by_cases hfinite : value.IsFinite
  · obtain ⟨whole, hwhole, htext⟩ := valueText_finite hfinite
    rw [isDigits, Bool.and_eq_true, List.all_eq_true] at hwhole
    have hfront := isValue_append (isValue_sign value) (isValue_digits hwhole.2)
    obtain htext | ⟨kept, hkept, htext⟩ := htext
    · rw [htext]
      exact hfront
    · have hpoint : IsValue [point] := by decide
      rw [htext, ← List.append_assoc]
      exact isValue_append hfront (isValue_append hpoint (isValue_digits hkept))
  by_cases hnan : value.IsNan
  · rw [valueText_nan hnan]
    exact isValue_append (isValue_sign value) (by decide)
  · rw [valueText_infinite hfinite hnan]
    exact isValue_append (isValue_sign value) (by decide)

/-- The sign is read off the front of a value. -/
theorem dropSign_sign {whole : List UInt8} (hwhole : isDigits whole = true) (rest : List UInt8) :
    dropSign (value.sign.map Char.toUInt8 ++ (whole ++ rest)) = whole ++ rest := by
  obtain ⟨-, hsign⟩ | ⟨-, hsign⟩ := sign_cases value
  · rw [hsign]
    exact dropSign_digits hwhole rest
  · rw [hsign]
    rfl

/-- Only a negative number that is not a number has a text that is not read. -/
theorem isFloat_valueText_iff (value : Double) :
    isFloat (valueText value) = true ↔ (value.IsNan → value.negative = false) := by
  by_cases hfinite : value.IsFinite
  · have hnan : ¬ value.IsNan := fun hnan => hnan.not_isFinite hfinite
    simp only [hnan, false_imp_iff, iff_true]
    obtain ⟨whole, hwhole, htext | ⟨kept, hkept, htext⟩⟩ := valueText_finite hfinite
    · rw [htext, ← List.append_nil whole]
      apply isFloat_of_isDecimal
      rw [dropSign_sign hwhole, List.append_nil]
      exact isDecimal_digits hwhole
    · rw [htext]
      apply isFloat_of_isDecimal
      rw [dropSign_sign hwhole]
      exact isDecimal_point hwhole hkept
  by_cases hnan : value.IsNan
  · rw [valueText_nan hnan]
    obtain ⟨hnegative, hsign⟩ | ⟨hnegative, hsign⟩ := sign_cases value
    · rw [hsign, hnegative]
      exact iff_of_true (by decide) fun _ => rfl
    · rw [hsign, hnegative]
      exact iff_of_false (by decide) fun hpositive => Bool.noConfusion (hpositive hnan)
  · rw [valueText_infinite hfinite hnan]
    simp only [hnan, false_imp_iff, iff_true]
    obtain ⟨-, hsign⟩ | ⟨-, hsign⟩ := sign_cases value <;> rw [hsign] <;> decide

end Values

section Lines

variable {name : List UInt8} {labels : LabelMap} {value : Double}

/-- A line is legible exactly when its name, its labels and its value are. -/
theorem legible_iff : Legible name labels value ↔ isName isMetricStart isMetricByte name = true ∧
    (∀ label ∈ labels.entries, label.Legible) ∧ isFloat (valueText value) = true := by
  rw [isFloat_valueText_iff]
  constructor
  · rintro ⟨hname, hkeys, hplain, hutf8, hvalue⟩
    exact ⟨hname, fun label hlabel => ⟨hkeys label hlabel, hplain label hlabel, hutf8 label hlabel⟩, hvalue⟩
  · rintro ⟨hname, hlabels, hvalue⟩
    exact ⟨hname, fun label hlabel => (hlabels label hlabel).name, fun label hlabel => (hlabels label hlabel).plain,
      fun label hlabel => (hlabels label hlabel).utf8, hvalue⟩

/-- A line reads back exactly when it is legible. -/
theorem readsBack_iff_legible : ReadsBack name labels value ↔ Legible name labels value := by
  rw [ReadsBack, appendLine_eq, List.nil_append, readSample_raw_iff (isValue_valueText value) labels.nodup,
    legible_iff]

/-- What is read of a legible line. -/
theorem Legible.readSample_appendLine (hlegible : Legible name labels value) :
    readSample (appendLine [] name labels value) =
      some { name, labels := labels.entries, value := valueText value, timestamp := [] } := by
  obtain ⟨hname, hlabels, hvalue⟩ := legible_iff.mp hlegible
  rw [appendLine_eq, List.nil_append, readSample_of_legible hname (isValue_valueText value) hlabels labels.nodup,
    if_pos hvalue]

/-- The labels of two legible lines are alike where the lines are. -/
theorem Legible.labels_eq (hlegible : Legible name labels value) {otherName : List UInt8} {others : LabelMap}
    {otherValue : Double} (hothers : Legible otherName others otherValue)
    (hlines : appendLine [] name labels value = appendLine [] otherName others otherValue) :
    name = otherName ∧ labels = others := by
  have hread := hlegible.readSample_appendLine
  rw [hlines, hothers.readSample_appendLine, Option.some.injEq, Sample.mk.injEq] at hread
  obtain ⟨hname, hlabels, -⟩ := hread
  cases labels
  cases others
  cases hlabels
  exact ⟨hname.symm, rfl⟩

/-- Where the keys are names all depends on the values of the labels. -/
theorem legible_iff_values (hname : isName isMetricStart isMetricByte name = true) (hvalue : value.IsFinite)
    (hkeys : ∀ label ∈ labels.entries, isName isLabelStart isLabelByte label.name = true) :
    Legible name labels value ↔ ∀ label ∈ labels.entries, IsPlain label.value ∧ IsUtf8 label.value := by
  constructor
  · exact fun hlegible label hlabel => ⟨hlegible.plain label hlabel, hlegible.utf8 label hlabel⟩
  · exact fun hvalues => ⟨hname, hkeys, fun label hlabel => (hvalues label hlabel).1,
      fun label hlabel => (hvalues label hlabel).2, fun hnan => absurd hvalue hnan.not_isFinite⟩

/-- The deployment's label has a name of the grammar. -/
theorem deploymentLabel_keys (deployment_ : List UInt8) :
    ∀ label ∈ deploymentLabel deployment_, isName isLabelStart isLabelByte label.name = true := by
  unfold deploymentLabel
  split
  · exact List.forall_mem_singleton.mpr (show isName isLabelStart isLabelByte (octets "deployment") = true by decide)
  · rintro label ⟨⟩

/-- The deployment is labelled unless it is empty. -/
theorem forall_deploymentLabel {P : List UInt8 → Prop} (hempty : P []) (deployment_ : List UInt8) :
    (∀ label ∈ deploymentLabel deployment_, P label.value) ↔ P deployment_ := by
  cases deployment_ with
  | nil => exact iff_of_true (by rintro label ⟨⟩) hempty
  | cons first rest => exact List.forall_mem_singleton

/-- The keys of the registry are names, so all depends on the values. -/
theorem legible_deploymentLabel_iff {deployment_ : List UInt8} {others : List Label}
    (hname : isName isMetricStart isMetricByte name = true) (hvalue : value.IsFinite)
    (hentries : labels.entries = deploymentLabel deployment_ ++ others)
    (hkeys : ∀ label ∈ others, isName isLabelStart isLabelByte label.name = true) :
    Legible name labels value ↔
      ∀ text ∈ deployment_ :: others.map (·.value), IsPlain text ∧ IsUtf8 text := by
  have hallKeys : ∀ label ∈ labels.entries, isName isLabelStart isLabelByte label.name = true := by
    rw [hentries, List.forall_mem_append]
    exact ⟨deploymentLabel_keys deployment_, hkeys⟩
  rw [legible_iff_values hname hvalue hallKeys, hentries, List.forall_mem_append,
    @forall_deploymentLabel (fun text => IsPlain text ∧ IsUtf8 text) (by decide), List.forall_mem_cons,
    List.forall_mem_map]

/-- A line about a model is legible exactly when its names are plain. -/
theorem legible_modelLabel_iff {deployment_ model version : List UInt8}
    (hname : isName isMetricStart isMetricByte name = true) (hvalue : value.IsFinite) :
    Legible name (modelLabel deployment_ model version) value ↔
      ∀ text ∈ [deployment_, model, version], IsPlain text ∧ IsUtf8 text := by
  have hentries : (modelLabel deployment_ model version).entries = deploymentLabel deployment_ ++
      [{ name := octets "model", value := model }, { name := octets "version", value := version }] := rfl
  refine legible_deploymentLabel_iff hname hvalue hentries ?_
  simp only [List.forall_mem_cons, List.not_mem_nil, false_imp_iff, implies_true, and_true]
  decide

/-- A line about a model's requests is legible exactly when its names are plain. -/
theorem legible_requestLabels_iff {deployment_ model version status : List UInt8}
    (hname : isName isMetricStart isMetricByte name = true) (hvalue : value.IsFinite) :
    Legible name (requestLabels deployment_ model version status) value ↔
      ∀ text ∈ [deployment_, model, status, version], IsPlain text ∧ IsUtf8 text := by
  have hentries : (requestLabels deployment_ model version status).entries = deploymentLabel deployment_ ++
      [{ name := octets "model", value := model }, { name := octets "status", value := status },
        { name := octets "version", value := version }] := rfl
  refine legible_deploymentLabel_iff hname hvalue hentries ?_
  simp only [List.forall_mem_cons, List.not_mem_nil, false_imp_iff, implies_true, and_true]
  decide

/-- A legible line ends once. -/
theorem Legible.one_line (hlegible : Legible name labels value) (out : List UInt8) :
    ∃ line, appendLine out name labels value = out ++ (line ++ [newline]) ∧ newline ∉ line := by
  obtain ⟨hname, hlabels, -⟩ := legible_iff.mp hlegible
  refine ⟨_, ?_, newline_not_mem_sample hname (isValue_valueText value) hlabels⟩
  rw [appendLine_eq, rawSample]
  simp

end Lines

/-- A line is read as its name and its labels exactly when no value of a label has
to be escaped or encoded. Then it is one line, and no other labels that can be read
have it. -/
theorem metric_lines_read_back (name otherName out : List UInt8) (labels others : LabelMap)
    (value otherValue : Double) :
    (ReadsBack name labels value ↔ Legible name labels value) ∧
      (Legible name labels value → Legible otherName others otherValue →
        appendLine [] name labels value = appendLine [] otherName others otherValue →
        name = otherName ∧ labels = others) ∧
      (Legible name labels value →
        ∃ line, appendLine out name labels value = out ++ (line ++ [newline]) ∧ newline ∉ line) := by
  refine ⟨readsBack_iff_legible, ?_, ?_⟩
  · exact fun hlegible hothers hlines => hlegible.labels_eq hothers hlines
  · exact fun hlegible => hlegible.one_line out

/-- A quote in the name of a model ends its label, and a model whose name goes on
like its labels has the line of another one. -/
theorem quote_ends_label :
    isName isMetricStart isMetricByte (octets "neuriplo_scheduler_queue_depth") = true ∧
      ¬ ReadsBack (octets "neuriplo_scheduler_queue_depth")
          (modelLabel [] (octets "de" ++ quote :: octets "mo") (octets "1")) Double.zero ∧
      ∃ labels others, labels ≠ others ∧ appendLine [] (octets "neuriplo_scheduler_queue_depth") labels Double.zero =
        appendLine [] (octets "neuriplo_scheduler_queue_depth") others Double.zero := by
  refine ⟨by decide, ?_, ?_⟩
  · intro hread
    have hplain := (readsBack_iff_legible.mp hread).plain
    revert hplain
    decide
  · refine ⟨modelLabel [] (octets "a" ++ quote :: octets ",version=" ++ quote :: octets "1") (octets "2"),
      modelLabel [] (octets "a") (octets "1" ++ quote :: octets ",version=" ++ quote :: octets "2"), ?_, ?_⟩
    · intro hsame
      have hentries := congrArg LabelMap.entries hsame
      revert hentries
      decide
    · have hbraces : rawBraces (modelLabel [] (octets "a" ++ quote :: octets ",version=" ++ quote :: octets "1")
          (octets "2")).entries = rawBraces (modelLabel [] (octets "a")
            (octets "1" ++ quote :: octets ",version=" ++ quote :: octets "2")).entries := by decide
      rw [appendLine_eq, appendLine_eq, rawSample, rawSample, hbraces]

end neuriplo.metrics
