import NeuriploRuntime.Exposition.Sample

namespace exposition

/-- The sign that starts a comment. -/
def hash : UInt8 := 35

/-- The lines of a text, with the newlines that they end in. -/
def splitLines : List UInt8 → List (List UInt8)
  | [] => []
  | byte :: rest =>
    if byte = newline then [newline] :: splitLines rest
    else
      match splitLines rest with
      | [] => [[byte]]
      | line :: lines => (byte :: line) :: lines

/-- A line without a sample: a comment, or an empty one. -/
def isIgnored (line : List UInt8) : Bool :=
  match skipBlanks line with
  | [] => true
  | first :: _ => first = hash || first = newline

/-- Two samples of one series: the labels may come in any order. -/
def Sample.SameSeries (sample other : Sample) : Prop := sample.name = other.name ∧ sample.labels.Perm other.labels

instance (sample other : Sample) : Decidable (sample.SameSeries other) := inferInstanceAs (Decidable (_ ∧ _))

/-- The samples of a text, of each series at most one. -/
def readPage (text : List UInt8) : Option (List Sample) := do
  let samples ← ((splitLines text).filter (!isIgnored ·)).mapM readSample
  if samples.Pairwise (¬ ·.SameSeries ·) then some samples else none

section Lines

variable {line rest : List UInt8}

/-- A page's first line ends at its first newline. -/
theorem splitLines_append (hline : newline ∉ line) (rest : List UInt8) :
    splitLines (line ++ newline :: rest) = (line ++ [newline]) :: splitLines rest := by
  induction line with
  | nil => simp [splitLines]
  | cons byte line ih =>
    obtain ⟨hbyte, hline⟩ := List.ne_and_not_mem_of_not_mem_cons hline
    rw [List.cons_append, splitLines, if_neg (Ne.symm hbyte), ih hline]
    rfl

theorem isIgnored_comment (line : List UInt8) : isIgnored (hash :: line) = true := by
  rw [isIgnored, skipBlanks_cons (by decide)]
  rfl

/-- A line that starts with a name is not ignored. -/
theorem isIgnored_sample {name : List UInt8} (hname : isName isMetricStart isMetricByte name = true)
    (rest : List UInt8) : isIgnored (name ++ rest) = false := by
  rw [isIgnored, skipBlanks_name (by decide) (by decide) hname]
  cases name with
  | nil => cases hname
  | cons first name =>
    rw [isName, Bool.and_eq_true] at hname
    have hnot {byte : UInt8} (hbyte : isMetricStart byte = false) : first ≠ byte := by
      rintro rfl
      rw [hbyte] at hname
      cases hname.1
    rw [List.cons_append, Bool.or_eq_false_iff, decide_eq_false_iff_not, decide_eq_false_iff_not]
    exact ⟨hnot (by decide), hnot (by decide)⟩

end Lines

/-- A comment, or a sample as it is written. -/
inductive Entry where
  | comment (text : List UInt8)
  | sample (name : List UInt8) (labels : List Label) (value : List UInt8)

def Entry.raw : Entry → List UInt8
  | .comment text => hash :: (text ++ [newline])
  | .sample name labels value => rawSample name labels value

def Entry.sample? : Entry → Option Sample
  | .comment _ => none
  | .sample name labels value => some { name, labels, value, timestamp := [] }

/-- An entry that is read as it is written. -/
def Entry.Legible : Entry → Prop
  | .comment text => newline ∉ text
  | .sample name labels value => isName isMetricStart isMetricByte name = true ∧ IsValue value ∧
      (∀ label ∈ labels, label.Legible) ∧ (labels.map (·.name)).Nodup ∧ isFloat value = true

section Entries

variable {entries : List Entry}

/-- A legible page is read entry by entry. -/
theorem mapM_readSample_raw (hlegible : ∀ entry ∈ entries, entry.Legible) :
    ((splitLines (entries.flatMap (·.raw))).filter (!isIgnored ·)).mapM readSample =
      some (entries.filterMap (·.sample?)) := by
  induction entries with
  | nil => rfl
  | cons entry entries ih =>
    obtain ⟨hentry, hentries⟩ := List.forall_mem_cons.mp hlegible
    rw [List.flatMap_cons]
    cases entry with
    | comment text =>
      have hline : newline ∉ hash :: text := by
        rw [List.mem_cons, not_or]
        exact ⟨by decide, hentry⟩
      have hsplit := splitLines_append hline (entries.flatMap (·.raw))
      have hraw : (Entry.comment text).raw ++ entries.flatMap (·.raw) =
          hash :: text ++ newline :: entries.flatMap (·.raw) := by simp [Entry.raw]
      rw [hraw, hsplit, List.filter_cons_of_neg, ih hentries, List.filterMap_cons_none rfl]
      rw [List.cons_append, isIgnored_comment]
      exact Bool.false_ne_true
    | sample name labels value =>
      obtain ⟨hname, hvalue, hlabels, hnodup, hfloat⟩ := hentry
      have hline := newline_not_mem_sample hname hvalue hlabels
      have hsplit := splitLines_append hline (entries.flatMap (·.raw))
      have hraw : (Entry.sample name labels value).raw = name ++ (rawBraces labels ++ space :: value) ++ [newline] := by
        simp [Entry.raw, rawSample]
      have hread := readSample_of_legible hname hvalue hlabels hnodup
      rw [if_pos hfloat] at hread
      rw [hraw, List.append_assoc, List.singleton_append, hsplit, List.filter_cons_of_pos, List.mapM_cons, ih hentries,
        ← hraw, Entry.raw, hread]
      · rfl
      · rw [List.append_assoc, isIgnored_sample hname]
        rfl

/-- A page of legible entries about different series reads back as its samples. -/
theorem readPage_raw (hlegible : ∀ entry ∈ entries, entry.Legible)
    (hseries : (entries.filterMap (·.sample?)).Pairwise (¬ ·.SameSeries ·)) :
    readPage (entries.flatMap (·.raw)) = some (entries.filterMap (·.sample?)) := by
  rw [readPage, mapM_readSample_raw hlegible]
  exact if_pos hseries

end Entries

end exposition
