import Mathlib.Data.List.TakeWhile

namespace stream

variable {α : Type*}

section Cut

variable [DecidableEq α] {separator : α}

/-- What comes before the first separator. -/
def segment (separator : α) (word : List α) : List α := word.takeWhile (· ≠ separator)

/-- The word from its first separator on. -/
def behind (separator : α) (word : List α) : List α := word.dropWhile (· ≠ separator)

/-- A word that is empty or starts with the separator. -/
def Starts (separator : α) (word : List α) : Prop := word = [] ∨ ∃ rest, word = separator :: rest

/-- A word is its first segment and what is behind it. -/
theorem segment_append_behind (separator : α) (word : List α) :
    segment separator word ++ behind separator word = word := List.takeWhile_append_dropWhile

/-- A segment ends before the separator. -/
theorem separator_not_mem_segment (separator : α) (word : List α) : separator ∉ segment separator word := by
  intro hmem
  have hne := List.mem_takeWhile_imp hmem
  simp at hne

/-- Behind a segment is the separator or nothing. -/
theorem starts_behind (separator : α) (word : List α) : Starts separator (behind separator word) := by
  induction word with
  | nil => exact .inl rfl
  | cons first word ih =>
    by_cases hfirst : first = separator
    · subst hfirst
      exact .inr ⟨word, by simp [behind]⟩
    · have hskip : behind separator (first :: word) = behind separator word := by simp [behind, hfirst]
      rw [hskip]
      exact ih

/-- A word that is put together from a segment and what is behind it is cut there. -/
theorem segment_append {name rest : List α} (hname : separator ∉ name) (hrest : Starts separator rest) :
    segment separator (name ++ rest) = name ∧ behind separator (name ++ rest) = rest := by
  have hall : ∀ symbol ∈ name, decide (symbol ≠ separator) = true := by
    intro symbol hmem
    rw [decide_eq_true_eq]
    rintro rfl
    exact hname hmem
  have hstop : rest.takeWhile (· ≠ separator) = [] ∧ rest.dropWhile (· ≠ separator) = rest := by
    rcases hrest with rfl | ⟨rest, rfl⟩ <;> simp
  constructor
  · rw [segment, List.takeWhile_append_of_pos hall, hstop.1, List.append_nil]
  · rw [behind, List.dropWhile_append_of_pos hall, hstop.2]

end Cut

/-- Words that start differently are different. -/
theorem append_ne_of_not_prefix {start word : List α} (hstart : ¬ start <+: word) (rest : List α) :
    start ++ rest ≠ word := by
  rintro rfl
  exact hstart (List.prefix_append start rest)

/-- A word that starts as one text does not start as another, unless that is a
start of the first. -/
theorem not_prefix_append {start other : List α} (hother : ¬ other <+: start) (hlength : other.length ≤ start.length)
    (rest : List α) : ¬ other <+: start ++ rest := by
  intro hstart
  exact hother (List.prefix_of_prefix_length_le hstart (List.prefix_append start rest) hlength)

end stream
