import NeuriploRuntime.Http.SizeLimit

open neuriplo.tensor stream

namespace neuriplo.http

/-- A line that can be written as it is. -/
structure Line (line : List UInt8) : Prop where
  nonempty : line ≠ []
  carriage : 13 ∉ line
  feed : 10 ∉ line

/-- The lines of a header block, without what ends the last one. -/
def joinLines : List (List UInt8) → List UInt8
  | [] => []
  | [line] => line
  | line :: next :: lines => line ++ 13 :: 10 :: joinLines (next :: lines)

theorem blankLine_eq : blankLine = [13, 10, 13, 10] := by decide

/-- Where no blank line starts, the search goes on one octet further. -/
theorem find_skip {first : UInt8} {rest : List UInt8} (hskip : ¬ blankLine <+: first :: rest) :
    find blankLine (first :: rest) = (find blankLine rest).map (· + 1) := by
  rw [find, if_neg hskip]

/-- A blank line starts with a carriage return. -/
theorem find_of_ne {first : UInt8} (hfirst : first ≠ 13) (rest : List UInt8) :
    find blankLine (first :: rest) = (find blankLine rest).map (· + 1) := by
  apply find_skip
  rw [blankLine_eq, List.cons_prefix_cons]
  exact fun hstart => hfirst hstart.1.symm

/-- Nothing is found within a line. -/
theorem find_line {line : List UInt8} (hline : 13 ∉ line) (rest : List UInt8) :
    find blankLine (line ++ rest) = (find blankLine rest).map (· + line.length) := by
  induction line with
  | nil => simp
  | cons first line ih =>
    rw [List.mem_cons, not_or] at hline
    rw [List.cons_append, find_of_ne (Ne.symm hline.1), ih hline.2, Option.map_map]
    congr 1

/-- Nothing is found where a line ends and another one starts. -/
theorem find_lineEnd {next : UInt8} (hnext : next ≠ 13) (rest : List UInt8) :
    find blankLine (13 :: 10 :: next :: rest) = (find blankLine (next :: rest)).map (· + 2) := by
  have hskip : ¬ blankLine <+: 13 :: 10 :: next :: rest := by
    rw [blankLine_eq, List.cons_prefix_cons, List.cons_prefix_cons, List.cons_prefix_cons]
    exact fun hstart => hnext hstart.2.2.1.symm
  rw [find_skip hskip, find_of_ne (by decide), Option.map_map]
  congr 1

/-- The blank line is found behind the lines. -/
theorem find_blankLine {lines : List (List UInt8)} (hlines : ∀ line ∈ lines, Line line) (body : List UInt8) :
    find blankLine (joinLines lines ++ (blankLine ++ body)) = some (joinLines lines).length := by
  have hhere : find blankLine (blankLine ++ body) = some 0 := by
    rw [blankLine_eq]
    simp only [List.cons_append, List.nil_append]
    rw [find, if_pos]
    exact List.prefix_append [13, 10, 13, 10] body
  induction lines with
  | nil => exact hhere
  | cons line lines ih =>
    obtain ⟨hline, hlines⟩ := List.forall_mem_cons.mp hlines
    cases lines with
    | nil =>
      rw [joinLines, find_line hline.carriage, hhere, Option.map_some, Nat.zero_add]
    | cons next lines =>
      obtain ⟨first, rest, hnext⟩ := List.exists_cons_of_ne_nil (hlines next List.mem_cons_self).nonempty
      have hfirst : first ≠ 13 := by
        rintro rfl
        apply (hlines next List.mem_cons_self).carriage
        rw [hnext]
        exact List.mem_cons_self
      have hstart : ∃ tail, joinLines (next :: lines) ++ (blankLine ++ body) = first :: tail := by
        cases lines with
        | nil => exact ⟨rest ++ (blankLine ++ body), by rw [joinLines, hnext, List.cons_append]⟩
        | cons other lines =>
          exact ⟨rest ++ 13 :: 10 :: joinLines (other :: lines) ++ (blankLine ++ body), by
            rw [joinLines, hnext, List.cons_append, List.cons_append]⟩
      obtain ⟨tail, htail⟩ := hstart
      rw [joinLines, List.append_assoc, List.cons_append, List.cons_append, find_line hline.carriage, htail,
        find_lineEnd hfirst, ← htail, ih hlines, Option.map_some, Option.map_some, List.length_append,
        List.length_cons, List.length_cons]
      congr 1
      omega

/-- The lines as `getline` gives them. -/
def endLines : List (List UInt8) → List (List UInt8)
  | [] => []
  | [line] => [line]
  | line :: next :: lines => (line ++ [13]) :: endLines (next :: lines)

theorem endLines_ne_nil {lines : List (List UInt8)} (hlines : lines ≠ []) : endLines lines ≠ [] := by
  cases lines with
  | nil => exact absurd rfl hlines
  | cons line lines => cases lines <;> simp [endLines]

/-- Ended lines are what `getline` cuts a block into. -/
theorem joinLines_eq_intercalate (lines : List (List UInt8)) : joinLines lines = [10].intercalate (endLines lines) := by
  induction lines with
  | nil => rfl
  | cons line lines ih =>
    cases lines with
    | nil => rw [joinLines, endLines, List.intercalate_singleton]
    | cons next lines =>
      have hne : endLines (next :: lines) ≠ [] := endLines_ne_nil (List.cons_ne_nil next lines)
      rw [joinLines, endLines, ih, List.intercalate_cons_of_ne_nil hne]
      simp

/-- What `getline` gives of a line has no line feed and is not empty. -/
theorem endLines_line {lines : List (List UInt8)} (hlines : ∀ line ∈ lines, Line line) :
    ∀ line ∈ endLines lines, 10 ∉ line ∧ line ≠ [] := by
  induction lines with
  | nil => simp [endLines]
  | cons line lines ih =>
    obtain ⟨hline, hlines⟩ := List.forall_mem_cons.mp hlines
    cases lines with
    | nil =>
      rw [endLines, List.forall_mem_singleton]
      exact ⟨hline.feed, hline.nonempty⟩
    | cons next lines =>
      rw [endLines, List.forall_mem_cons]
      refine ⟨⟨?_, List.append_ne_nil_of_right_ne_nil line (List.cons_ne_nil 13 [])⟩, ih hlines⟩
      rw [List.mem_append, not_or]
      exact ⟨hline.feed, by decide⟩

/-- `getline` gives the lines back, each but the last with its carriage return. -/
theorem getlines_joinLines {lines : List (List UInt8)} (hlines : ∀ line ∈ lines, Line line) :
    getlines (joinLines lines) = endLines lines := by
  cases hempty : lines with
  | nil =>
    rw [getlines, joinLines, List.splitOn_nil]
    rfl
  | cons line others =>
    have hne : endLines lines ≠ [] := endLines_ne_nil (by simp [hempty])
    have hsplit : (joinLines lines).splitOn 10 = endLines lines := by
      rw [joinLines_eq_intercalate]
      exact List.splitOn_intercalate 10 (fun line hline => (endLines_line hlines line hline).1) hne
    rw [← hempty, getlines, hsplit, if_neg]
    rw [List.getLast?_eq_some_getLast hne, Option.some.injEq]
    exact (endLines_line hlines _ (List.getLast_mem hne)).2

end neuriplo.http
