import Mathlib.Data.List.Basic

namespace stream

variable {α β : Type*}

section Find

variable [DecidableEq α] {pattern : List α}

/-- The position of the first occurrence of `pattern`. -/
def find (pattern : List α) : List α → Option Nat
  | [] => if pattern = [] then some 0 else none
  | first :: rest => if pattern <+: first :: rest then some 0 else (find pattern rest).map (· + 1)

/-- What is found lies inside the word. -/
theorem find_length {word : List α} {position : Nat} (hfind : find pattern word = some position) :
    position + pattern.length ≤ word.length := by
  induction word generalizing position with
  | nil =>
    simp only [find] at hfind
    split_ifs at hfind with hpattern
    cases hfind
    simp [hpattern]
  | cons first rest ih =>
    simp only [find] at hfind
    split_ifs at hfind with hoccurs
    · cases hfind
      rw [Nat.zero_add]
      exact hoccurs.length_le
    · obtain ⟨before, hrest, rfl⟩ := Option.map_eq_some_iff.mp hfind
      have hbound := ih hrest
      rw [List.length_cons]
      omega

/-- A pattern longer than the word is not in it. -/
theorem find_eq_none_of_length_lt {word : List α} (hshort : word.length < pattern.length) :
    find pattern word = none := by
  cases hfind : find pattern word with
  | none => rfl
  | some position =>
    have hbound := find_length hfind
    omega

/-- An occurrence is found as soon as its last symbol is there. -/
theorem find_take {word : List α} {position : Nat} (hpattern : pattern ≠ []) (hfind : find pattern word = some position)
    (count : Nat) :
    find pattern (word.take count) = if position + pattern.length ≤ count then some position else none := by
  have hpos : 0 < pattern.length := List.length_pos_iff.mpr hpattern
  induction word generalizing position count with
  | nil => simp [find, hpattern] at hfind
  | cons first rest ih =>
    cases count with
    | zero =>
      rw [List.take_zero, if_neg (by omega)]
      simp [find, hpattern]
    | succ count =>
      simp only [find] at hfind
      rw [List.take_succ_cons]
      simp only [find]
      have hoccurs : pattern <+: first :: rest.take count ↔ pattern <+: first :: rest ∧ pattern.length ≤ count + 1 := by
        rw [← List.take_succ_cons]
        exact List.prefix_take_iff
      split_ifs at hfind with hhere
      · cases hfind
        by_cases hroom : pattern.length ≤ count + 1
        · rw [if_pos (hoccurs.mpr ⟨hhere, hroom⟩), Nat.zero_add, if_pos hroom]
        · rw [if_neg (fun hfull => hroom (hoccurs.mp hfull).2), Nat.zero_add, if_neg hroom]
          have hshort : (rest.take count).length < pattern.length := by
            rw [List.length_take]
            omega
          rw [find_eq_none_of_length_lt hshort, Option.map_none]
      · obtain ⟨before, hrest, rfl⟩ := Option.map_eq_some_iff.mp hfind
        rw [if_neg (fun hfull => hhere (hoccurs.mp hfull).1), ih hrest count]
        by_cases hroom : before + pattern.length ≤ count
        · rw [if_pos hroom, if_pos (by omega), Option.map_some]
        · rw [if_neg hroom, if_neg (by omega), Option.map_none]

/-- What comes behind an occurrence does not move it. -/
theorem find_append {word : List α} {position : Nat} (hpattern : pattern ≠ [])
    (hfind : find pattern word = some position) (rest : List α) : find pattern (word ++ rest) = some position := by
  induction word generalizing position with
  | nil => simp [find, hpattern] at hfind
  | cons first word ih =>
    simp only [find] at hfind
    simp only [List.cons_append, find]
    split_ifs at hfind with hoccurs
    · have hlonger : pattern <+: first :: (word ++ rest) := hoccurs.trans (List.prefix_append (first :: word) rest)
      rw [if_pos hlonger]
      exact hfind
    · obtain ⟨before, hbefore, rfl⟩ := Option.map_eq_some_iff.mp hfind
      have hbound := find_length hbefore
      have hnot : ¬pattern <+: first :: (word ++ rest) := by
        intro hlonger
        refine hoccurs (List.prefix_of_prefix_length_le hlonger ⟨rest, rfl⟩ ?_)
        rw [List.length_cons]
        omega
      rw [if_neg hnot, ih hbefore, Option.map_some]

end Find

/-- The chunks a stream arrives in, none of them empty or longer than `limit`. -/
structure Chunking (limit : Nat) (word : List α) (chunks : List (List α)) : Prop where
  flatten : chunks.flatten = word
  nonempty : ∀ chunk ∈ chunks, chunk ≠ []
  bounded : ∀ chunk ∈ chunks, chunk.length ≤ limit

variable (decision : List α → Option β) (finish : List α → β)

/-- Read chunk after chunk until what has arrived is decided. What has arrived at
the end of the stream is finished as it is. -/
def read : List α → List (List α) → β
  | seen, [] => finish seen
  | seen, chunk :: chunks =>
    match decision (seen ++ chunk) with
    | some result => result
    | none => read (seen ++ chunk) chunks

variable {decision finish}

/-- Where every front is undecided or decided in one way, and the whole stream
ends in that way, it does not matter how the stream is cut. -/
theorem read_eq {word seen : List α} {chunks : List (List α)} {result : β}
    (hfronts : ∀ front, front <+: word → decision front = none ∨ decision front = some result)
    (hend : decision word = none → finish word = result) (hchunks : chunks ≠ [])
    (hflatten : seen ++ chunks.flatten = word) : read decision finish seen chunks = result := by
  induction chunks generalizing seen with
  | nil => exact absurd rfl hchunks
  | cons chunk chunks ih =>
    rw [List.flatten_cons, ← List.append_assoc] at hflatten
    simp only [read]
    cases hfronts (seen ++ chunk) ⟨_, hflatten⟩ with
    | inr hdecided => rw [hdecided]
    | inl hundecided =>
      rw [hundecided]
      cases chunks with
      | nil =>
        rw [List.flatten_nil, List.append_nil] at hflatten
        subst hflatten
        exact hend hundecided
      | cons next rest => exact ih (List.cons_ne_nil next rest) hflatten

/-- Where the fronts up to `start` are undecided and those one chunk further are
all decided in one way, it does not matter how the stream is cut. -/
theorem read_eq_of_window {start limit : Nat} {word seen : List α} {chunks : List (List α)} {result : β}
    (hwait : ∀ front ≤ start, decision (word.take front) = none)
    (hdecided : ∀ front ≤ word.length, start < front → front ≤ start + limit →
      decision (word.take front) = some result)
    (hlong : start < word.length) (hbounded : ∀ chunk ∈ chunks, chunk.length ≤ limit) (hseen : seen.length ≤ start)
    (hflatten : seen ++ chunks.flatten = word) : read decision finish seen chunks = result := by
  induction chunks generalizing seen with
  | nil =>
    rw [List.flatten_nil, List.append_nil] at hflatten
    subst hflatten
    omega
  | cons chunk chunks ih =>
    rw [List.flatten_cons, ← List.append_assoc] at hflatten
    have hchunk := hbounded chunk List.mem_cons_self
    have hlength : (seen ++ chunk).length = seen.length + chunk.length := List.length_append
    have hfront : seen ++ chunk = word.take (seen ++ chunk).length := by
      rw [← hflatten, List.take_left]
    simp only [read]
    by_cases hreached : (seen ++ chunk).length ≤ start
    · rw [hfront, hwait _ hreached, ← hfront]
      exact ih (fun other hmem => hbounded other (List.mem_cons_of_mem chunk hmem)) hreached hflatten
    · have hinside : (seen ++ chunk).length ≤ word.length := by
        rw [← hflatten, @List.length_append _ (seen ++ chunk)]
        exact Nat.le_add_right _ _
      rw [hfront, hdecided _ hinside (by omega) (by omega)]

/-- How much has been seen when `place` symbols have, at the end of a chunk. -/
def arrivedWith (place : Nat) : Nat → List (List α) → Nat
  | seen, [] => seen
  | seen, chunk :: chunks =>
    if place ≤ seen + chunk.length then seen + chunk.length else arrivedWith place (seen + chunk.length) chunks

/-- Chunks that reach a place bring all that arrives with it. -/
theorem arrivedWith_le {place : Nat} (seen : Nat) (chunks : List (List α)) {count : Nat}
    (hplace : place ≤ seen + (chunks.take count).flatten.length) (hseen : seen < place) :
    arrivedWith place seen chunks ≤ seen + (chunks.take count).flatten.length := by
  induction chunks generalizing seen count with
  | nil => exact Nat.le_add_right _ _
  | cons chunk chunks ih =>
    cases count with
    | zero =>
      simp only [List.take_zero, List.flatten_nil, List.length_nil] at hplace
      omega
    | succ count =>
      rw [List.take_succ_cons, List.flatten_cons, List.length_append, ← Nat.add_assoc] at hplace ⊢
      rw [arrivedWith]
      split_ifs with hhere
      · exact Nat.le_add_right _ _
      · exact ih (seen + chunk.length) hplace (by omega)

/-- No more arrives than is sent. -/
theorem arrivedWith_le_length (place seen : Nat) (chunks : List (List α)) :
    arrivedWith place seen chunks ≤ seen + chunks.flatten.length := by
  induction chunks generalizing seen with
  | nil => exact Nat.le_add_right _ _
  | cons chunk chunks ih =>
    rw [arrivedWith, List.flatten_cons, List.length_append, ← Nat.add_assoc]
    split_ifs
    · exact Nat.le_add_right _ _
    · exact ih (seen + chunk.length)

/-- What arrives with a place of the stream reaches it. -/
theorem le_arrivedWith {place : Nat} (seen : Nat) (chunks : List (List α))
    (hplace : place ≤ seen + chunks.flatten.length) : place ≤ arrivedWith place seen chunks := by
  induction chunks generalizing seen with
  | nil => simpa [arrivedWith] using hplace
  | cons chunk chunks ih =>
    rw [List.flatten_cons, List.length_append, ← Nat.add_assoc] at hplace
    rw [arrivedWith]
    split_ifs with hhere
    · exact hhere
    · exact ih (seen + chunk.length) hplace

/-- A result is that of some first chunks or of the whole stream. -/
theorem read_cases (seen : List α) (chunks : List (List α)) :
    (∃ count, decision (seen ++ (chunks.take count).flatten) = some (read decision finish seen chunks)) ∨
      (read decision finish seen chunks = finish (seen ++ chunks.flatten) ∧
        (chunks = [] ∨ decision (seen ++ chunks.flatten) = none)) := by
  induction chunks generalizing seen with
  | nil => exact .inr ⟨by simp [read], .inl rfl⟩
  | cons chunk chunks ih =>
    simp only [read]
    cases hdecision : decision (seen ++ chunk) with
    | some result =>
      left
      exact ⟨1, by simpa using hdecision⟩
    | none =>
      rw [List.flatten_cons, ← List.append_assoc]
      obtain ⟨count, hcount⟩ | ⟨hfinish, hrest⟩ := ih (seen ++ chunk)
      · left
        refine ⟨count + 1, ?_⟩
        rw [List.take_succ_cons, List.flatten_cons, ← List.append_assoc]
        exact hcount
      · right
        refine ⟨hfinish, .inr ?_⟩
        obtain rfl | hundecided := hrest
        · simpa using hdecision
        · exact hundecided

/-- Where nothing is decided before `place`, the chunk that reaches it decides. -/
theorem read_arrived {place : Nat} {word seen : List α} {chunks : List (List α)} {result : β}
    (hwait : ∀ count < place, decision (word.take count) = none) (hseen : seen.length < place)
    (hplace : place ≤ word.length) (hflatten : seen ++ chunks.flatten = word)
    (hdecided : decision (word.take (arrivedWith place seen.length chunks)) = some result) :
    read decision finish seen chunks = result := by
  induction chunks generalizing seen with
  | nil =>
    rw [List.flatten_nil, List.append_nil] at hflatten
    subst hflatten
    omega
  | cons chunk chunks ih =>
    rw [List.flatten_cons, ← List.append_assoc] at hflatten
    have hfront : seen ++ chunk = word.take (seen.length + chunk.length) := by
      rw [← hflatten, ← List.length_append, List.take_left]
    rw [arrivedWith] at hdecided
    simp only [read]
    split_ifs at hdecided with hhere
    · rw [hfront, hdecided]
    · rw [hfront, hwait _ (by omega), ← hfront]
      refine ih (by rw [List.length_append]; omega) hflatten ?_
      rwa [List.length_append]

/-- The symbols one at a time. -/
def singles (word : List α) : List (List α) := word.map fun symbol => [symbol]

/-- Byte by byte a word is the same word. -/
theorem flatten_singles (word : List α) : (singles word).flatten = word := by
  induction word with
  | nil => rfl
  | cons symbol word ih =>
    rw [singles, List.map_cons, List.flatten_cons]
    exact congrArg (symbol :: ·) ih

theorem length_of_mem_singles {word chunk : List α} (hmem : chunk ∈ singles word) : chunk.length = 1 := by
  obtain ⟨symbol, -, rfl⟩ := List.mem_map.mp hmem
  rfl

/-- A reader that is sent a word byte by byte, and waits at each of its fronts,
has read the word. -/
theorem read_singles {seen word : List α} {chunks : List (List α)}
    (hwait : ∀ front, front <+: word → front ≠ [] → decision (seen ++ front) = none) :
    read decision finish seen (singles word ++ chunks) = read decision finish (seen ++ word) chunks := by
  induction word generalizing seen with
  | nil => simp [singles]
  | cons symbol word ih =>
    rw [singles, List.map_cons, List.cons_append]
    simp only [read]
    rw [hwait [symbol] ⟨word, rfl⟩ (by simp)]
    have hrest := @ih (seen ++ [symbol]) (by
      intro front hfront _
      rw [List.append_assoc]
      exact hwait (symbol :: front) ((List.prefix_cons_inj symbol).mpr hfront) (by simp))
    rw [List.append_assoc] at hrest
    exact hrest

/-- One symbol at a time up to `start`, then `count` at once, then one at a time
again. -/
def jump (start count : Nat) (word : List α) : List (List α) :=
  singles (word.take start) ++ (word.drop start).take count :: singles (word.drop (start + count))

/-- In such chunks a word may arrive. -/
theorem jump_chunking {start count limit : Nat} {word : List α} (hpos : 0 < count) (hlimit : count ≤ limit)
    (hroom : start + count ≤ word.length) : Chunking limit word (jump start count word) := by
  constructor
  · rw [jump, List.flatten_append, List.flatten_cons, flatten_singles, flatten_singles, ← List.drop_drop,
      List.take_append_drop, List.take_append_drop]
  · intro chunk hmem
    rw [jump, List.mem_append, List.mem_cons] at hmem
    apply List.ne_nil_of_length_pos
    obtain hbefore | rfl | hafter := hmem
    · rw [length_of_mem_singles hbefore]
      omega
    · rw [List.length_take, List.length_drop]
      omega
    · rw [length_of_mem_singles hafter]
      omega
  · intro chunk hmem
    rw [jump, List.mem_append, List.mem_cons] at hmem
    obtain hbefore | rfl | hafter := hmem
    · rw [length_of_mem_singles hbefore]
      omega
    · rw [List.length_take, List.length_drop]
      omega
    · rw [length_of_mem_singles hafter]
      omega

/-- The reader sees nothing between the two ends of a jump. -/
theorem read_jump {start count : Nat} {word : List α} {result : β}
    (hwait : ∀ front ≤ start, decision (word.take front) = none)
    (hdecided : decision (word.take (start + count)) = some result) :
    read decision finish [] (jump start count word) = result := by
  rw [jump, read_singles]
  · simp only [read, List.nil_append]
    rw [← List.take_add, hdecided]
  · intro front hfront _
    rw [List.nil_append]
    have htake := List.prefix_iff_eq_take.mp (hfront.trans (List.take_prefix start word))
    rw [htake]
    refine hwait front.length ?_
    have hlength := hfront.length_le
    rw [List.length_take] at hlength
    omega

end stream
