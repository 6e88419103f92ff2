import Mathlib.Algebra.BigOperators.Group.List.Basic
import Mathlib.Algebra.Order.BigOperators.Group.List
import Mathlib.Algebra.Order.Ring.Int

namespace rows

variable {α β : Type*}

/-- The places where chunks of the given sizes begin, and where the last one ends, when they lie one
behind the other from `start` on. -/
def boundaries : Nat → List Nat → List Nat
  | start, [] => [start]
  | start, size :: sizes => start :: boundaries (start + size) sizes

/-- There is one boundary more than there are pieces. -/
@[simp] theorem length_boundaries (start : Nat) (sizes : List Nat) :
    (boundaries start sizes).length = sizes.length + 1 := by
  induction sizes generalizing start with
  | nil => rfl
  | cons size sizes ih => rw [boundaries, List.length_cons, ih, List.length_cons]

/-- One more chunk at the end adds its end. -/
theorem boundaries_concat (start : Nat) (sizes : List Nat) (size : Nat) :
    boundaries start (sizes ++ [size]) = boundaries start sizes ++ [start + sizes.sum + size] := by
  induction sizes generalizing start with
  | nil => rfl
  | cons first sizes ih =>
    rw [List.cons_append, boundaries, boundaries, ih, List.cons_append, List.sum_cons, ← Nat.add_assoc start]

/-- A boundary lies behind the pieces before it. -/
theorem boundaries_getElem? (start : Nat) (sizes : List Nat) {index : Nat} (hindex : index ≤ sizes.length) :
    (boundaries start sizes)[index]? = some (start + (sizes.take index).sum) := by
  induction sizes generalizing start index with
  | nil =>
    obtain rfl : index = 0 := by simpa using hindex
    rfl
  | cons size sizes ih =>
    cases index with
    | zero => rfl
    | succ index =>
      rw [boundaries, List.getElem?_cons_succ, ih (start + size) (by simpa using hindex), List.take_succ_cons,
        List.sum_cons, Nat.add_assoc]

/-- Every boundary lies between the start and the end. -/
theorem le_of_mem_boundaries {start : Nat} {sizes : List Nat} {place : Nat} (hplace : place ∈ boundaries start sizes) :
    start ≤ place ∧ place ≤ start + sizes.sum := by
  induction sizes generalizing start with
  | nil =>
    rw [boundaries, List.mem_singleton] at hplace
    simp [hplace]
  | cons size sizes ih =>
    rw [List.sum_cons]
    obtain rfl | hrest := List.mem_cons.mp hplace
    · omega
    · have hbounds := ih hrest
      omega

/-- Boundaries never go back. -/
theorem boundaries_pairwise_le (start : Nat) (sizes : List Nat) : (boundaries start sizes).Pairwise (· ≤ ·) := by
  induction sizes generalizing start with
  | nil => exact List.pairwise_singleton _ _
  | cons size sizes ih =>
    refine List.pairwise_cons.mpr ⟨fun place hplace => ?_, ih (start + size)⟩
    have hbounds := le_of_mem_boundaries hplace
    omega

/-- Without empty chunks no two places are the same. -/
theorem boundaries_pairwise_lt (start : Nat) {sizes : List Nat} (hpositive : ∀ size ∈ sizes, 0 < size) :
    (boundaries start sizes).Pairwise (· < ·) := by
  induction sizes generalizing start with
  | nil => exact List.pairwise_singleton _ _
  | cons size sizes ih =>
    obtain ⟨hsize, hsizes⟩ := List.forall_mem_cons.mp hpositive
    refine List.pairwise_cons.mpr ⟨fun place hplace => ?_, ih (start + size) hsizes⟩
    have hbounds := le_of_mem_boundaries hplace
    omega

/-- What lies from each place to the next. -/
def cuts (data : List α) : List Nat → List (List α)
  | start :: stop :: places => (data.drop start).take (stop - start) :: cuts data (stop :: places)
  | _ => []

theorem cuts_map (f : α → β) (data : List α) (places : List Nat) :
    cuts (data.map f) places = (cuts data places).map (·.map f) := by
  induction places with
  | nil => rfl
  | cons start places ih =>
    cases places with
    | nil => rfl
    | cons stop places => rw [cuts, cuts, ih, List.map_cons, List.map_take, List.map_drop]

/-- Chunks that lie one behind the other are cut out again at their boundaries. -/
theorem cuts_boundaries_from (before : List α) (chunks : List (List α)) :
    cuts (before ++ chunks.flatten) (boundaries before.length (chunks.map (·.length))) = chunks := by
  induction chunks generalizing before with
  | nil => rfl
  | cons chunk chunks ih =>
    have hnext := ih (before ++ chunk)
    rw [List.length_append, List.append_assoc] at hnext
    have hfirst : ((before ++ (chunk ++ chunks.flatten)).drop before.length).take
        (before.length + chunk.length - before.length) = chunk := by
      rw [List.drop_left, Nat.add_sub_cancel_left, List.take_left]
    rw [List.map_cons, List.flatten_cons, boundaries]
    cases chunks with
    | nil => simp [boundaries, cuts]
    | cons other chunks =>
      rw [List.map_cons, boundaries] at hnext ⊢
      rw [cuts, hfirst, hnext]

/-- Cutting a row of chunks at their boundaries gives the chunks back. -/
theorem cuts_boundaries (chunks : List (List α)) :
    cuts chunks.flatten (boundaries 0 (chunks.map (·.length))) = chunks := cuts_boundaries_from [] chunks

end rows
