import NeuriploRuntime.Batch.Probe

open neuriplo.tensor rows

namespace neuriplo.batch

instance (tensor : InputTensor) : Decidable (Filled tensor) :=
  decidable_of_iff
    ((∀ dimension ∈ tensor.shape, 0 ≤ dimension) ∧
      (tensorElementCount tensor.datatype tensor.bytes : Int) = tensor.shape.prod)
    ⟨fun ⟨nonneg, count⟩ => ⟨nonneg, count⟩, fun ⟨nonneg, count⟩ => ⟨nonneg, count⟩⟩

instance (request : ExecutionRequest) (count : Nat) : Decidable (Aligned request count) :=
  decidable_of_iff
    (count < 2 ^ 63 ∧ request.llm_params = none ∧ request.inputs ≠ [] ∧
      (∀ input ∈ request.inputs, input.shape.head? = some (count : Int)) ∧ ∀ input ∈ request.inputs, Filled input)
    ⟨fun ⟨bounded, params, nonempty, leading, filled⟩ => ⟨bounded, params, nonempty, leading, filled⟩,
      fun ⟨bounded, params, nonempty, leading, filled⟩ => ⟨bounded, params, nonempty, leading, filled⟩⟩

/-- The rows of an input, whatever their shape. -/
def echoOutput (input : InputTensor) (count : Nat) : OutputTensor :=
  { tensorRows input 0 count with string_data := [] }

/-- Rows that the echo takes: not of BYTES, and none of 2 GiB. -/
def Echoed (input : InputTensor) : Prop := isBytesDatatype input.datatype = false ∧ rowBytes input < 2 ^ 31

instance (input : InputTensor) : Decidable (Echoed input) := inferInstanceAs (Decidable (_ ∧ _))

/-- An executor that gives back one of the inputs, in the shape it comes in. A
request of fewer rows than it asks for it refuses. -/
def echo (least : Nat) (name : String) (request : ExecutionRequest) : ExecutionResponse :=
  match findInputByName request name with
  | some input =>
    if Aligned request (rowCount request) ∧ least ≤ rowCount request ∧ Echoed input then
      { outputs := [echoOutput input (rowCount request)] }
    else { ok := false, error_message := "refused" }
  | none => { ok := false, error_message := "refused" }

/-- The numbers of rows that the echo admits. -/
def EchoAdmits (least count : Nat) : Prop := least ≤ count ∧ count < 2 ^ 32

instance (least count : Nat) : Decidable (EchoAdmits least count) := inferInstanceAs (Decidable (_ ∧ _))

section Echo

variable {name : String} {request : ExecutionRequest} {input : InputTensor} {least total start count : Nat}

/-- What an echo answers when it succeeds. -/
theorem echo_ok (hok : (echo least name request).ok = true) : ∃ input, findInputByName request name = some input ∧
    Aligned request (rowCount request) ∧ Echoed input ∧
      echo least name request = { outputs := [echoOutput input (rowCount request)] } := by
  cases hfind : findInputByName request name with
  | none =>
    rw [echo, hfind] at hok
    cases hok
  | some input =>
    simp only [echo, hfind] at hok ⊢
    split_ifs at hok with haccepted
    rw [if_pos haccepted]
    exact ⟨input, rfl, haccepted.1, haccepted.2.2, rfl⟩

/-- What comes back has the rows of the input. -/
theorem echoOutput_rowed (haligned : Aligned request count) (hmem : input ∈ request.inputs) (hechoed : Echoed input)
    (hadmits : EchoAdmits least count) : Rowed count (echoOutput input count) := by
  have hleading := haligned.leading input hmem
  have hfilled := haligned.filled input hmem
  obtain ⟨rest, hshape⟩ := List.head?_eq_some_iff.mp hleading
  have hset : input.shape.set 0 (count : Int) = input.shape := by
    rw [hshape, List.set_cons_zero]
  have hlength : (echoOutput input count).bytes.length = count * rowBytes input := by
    apply length_slice
    rw [Nat.zero_add]
    exact hfilled.rows_le hleading
  have hrow : rowBytes (echoOutput input count) = rowBytes input := rowBytes_tensorRows input 0 count
  refine ⟨?_, ?_, ?_, ?_, ?_⟩
  · rw [echoOutput, tensorRows, hset, hleading]
  · rw [echoOutput, tensorRows, hset]
    exact hfilled.nonneg
  · rw [hlength, hrow]
  · rw [hlength]
    calc count * rowBytes input
        ≤ count * 2 ^ 31 := Nat.mul_le_mul_left _ (Nat.le_of_lt hechoed.2)
      _ < 2 ^ 63 := by have hcount := hadmits.2; omega
  · rw [show (echoOutput input count).datatype = input.datatype from rfl, hechoed.1]
    rfl

/-- What comes back has elements in its rows if the inputs have. -/
theorem echo_sized (hsized : ∀ input ∈ request.inputs, SizedRows input) (hok : (echo least name request).ok = true) :
    ∀ output ∈ (echo least name request).outputs, SizedRows output := by
  obtain ⟨input, hfind, -, -, hequal⟩ := echo_ok hok
  intro output hmem
  rw [hequal, List.mem_singleton] at hmem
  obtain ⟨hknown, hsliced⟩ :=
    (@sizedRows_tensorRows input 0 (rowCount request)).mpr (hsized input (findInputByName_some hfind).1)
  rw [hmem]
  exact ⟨hknown, hsliced⟩

/-- The rows of a part of the input are those of the whole. -/
theorem echoOutput_tensorRows (hinside : start + count ≤ total) :
    echoOutput (tensorRows input start count) count = tensorRows (echoOutput input total) start count := by
  have hrow : rowBytes (echoOutput input total) = rowBytes input := rowBytes_tensorRows input 0 total
  have hpart := rowBytes_tensorRows input start count
  rw [echoOutput, tensorRows, hpart, tensorRows, tensorRows, hrow]
  simp only [echoOutput, tensorRows, List.set_set]
  rw [slice_slice (show 0 + count ≤ count by omega), slice_slice hinside, Nat.zero_add, Nat.add_zero]
  simp [slice]

/-- An echo of some rows is these rows of the echo. -/
theorem echo_requestRows (haligned : Aligned request total) (htotal : EchoAdmits least total)
    (hcount : EchoAdmits least count) (hinside : start + count ≤ total) :
    echo least name (requestRows request start count) = responseRows (echo least name request) start count := by
  have hpart := haligned.requestRows hinside
  have hfind : findInputByName (requestRows request start count) name =
      (findInputByName request name).map (tensorRows · start count) := by
    rw [findInputByName, requestRows, List.find?_map]
    rfl
  rw [echo, echo, hfind, hpart.rowCount_eq, haligned.rowCount_eq]
  cases findInputByName request name with
  | none => rfl
  | some input =>
    have hechoed : Echoed (tensorRows input start count) ↔ Echoed input := by
      rw [Echoed, rowBytes_tensorRows]
      rfl
    simp only [Option.map_some, hpart, haligned, hcount.1, htotal.1, hechoed, true_and]
    by_cases haccepted : Echoed input
    · rw [if_pos haccepted, if_pos haccepted, echoOutput_tensorRows hinside]
      rfl
    · rw [if_neg haccepted, if_neg haccepted]
      rfl

/-- The echo is row-wise, over inputs of any trailing dimensions. -/
theorem echo_rowWise (least : Nat) (name : String) : RowWise (echo least name) (EchoAdmits least) := by
  constructor
  · intro request hunfilled
    obtain ⟨input, hmem, hnot⟩ := hunfilled
    rw [← Bool.not_eq_true]
    intro hok
    obtain ⟨_, -, haligned, -⟩ := echo_ok hok
    exact hnot (haligned.filled input hmem)
  · intro request other hnames hsame
    rw [echo, echo, hsame.findInputByName hnames]
    cases findInputByName other name with
    | none => rfl
    | some input =>
      by_cases haligned : Aligned request (rowCount request)
      · have hother := hsame.aligned_iff.mp haligned
        have hcount : rowCount other = rowCount request := (hsame.aligned haligned).rowCount_eq
        rw [hcount] at hother ⊢
        simp only [haligned, hother, true_and]
      · have hother : ¬ Aligned other (rowCount other) := fun hnot => haligned (hsame.aligned_iff.mpr hnot)
        simp only [haligned, hother, false_and, if_false]
  · intro request count haligned hadmits hok
    obtain ⟨input, hfind, -, hechoed, hequal⟩ := echo_ok hok
    refine ⟨_, hequal, ?_⟩
    intro output hmem
    rw [List.mem_singleton.mp hmem, haligned.rowCount_eq]
    exact echoOutput_rowed haligned (findInputByName_some hfind).1 hechoed hadmits
  · intro request total start count haligned htotal hcount hinside
    exact echo_requestRows haligned htotal hcount hinside

end Echo

end neuriplo.batch
