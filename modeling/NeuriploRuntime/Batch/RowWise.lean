import NeuriploRuntime.Batch.DynamicBatcher
import NeuriploRuntime.Rows.Slice

open neuriplo.tensor rows

namespace neuriplo.batch

/-- The elements of one row, as a number. -/
def rowElements (shape : List Int) : Nat := (shape.tail.map Int.toNat).prod

def rowBytes (tensor : InputTensor) : Nat := rowElements tensor.shape * tensorElementSize tensor.datatype

/-- As many elements as the shape asks for; what is left over is less than an
element. -/
structure Filled (tensor : InputTensor) : Prop where
  nonneg : ∀ dimension ∈ tensor.shape, 0 ≤ dimension
  count : (tensorElementCount tensor.datatype tensor.bytes : Int) = tensor.shape.prod

/-- `count` rows of a tensor from row `start` on. -/
def tensorRows (tensor : InputTensor) (start count : Nat) : InputTensor :=
  { tensor with
    shape := tensor.shape.set 0 count
    bytes := slice (rowBytes tensor) start count tensor.bytes
    string_data := slice (rowElements tensor.shape) start count tensor.string_data }

def requestRows (request : ExecutionRequest) (start count : Nat) : ExecutionRequest :=
  { request with inputs := request.inputs.map (tensorRows · start count) }

/-- The rows of every output. A failure is the failure of every row. -/
def responseRows (response : ExecutionResponse) (start count : Nat) : ExecutionResponse :=
  if response.ok then { response with outputs := response.outputs.map (tensorRows · start count) } else response

/-- An output of `count` rows. Its buffers are in memory. -/
structure Rowed (count : Nat) (output : OutputTensor) : Prop where
  leading : output.shape.head? = some (count : Int)
  nonneg : ∀ dimension ∈ output.shape, 0 ≤ dimension
  bytes : output.bytes.length = count * rowBytes output
  memory : output.bytes.length < 2 ^ 63
  string_data :
    output.string_data.length = if isBytesDatatype output.datatype then count * rowElements output.shape else 0

/-- A request of `count` rows: its inputs are filled and agree on the leading
dimension. -/
structure Aligned (request : ExecutionRequest) (count : Nat) : Prop where
  bounded : count < 2 ^ 63
  params : request.llm_params = none
  nonempty : request.inputs ≠ []
  leading : ∀ input ∈ request.inputs, input.shape.head? = some (count : Int)
  filled : ∀ input ∈ request.inputs, Filled input

/-- Requests with the same inputs, in whatever order, and with the same outputs
and parameters. -/
structure SameCall (request other : ExecutionRequest) : Prop where
  inputs : request.inputs.Perm other.inputs
  requested_outputs : request.requested_outputs = other.requested_outputs
  llm_params : request.llm_params = other.llm_params

/-- An executor that treats every row of a request apart from the others, that
rejects a tensor which is not filled, and that goes by the names of the inputs
and not by their order. Its outputs may follow the inputs in everything but
their rows. Of its rows nothing is said where it does not admit so many. -/
structure RowWise (infer : ExecutionRequest → ExecutionResponse) (admits : Nat → Prop) : Prop where
  rejects : ∀ request, (∃ input ∈ request.inputs, ¬ Filled input) → (infer request).ok = false
  unordered : ∀ request other, (request.inputs.map (·.name)).Nodup → SameCall request other →
    infer request = infer other
  outputs : ∀ request count, Aligned request count → admits count → (infer request).ok = true →
    ∃ outputs, infer request = { outputs } ∧ ∀ output ∈ outputs, Rowed count output
  rows : ∀ request total start count, Aligned request total → admits total → admits count → start + count ≤ total →
    infer (requestRows request start count) = responseRows (infer request) start count

/-- The shape of an output of so many rows. -/
theorem Rowed.shape_eq {output : OutputTensor} {count : Nat} (hrowed : Rowed count output) :
    output.shape = (count : Int) :: output.shape.tail := by
  obtain ⟨rest, hshape⟩ := List.head?_eq_some_iff.mp hrowed.leading
  rw [hshape, List.tail_cons]

/-- All rows of an output are the output. -/
theorem tensorRows_whole {output : OutputTensor} {count : Nat} (hrowed : Rowed count output) :
    tensorRows output 0 count = output := by
  have hshape : output.shape.set 0 (count : Int) = output.shape := by
    rw [hrowed.shape_eq, List.set_cons_zero]
  have hstrings : output.string_data.length ≤ count * rowElements output.shape := by
    rw [hrowed.string_data]
    split
    · exact le_refl _
    · exact Nat.zero_le _
  rw [tensorRows, hshape, slice_whole (Nat.le_of_eq hrowed.bytes), slice_whole hstrings]

/-- All rows of a response are the response. -/
theorem RowWise.responseRows_whole {infer : ExecutionRequest → ExecutionResponse} {admits : Nat → Prop}
    (hwise : RowWise infer admits) {request : ExecutionRequest} {count : Nat} (haligned : Aligned request count)
    (hadmits : admits count) : responseRows (infer request) 0 count = infer request := by
  unfold responseRows
  split
  · rename_i hok
    obtain ⟨outputs, hinfer, hrowed⟩ := hwise.outputs request count haligned hadmits hok
    have hwhole : outputs.map (tensorRows · 0 count) = outputs := by
      conv => rhs; rw [← List.map_id outputs]
      exact List.map_congr_left fun output hmem => tensorRows_whole (hrowed output hmem)
    rw [hinfer, hwhole]
  · rfl

end neuriplo.batch
