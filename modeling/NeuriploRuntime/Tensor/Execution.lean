import Mathlib.Data.List.Basic
import Mathlib.Data.Rat.Defs

namespace neuriplo.tensor

def isBytesDatatype (datatype : String) : Bool := datatype = "BYTES"

/-- A tensor payload. BYTES tensors use `string_data`, every other datatype
`bytes`. -/
structure InputTensor where
  name : String
  datatype : String
  shape : List Int
  bytes : List UInt8 := []
  string_data : List String := []
deriving DecidableEq, Repr

/-- The two tensor types of the source have the same fields. -/
abbrev OutputTensor := InputTensor

/-- The generation parameters; the two real ones hold the numbers a request
body can carry. -/
structure LlmGenerationParams where
  max_tokens : Option Nat := none
  temperature : Option ℚ := none
  top_p : Option ℚ := none
  top_k : Option Nat := none
  streaming : Bool := false
deriving DecidableEq, Repr

structure LlmResultMetadata where
  prompt_tokens : Nat := 0
  completion_tokens : Nat := 0
  finish_reason : String := ""
deriving DecidableEq, Repr

/-- An inference request, without its cancel token and streaming callback,
which the schedulers keep beside it. -/
structure ExecutionRequest where
  id : Option String := none
  inputs : List InputTensor := []
  requested_outputs : List String := []
  llm_params : Option LlmGenerationParams := none
deriving DecidableEq, Repr

structure ExecutionResponse where
  ok : Bool := true
  error_code : String := ""
  error_message : String := ""
  outputs : List OutputTensor := []
  llm_metadata : Option LlmResultMetadata := none
deriving DecidableEq, Repr

end neuriplo.tensor
