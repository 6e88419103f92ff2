import Mathlib.Data.List.Basic

namespace neuriplo.tensor

/-- Shape dimensions are `int64_t`; a negative one marks a dynamic axis. -/
structure TensorMetadata where
  name : String
  datatype : String
  shape : List Int
deriving DecidableEq, Repr

structure ModelMetadata where
  name : String := ""
  versions : List String := []
  platform : String := ""
  inputs : List TensorMetadata := []
  outputs : List TensorMetadata := []
deriving DecidableEq, Repr

end neuriplo.tensor
