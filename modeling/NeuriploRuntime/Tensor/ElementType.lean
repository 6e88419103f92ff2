import NeuriploRuntime.Numeral.Word
import NeuriploRuntime.Tensor.Bytes

open numeral

namespace neuriplo.tensor

/-- The types that back a datatype's elements. -/
inductive ElementType where
  | integer (format : WordFormat)
  | floating (size : Nat)
deriving DecidableEq, Repr

def ElementType.size : ElementType → Nat
  | .integer format => format.size
  | .floating size => size

/-- None for BYTES and unknown datatypes. -/
def withTensorElementType (datatype : String) : Option ElementType :=
  if datatype = "BOOL" || datatype = "INT8" then some (.integer { signed := true, size := 1 })
  else if datatype = "INT16" then some (.integer { signed := true, size := 2 })
  else if datatype = "INT32" then some (.integer { signed := true, size := 4 })
  else if datatype = "INT64" then some (.integer { signed := true, size := 8 })
  else if datatype = "UINT8" then some (.integer { signed := false, size := 1 })
  else if datatype = "UINT16" then some (.integer { signed := false, size := 2 })
  else if datatype = "UINT32" then some (.integer { signed := false, size := 4 })
  else if datatype = "UINT64" then some (.integer { signed := false, size := 8 })
  else if datatype = "FP16" || datatype = "FP32" then some (.floating 4)
  else if datatype = "FP64" then some (.floating 8)
  else none

/-- The two dispatches on a datatype agree. -/
theorem size_withTensorElementType (datatype : String) :
    ((withTensorElementType datatype).map (·.size)).getD 0 = tensorElementSize datatype := by
  unfold withTensorElementType tensorElementSize
  grind [ElementType.size]

/-- Elements of fixed size take at least a byte. -/
theorem withTensorElementType_size_pos {datatype : String} {element : ElementType}
    (helement : withTensorElementType datatype = some element) : 0 < element.size := by
  unfold withTensorElementType at helement
  repeat' split at helement
  all_goals
    cases helement
    try decide

/-- The elements of a tensor, word by word. -/
def tensorScalarAt (size : Nat) (bytes : List UInt8) (element_index : Nat) : List UInt8 :=
  rows.slice size element_index 1 bytes

end neuriplo.tensor
