import Mathlib.Algebra.Order.Ring.Int
import NeuriploRuntime.Tensor.Execution

namespace neuriplo.tensor

/-- Sums and products of `size_t` wrap. -/
def wrapSize (value : Nat) : Nat := value % 2 ^ 64

/-- A signed value cast to `size_t`. -/
def castSize (value : Int) : Nat := (value % 2 ^ 64).toNat

/-- 64-bit two's complement. -/
def wrapInt64 (value : Int) : Int := (value + 2 ^ 63) % 2 ^ 64 - 2 ^ 63

/-- What fits in 64 bits does not wrap. -/
theorem wrapInt64_of_range {value : Int} (hlow : -2 ^ 63 ≤ value) (hhigh : value < 2 ^ 63) :
    wrapInt64 value = value := by
  unfold wrapInt64
  omega

/-- Zero for BYTES and unknown datatypes, which have no elements of fixed size. -/
def tensorElementSize (datatype : String) : Nat :=
  if datatype = "BOOL" || datatype = "INT8" || datatype = "UINT8" then 1
  else if datatype = "INT16" || datatype = "UINT16" then 2
  else if datatype = "INT32" || datatype = "UINT32" || datatype = "FP32" || datatype = "FP16" then 4
  else if datatype = "INT64" || datatype = "UINT64" || datatype = "FP64" then 8
  else 0

def tensorElementCount (datatype : String) (bytes : List UInt8) : Nat :=
  if tensorElementSize datatype = 0 then 0 else bytes.length / tensorElementSize datatype

end neuriplo.tensor
