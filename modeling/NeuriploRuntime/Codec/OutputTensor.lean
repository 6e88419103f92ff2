import NeuriploRuntime.Codec.InferenceRequest
import NeuriploRuntime.Numeral.Significand
import NeuriploRuntime.Tensor.ElementType

open numeral neuriplo.tensor

namespace neuriplo.codec

/-- Casting a double to an integer drops its fraction. -/
def truncate (double : ℚ) : Int := double.num.tdiv double.den

def integerWord (datatype : String) (value : Int) : Vector UInt8 (tensorElementSize datatype) :=
  ⟨(WordFormat.encode (tensorElementSize datatype) value).toArray, by simp⟩

/-- A JSON library on a machine with 53-bit doubles and two's complement integers.
What becomes of a double out of an integer type's range is not defined and stays
as it is in `lib`. -/
def JsonLibrary.native (lib : JsonLibrary) : JsonLibrary where
  parse := lib.parse
  dump := lib.dump
  toDouble value := roundSigned 53 value
  elementBytes datatype double :=
    match withTensorElementType datatype with
    | some (.integer format) =>
      if format.Holds (truncate double) then integerWord datatype (truncate double)
      else lib.elementBytes datatype double
    | _ => lib.elementBytes datatype double
  integerBytes datatype value :=
    match withTensorElementType datatype with
    | some (.integer _) => integerWord datatype value
    | _ => lib.integerBytes datatype value

/-- The elements of a tensor as JSON. `floating` is the number of a floating-point
element. -/
def tensorData (lib : JsonLibrary) (floating : Nat → List UInt8 → Json) (tensor : OutputTensor) : List Json :=
  if isBytesDatatype tensor.datatype then tensor.string_data.map .string
  else
    match withTensorElementType tensor.datatype with
    | none => []
    | some (.integer format) =>
      (List.range (tensor.bytes.length / format.size)).map fun i =>
        .number (.real (lib.toDouble (format.decode (tensorScalarAt format.size tensor.bytes i))))
    | some (.floating size) =>
      (List.range (tensor.bytes.length / size)).map fun i => floating size (tensorScalarAt size tensor.bytes i)

def outputTensorJson (lib : JsonLibrary) (floating : Nat → List UInt8 → Json) (tensor : OutputTensor) : Json :=
  .object [("name", .string tensor.name), ("datatype", .string tensor.datatype),
    ("shape", .array (tensor.shape.map fun dimension => .number (.integer dimension))),
    ("data", .array (tensorData lib floating tensor))]

/-- The data of a tensor that is written can be read as an input's. -/
@[simp] theorem inputData_outputTensorJson (lib : JsonLibrary) (floating : Nat → List UInt8 → Json)
    (tensor : OutputTensor) : inputData (outputTensorJson lib floating tensor) = tensorData lib floating tensor := rfl

/-- An array that was written out and read again: its numbers have the same
doubles, in whatever way they were printed. -/
def Reread (lib : JsonLibrary) : List Json → List Json → Prop :=
  List.Forall₂ fun written read =>
    ∃ number number', written = .number number ∧ read = .number number' ∧ lib.getDouble number' = lib.getDouble number

/-- An integer as the JSON library reads it. -/
def jsonInteger (value : Int) : Json :=
  if 0 ≤ value then .number (.unsigned value.toNat) else .number (.integer value)

/-- What the binary extension carries of the integers of a tensor. -/
def binaryData (datatype : String) (values : List Int) : List UInt8 :=
  values.flatMap (WordFormat.encode (tensorElementSize datatype))

/-- The integers of a tensor survive JSON: both on their way out and back in, and
on their way in. -/
structure SurvivesJson (lib : JsonLibrary) (floating : Nat → List UInt8 → Json) (datatype : String)
    (values : List Int) : Prop where
  output : ∀ tensor : OutputTensor, tensor.datatype = datatype → tensor.bytes = binaryData datatype values →
    ∀ data, Reread lib (inputData (outputTensorJson lib floating tensor)) data →
      parseData lib data datatype = some tensor.bytes
  input : parseData lib (values.map jsonInteger) datatype = some (binaryData datatype values)

end neuriplo.codec
