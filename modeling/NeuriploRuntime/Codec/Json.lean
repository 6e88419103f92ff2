import NeuriploRuntime.Stream.Octets
import NeuriploRuntime.Tensor.Bytes

open neuriplo.tensor stream

namespace neuriplo.codec

/-- A parsed JSON number. One without fraction or exponent is kept as an integer,
unsigned unless it has a minus sign. -/
inductive Number where
  | unsigned (value : Nat)
  | integer (value : Int)
  | real (value : ℚ)
deriving DecidableEq, Repr

inductive Json where
  | null
  | boolean (value : Bool)
  | number (value : Number)
  | string (value : String)
  | array (values : List Json)
  | object (fields : List (String × Json))

namespace Json

/-- The field `key` of an object. -/
def field (json : Json) (key : String) : Option Json :=
  match json with
  | .object fields => fields.lookup key
  | _ => none

def isObject : Json → Bool
  | .object _ => true
  | _ => false

/-- `get<int64_t>()` of an integer. -/
def int64 : Json → Option Int
  | .number (.unsigned value) => some (wrapInt64 value)
  | .number (.integer value) => some value
  | _ => none

def asNumber : Json → Option Number
  | .number value => some value
  | _ => none

def asString : Json → Option String
  | .string value => some value
  | _ => none

def asArray : Json → Option (List Json)
  | .array values => some values
  | _ => none

def asBoolean : Json → Option Bool
  | .boolean value => some value
  | _ => none

/-- `get<size_t>()` of an unsigned number. -/
def asUnsigned : Json → Option Nat
  | .number (.unsigned value) => some value
  | _ => none

end Json

/-- What the codecs use of the JSON library and of the machine's arithmetic: the
parser and its inverse, the double of an integer, and the bytes of a double or
an integer cast to the element type of a datatype. -/
structure JsonLibrary where
  parse : List UInt8 → Option Json
  dump : Json → List UInt8
  toDouble : Int → ℚ
  elementBytes : (datatype : String) → ℚ → Vector UInt8 (tensorElementSize datatype)
  integerBytes : (datatype : String) → Int → Vector UInt8 (tensorElementSize datatype)

/-- `get<double>()` of a number. -/
def JsonLibrary.getDouble (lib : JsonLibrary) : Number → ℚ
  | .unsigned value => lib.toDouble value
  | .integer value => lib.toDouble value
  | .real value => value

/-- Doubles as a tensor's bytes. An unknown datatype has elements of no bytes. -/
def JsonLibrary.typedReals (lib : JsonLibrary) (datatype : String) (values : List ℚ) : List UInt8 :=
  values.flatMap fun value => (lib.elementBytes datatype value).toList

def JsonLibrary.typedIntegers (lib : JsonLibrary) (datatype : String) (values : List Int) : List UInt8 :=
  values.flatMap fun value => (lib.integerBytes datatype value).toList

/-- Numbers are written at the size of their datatype. -/
@[simp] theorem JsonLibrary.length_typedReals (lib : JsonLibrary) (datatype : String) (values : List ℚ) :
    (lib.typedReals datatype values).length = values.length * tensorElementSize datatype := by
  simp [typedReals, List.length_flatMap]

/-- Elements have words of one size, so bytes are the same exactly when they are the
same element by element. -/
theorem typedIntegers_eq_iff {lib : JsonLibrary} (datatype : String) (values : List Int) :
    lib.typedReals datatype (values.map lib.toDouble) = lib.typedIntegers datatype values ↔
      ∀ value ∈ values, lib.elementBytes datatype (lib.toDouble value) = lib.integerBytes datatype value := by
  rw [JsonLibrary.typedReals, JsonLibrary.typedIntegers, List.flatMap_map]
  induction values with
  | nil => simp
  | cons value values ih =>
    rw [List.flatMap_cons, List.flatMap_cons, List.forall_mem_cons, ← ih]
    constructor
    · intro hequal
      obtain ⟨hfirst, hrest⟩ := List.append_inj hequal (by rw [Vector.length_toList, Vector.length_toList])
      exact ⟨Vector.toList_inj.mp hfirst, hrest⟩
    · rintro ⟨hfirst, hrest⟩
      rw [hfirst, hrest]

/-- The JSON library on a few texts, with what it writes. -/
def JsonLibrary.reading (texts : List (List UInt8 × Json)) (dump : Json → List UInt8) : JsonLibrary where
  parse bytes := texts.lookup bytes
  dump := dump
  toDouble value := value
  elementBytes _ _ := Vector.replicate _ 0
  integerBytes _ _ := Vector.replicate _ 0

section Reading

variable {texts : List (List UInt8 × Json)} {dump : Json → List UInt8} {text : List UInt8} {root : Json}

/-- A stand-in reads its first text. -/
theorem JsonLibrary.parse_reading : (JsonLibrary.reading ((text, root) :: texts) dump).parse text = some root :=
  List.lookup_cons_self

/-- A stand-in reads any other text as the rest of its texts say. -/
theorem JsonLibrary.parse_reading_of_ne {other : List UInt8} (hother : other ≠ text) :
    (JsonLibrary.reading ((text, root) :: texts) dump).parse other = texts.lookup other := by
  have hdiffer : (other == text) = false := beq_eq_false_iff_ne.mpr hother
  simp only [reading, List.lookup_cons, hdiffer]

end Reading

/-- The JSON library on one text. -/
def JsonLibrary.onText (text : String) (root : Json) : JsonLibrary :=
  .reading [(octets text, root)] fun _ => octets text

theorem JsonLibrary.parse_onText (text : String) (root : Json) :
    (JsonLibrary.onText text root).parse (octets text) = some root := parse_reading

end neuriplo.codec
