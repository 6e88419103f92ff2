import NeuriploRuntime.Codec.OutputTensor

open numeral neuriplo.tensor

namespace neuriplo.codec

variable {lib : JsonLibrary} {datatype : String} {format : WordFormat} {values : List Int}

theorem size_of_integer (hinteger : withTensorElementType datatype = some (.integer format)) :
    tensorElementSize datatype = format.size := by
  rw [← size_withTensorElementType, hinteger]
  rfl

theorem size_pos_of_integer (hinteger : withTensorElementType datatype = some (.integer format)) : 0 < format.size :=
  withTensorElementType_size_pos hinteger

theorem not_bytes_of_integer (hinteger : withTensorElementType datatype = some (.integer format)) :
    isBytesDatatype datatype = false := by
  by_contra hbytes
  rw [Bool.not_eq_false] at hbytes
  rw [of_decide_eq_true hbytes] at hinteger
  cases hinteger

/-- An integer's word is its two's complement. -/
theorem toList_integerWord (value : Int) :
    (integerWord datatype value).toList = WordFormat.encode (tensorElementSize datatype) value := by
  simp [integerWord]

/-- Integers that a format holds have different words. -/
theorem integerWord_inj (hinteger : withTensorElementType datatype = some (.integer format)) {value other : Int}
    (hvalue : format.Holds value) (hother : format.Holds other) :
    integerWord datatype value = integerWord datatype other ↔ value = other := by
  rw [← Vector.toList_inj, toList_integerWord, toList_integerWord, size_of_integer hinteger]
  exact WordFormat.encode_inj hvalue hother

@[simp] theorem truncate_intCast (value : Int) : truncate value = value := by
  rw [truncate, Rat.num_intCast, Rat.den_intCast, Nat.cast_one, Int.tdiv_one]

/-- On the machine an integer is rounded to 53 bits. -/
theorem toDouble_native (value : Int) : lib.native.toDouble value = roundSigned 53 value := rfl

/-- On the machine an integer is written as its word. -/
theorem integerBytes_native (hinteger : withTensorElementType datatype = some (.integer format)) (value : Int) :
    lib.native.integerBytes datatype value = integerWord datatype value := by
  simp only [JsonLibrary.native, hinteger]

/-- On the machine a cast from a double is defined for the integers the format
holds. -/
theorem elementBytes_native (hinteger : withTensorElementType datatype = some (.integer format)) (value : Int) :
    lib.native.elementBytes datatype value =
      if format.Holds value then integerWord datatype value else lib.elementBytes datatype value := by
  simp only [JsonLibrary.native, hinteger, truncate_intCast]

/-- Over the binary extension and over gRPC integers are the same words. -/
theorem typedIntegers_native (hinteger : withTensorElementType datatype = some (.integer format)) :
    lib.native.typedIntegers datatype values = binaryData datatype values := by
  unfold JsonLibrary.typedIntegers binaryData
  congr 1
  funext value
  rw [integerBytes_native hinteger, toList_integerWord]

/-- A cast that is undefined may give any bytes, so none survive it. -/
theorem elementBytes_undefined (hinteger : withTensorElementType datatype = some (.integer format)) {double value : Int}
    (hsame : ∀ lib : JsonLibrary, lib.native.elementBytes datatype double = lib.native.integerBytes datatype value) :
    format.Holds double := by
  by_contra hnot
  let library (byte : UInt8) : JsonLibrary :=
    { JsonLibrary.onText "" .null with
      elementBytes := fun datatype _ => Vector.replicate (tensorElementSize datatype) byte }
  have hzero := hsame (library 0)
  have hone := hsame (library 1)
  rw [elementBytes_native hinteger, if_neg hnot, integerBytes_native hinteger] at hzero hone
  have hequal : Vector.replicate (tensorElementSize datatype) (0 : UInt8) =
      Vector.replicate (tensorElementSize datatype) 1 := hzero.trans hone.symm
  have hsize := size_pos_of_integer hinteger
  rw [← size_of_integer hinteger] at hsize
  have hfirst := congrArg (fun word => word.toList.head?) hequal
  simp [List.head?_replicate, Nat.ne_of_gt hsize] at hfirst

/-- An integer is the same with and without a double in between exactly when a
double holds all of its significant bits. -/
theorem native_carries_iff (hinteger : withTensorElementType datatype = some (.integer format)) {value : Int}
    (hvalue : format.Holds value) :
    (∀ lib : JsonLibrary, lib.native.elementBytes datatype (lib.native.toDouble value) =
      lib.native.integerBytes datatype value) ↔ HasSignificand 53 value.natAbs := by
  rw [← roundSigned_eq_self_iff]
  constructor
  · intro hsame
    have hholds := elementBytes_undefined hinteger hsame
    have hword := hsame (JsonLibrary.onText "" .null)
    rw [toDouble_native, elementBytes_native hinteger, if_pos hholds, integerBytes_native hinteger] at hword
    exact (integerWord_inj hinteger hholds hvalue).mp hword
  · intro hexact lib
    rw [toDouble_native, hexact, elementBytes_native hinteger, if_pos hvalue, integerBytes_native hinteger]

theorem getDouble_jsonInteger (value : Int) :
    ∃ number, (jsonInteger value).asNumber = some number ∧ lib.getDouble number = lib.toDouble value := by
  unfold jsonInteger
  split
  · next hnonneg =>
    refine ⟨_, rfl, ?_⟩
    rw [JsonLibrary.getDouble, Int.toNat_of_nonneg hnonneg]
  · exact ⟨_, rfl, rfl⟩

/-- An array whose numbers have these doubles. -/
theorem parseData_of_doubles {data : List Json} {doubles : List ℚ} (hsize : tensorElementSize datatype ≠ 0)
    (hdata : List.Forall₂ (fun json double => ∃ number, json.asNumber = some number ∧ lib.getDouble number = double)
      data doubles) : parseData lib data datatype = some (lib.typedReals datatype doubles) := by
  have hnumbers : (data.mapM Json.asNumber).map (List.map lib.getDouble) = some doubles := by
    induction hdata with
    | nil => rfl
    | cons hfirst hrest ih =>
      obtain ⟨number, hnumber, rfl⟩ := hfirst
      obtain ⟨numbers, hmap, rfl⟩ := Option.map_eq_some_iff.mp ih
      rw [List.mapM_cons, hnumber, hmap]
      rfl
  obtain ⟨numbers, hmap, rfl⟩ := Option.map_eq_some_iff.mp hnumbers
  rw [parseData, if_neg hsize, hmap, Option.map_some]

/-- Integers are read through doubles. -/
theorem parseData_jsonIntegers (hsize : tensorElementSize datatype ≠ 0) :
    parseData lib (values.map jsonInteger) datatype = some (lib.typedReals datatype (values.map lib.toDouble)) := by
  apply parseData_of_doubles hsize
  rw [List.forall₂_map_left_iff, List.forall₂_map_right_iff, List.forall₂_same]
  intro value hvalue
  exact getDouble_jsonInteger value

/-- A tensor of integers is written as doubles. -/
theorem tensorData_of_integers (hinteger : withTensorElementType datatype = some (.integer format))
    (hvalues : ∀ value ∈ values, format.Holds value) (floating : Nat → List UInt8 → Json) {tensor : OutputTensor}
    (hdatatype : tensor.datatype = datatype) (hbytes : tensor.bytes = binaryData datatype values) :
    tensorData lib floating tensor = values.map fun value => .number (.real (lib.toDouble value)) := by
  have hdecode := WordFormat.decodeAll_flatMap_encode (withTensorElementType_size_pos hinteger) hvalues
  rw [binaryData, size_of_integer hinteger] at hbytes
  unfold tensorData
  rw [hdatatype, not_bytes_of_integer hinteger, if_neg Bool.false_ne_true, hinteger, hbytes]
  rw [WordFormat.decodeAll] at hdecode
  conv => rhs; rw [← hdecode, List.map_map]
  rfl

/-- What is written of integers and read again has passed through doubles. -/
theorem parseData_reread (hinteger : withTensorElementType datatype = some (.integer format))
    (hvalues : ∀ value ∈ values, format.Holds value) (floating : Nat → List UInt8 → Json) {tensor : OutputTensor}
    (hdatatype : tensor.datatype = datatype) (hbytes : tensor.bytes = binaryData datatype values) {data : List Json}
    (hreread : Reread lib (inputData (outputTensorJson lib floating tensor)) data) :
    parseData lib data datatype = some (lib.typedReals datatype (values.map lib.toDouble)) := by
  rw [inputData_outputTensorJson, tensorData_of_integers hinteger hvalues floating hdatatype hbytes, Reread,
    List.forall₂_map_left_iff] at hreread
  have hsize := size_pos_of_integer hinteger
  rw [← size_of_integer hinteger] at hsize
  apply parseData_of_doubles (Nat.ne_of_gt hsize)
  rw [List.forall₂_map_right_iff]
  apply List.Forall₂.flip
  apply hreread.imp
  rintro value json ⟨number, number', hwritten, rfl, hdouble⟩
  cases hwritten
  exact ⟨number', rfl, hdouble⟩

/-- Both ways through JSON go through the same doubles. -/
theorem survivesJson_iff_typed (hinteger : withTensorElementType datatype = some (.integer format))
    (hvalues : ∀ value ∈ values, format.Holds value) (floating : Nat → List UInt8 → Json) :
    SurvivesJson lib.native floating datatype values ↔
      ∀ value ∈ values, lib.native.elementBytes datatype (lib.native.toDouble value) =
        lib.native.integerBytes datatype value := by
  have hsize := size_pos_of_integer hinteger
  rw [← size_of_integer hinteger] at hsize
  rw [← typedIntegers_eq_iff, typedIntegers_native hinteger]
  constructor
  · intro hsurvives
    have hinput := hsurvives.input
    rw [parseData_jsonIntegers (Nat.ne_of_gt hsize)] at hinput
    exact Option.some.inj hinput
  · intro htyped
    constructor
    · intro tensor hdatatype hbytes data hreread
      rw [parseData_reread hinteger hvalues floating hdatatype hbytes hreread, htyped, hbytes]
    · rw [parseData_jsonIntegers (Nat.ne_of_gt hsize), htyped]

/-- Integers of up to 32 bits survive, whatever they are. -/
theorem survivesJson_of_size_le (hinteger : withTensorElementType datatype = some (.integer format))
    (hsize : format.size ≤ 4) (hvalues : ∀ value ∈ values, format.Holds value)
    (floating : Nat → List UInt8 → Json) (lib : JsonLibrary) : SurvivesJson lib.native floating datatype values := by
  rw [survivesJson_iff_typed hinteger hvalues]
  intro value hmem
  have hbound := (hvalues value hmem).natAbs_le
  have hpow : 2 ^ (8 * format.size) ≤ 2 ^ 32 := Nat.pow_le_pow_right Nat.two_pos (by omega)
  have hlt : value.natAbs < 2 ^ 53 := by omega
  exact (native_carries_iff hinteger (hvalues value hmem)).mpr (hasSignificand_of_lt hlt) lib

/-- Integers survive JSON, whatever an undefined cast does, exactly when each of
them has at most 53 significant bits. -/
theorem integers_survive_iff (hinteger : withTensorElementType datatype = some (.integer format))
    (hvalues : ∀ value ∈ values, format.Holds value) (floating : Nat → List UInt8 → Json) :
    (∀ lib : JsonLibrary, SurvivesJson lib.native floating datatype values) ↔
      ∀ value ∈ values, HasSignificand 53 value.natAbs := by
  simp only [survivesJson_iff_typed hinteger hvalues]
  constructor
  · intro hsurvives value hmem
    exact (native_carries_iff hinteger (hvalues value hmem)).mp fun lib => hsurvives lib value hmem
  · intro hsignificand lib value hmem
    exact (native_carries_iff hinteger (hvalues value hmem)).mpr (hsignificand value hmem) lib

/-- A value on either side of zero, one past the consecutive integers of a double
and the least of all. -/
theorem integers_survive_beyond_doubles :
    withTensorElementType "INT64" = some (.integer { signed := true, size := 8 }) ∧
      ∀ lib : JsonLibrary,
        SurvivesJson lib.native (fun _ _ => .null) "INT64" [1, -3, 9007199254740994, -9223372036854775808] := by
  have hinteger : withTensorElementType "INT64" = some (.integer { signed := true, size := 8 }) := rfl
  refine ⟨hinteger, (integers_survive_iff hinteger (by decide +kernel) _).mpr ?_⟩
  simp only [List.forall_mem_cons]
  refine ⟨hasSignificand_of_lt (by decide), hasSignificand_of_lt (by decide), ?_, ?_, nofun⟩
  · exact ⟨4503599627370497, 1, by decide, by decide⟩
  · exact ⟨1, 63, by decide, by decide⟩

/-- The first positive integer that a double does not hold. -/
theorem first_integer_lost :
    WordFormat.Holds { signed := true, size := 8 } 9007199254740993 ∧
      ∀ (lib : JsonLibrary) (floating : Nat → List UInt8 → Json),
        ¬ SurvivesJson lib.native floating "INT64" [9007199254740993] := by
  have hinteger : withTensorElementType "INT64" = some (.integer { signed := true, size := 8 }) := rfl
  have hholds : WordFormat.Holds { signed := true, size := 8 } 9007199254740993 := by decide +kernel
  have hrounded : WordFormat.Holds { signed := true, size := 8 } (roundSigned 53 9007199254740993) := by decide +kernel
  refine ⟨hholds, ?_⟩
  intro lib floating hsurvives
  rw [survivesJson_iff_typed hinteger (List.forall_mem_singleton.mpr hholds), List.forall_mem_singleton,
    toDouble_native, elementBytes_native hinteger, if_pos hrounded, integerBytes_native hinteger,
    integerWord_inj hinteger hrounded hholds] at hsurvives
  exact absurd hsurvives (by decide +kernel)

end neuriplo.codec
