import Mathlib.Data.List.Forall2
import NeuriploRuntime.Codec.Admission

open neuriplo.tensor fallible

namespace neuriplo.codec

/-- The data of a tensor. -/
inductive Payload where
  | raw (bytes : List UInt8)
  | strings (values : List String)
  | booleans (values : List Bool)
  | integers (values : List Int)
  | reals (values : List ℚ)

structure TensorRequest where
  name : String
  datatype : String
  shape : List Int64
  payload : Payload

/-- What a client asks for. Without `outputs` it asks for none in particular. -/
structure WireRequest where
  id : Option String := none
  inputs : List TensorRequest
  outputs : Option (List String) := none

def Payload.rawBytes : Payload → List UInt8
  | .raw bytes => bytes
  | _ => []

def Payload.text : Payload → List String
  | .strings values => values
  | _ => []

def TensorRequest.extents (input : TensorRequest) : List Int := input.shape.map (·.toInt)

def Number.whole : Number → Option Int
  | .unsigned value => some value
  | .integer value => some value
  | .real _ => none

variable (lib : JsonLibrary)

/-- The JSON values of a payload. A real number may be written without fraction. -/
inductive JsonData : Payload → List Json → Prop
  | strings (values : List String) : JsonData (.strings values) (values.map .string)
  | booleans (values : List Bool) : JsonData (.booleans values) (values.map .boolean)
  | integers {values : List Int} {numbers : List Number} (hnumbers : numbers.map (·.whole) = values.map some) :
      JsonData (.integers values) (numbers.map .number)
  | reals (numbers : List Number) : JsonData (.reals (numbers.map lib.getDouble)) (numbers.map .number)

/-- Raw bytes are behind the JSON part, everything else is in it. -/
inductive JsonPayload (node : Json) : Payload → Prop
  | raw {bytes : List UInt8} {parameters : Json} (hparameters : node.field "parameters" = some parameters)
      (hsize : parameters.field "binary_data_size" = some (.number (.unsigned bytes.length)))
      (hbound : bytes.length < 2 ^ 63) : JsonPayload node (.raw bytes)
  | data {payload : Payload} {values : List Json} (hparameters : node.field "parameters" = none)
      (hdata : node.field "data" = some (.array values)) (hvalues : JsonData lib payload values) :
      JsonPayload node payload

/-- A JSON node that says what an input is. -/
structure JsonInput (node : Json) (input : TensorRequest) : Prop where
  object : node.isObject = true
  name : node.field "name" = some (.string input.name)
  datatype : node.field "datatype" = some (.string input.datatype)
  shape : ∃ dimensions : List Number, node.field "shape" = some (.array (dimensions.map .number)) ∧
    dimensions.map (·.whole) = input.extents.map some
  payload : JsonPayload lib node input.payload

def JsonOutput (node : Json) (name : String) : Prop :=
  node.isObject = true ∧ node.field "name" = some (.string name)

/-- A JSON document, with the binary part behind it, that says what a request is. -/
structure JsonRequest (root : Json) (binary_blob : List UInt8) (request : WireRequest) : Prop where
  object : root.isObject = true
  id : root.field "id" = request.id.map .string
  inputs : ∃ nodes, root.field "inputs" = some (.array nodes) ∧ List.Forall₂ (JsonInput lib) nodes request.inputs
  outputs : match request.outputs with
    | none => root.field "outputs" = none
    | some names => ∃ nodes, root.field "outputs" = some (.array nodes) ∧ List.Forall₂ JsonOutput nodes names
  parameters : root.field "parameters" = none
  blob : binary_blob = request.inputs.flatMap (·.payload.rawBytes)

/-- No more elements than the shape asks for, and no fewer unless there are none. -/
def Counted (count elements : Nat) : Prop := count = 0 ∨ elements = 0 ∨ count = elements

/-- A payload of the kind its datatype takes, of as many elements as the shape
asks for. -/
def PayloadFits (datatype : String) (elements : Nat) : Payload → Prop
  | .raw bytes =>
    isBytesDatatype datatype = false ∧ (elements = 0 ∨ tensorElementCount datatype bytes = elements)
  | .strings values =>
    if isBytesDatatype datatype then Counted values.length elements
    else tensorElementSize datatype ≠ 0 ∧ values = []
  | .booleans values => (isBytesDatatype datatype = true ∨ tensorElementSize datatype ≠ 0) ∧ values = []
  | .integers values =>
    if isBytesDatatype datatype then values = []
    else tensorElementSize datatype ≠ 0 ∧ Counted values.length elements
  | .reals values =>
    if isBytesDatatype datatype then values = []
    else tensorElementSize datatype ≠ 0 ∧ Counted values.length elements

def ShapeFits (shape expected : List Int) : Prop :=
  List.Forall₂ (fun dimension expected => 0 ≤ dimension ∧ (0 ≤ expected → dimension = expected)) shape expected

/-- An input that the metadata declares, of its datatype and shape, and with a
payload that fits. -/
structure Admissible (metadata : ModelMetadata) (input : TensorRequest) : Prop where
  declared : ∃ expected, findTensor metadata.inputs input.name = some expected ∧ input.datatype = expected.datatype ∧
    ShapeFits input.extents expected.shape
  payload : ∃ elements, shapeElementCount 1 input.extents = some elements ∧
    PayloadFits input.datatype elements input.payload

/-- The doubles that a JSON payload's numbers are read as. -/
def Payload.doubles : Payload → List ℚ
  | .integers values => values.map lib.toDouble
  | .reals values => values
  | _ => []

/-- The tensor that comes out of an accepted input. -/
def TensorRequest.decoded (input : TensorRequest) : InputTensor where
  name := input.name
  datatype := input.datatype
  shape := input.extents
  bytes := if isBytesDatatype input.datatype then [] else
    input.payload.rawBytes ++ lib.typedReals input.datatype (input.payload.doubles lib)
  string_data := if isBytesDatatype input.datatype then input.payload.text else []

/-- A whole number in range reads back as the dimension it is. -/
theorem int64_of_whole {number : Number} {dimension : Int64} (hwhole : number.whole = some dimension.toInt) :
    (Json.number number).int64 = some dimension.toInt := by
  cases number with
  | unsigned value =>
    have hvalue : (value : Int) = dimension.toInt := Option.some.inj hwhole
    rw [Json.int64, hvalue, wrapInt64_of_range dimension.le_toInt dimension.toInt_lt]
  | integer value => exact hwhole
  | real value => cases hwhole

/-- A shape of whole numbers reads back. -/
theorem parseShape_whole {dimensions : List Number} {shape : List Int64}
    (hwhole : dimensions.map (·.whole) = (shape.map (·.toInt)).map some) :
    parseShape (.array (dimensions.map .number)) = shape.map (·.toInt) := by
  rw [parseShape, Json.asArray, Option.getD_some]
  induction dimensions generalizing shape with
  | nil =>
    rw [List.map_nil, List.map_map] at hwhole
    rw [List.map_eq_nil_iff.mp hwhole.symm]
    rfl
  | cons number dimensions ih =>
    cases shape with
    | nil => cases hwhole
    | cons dimension shape =>
      simp only [List.map_cons, List.cons.injEq] at hwhole
      rw [List.map_cons, List.filterMap_cons_some (int64_of_whole hwhole.1), ih hwhole.2, List.map_cons]

/-- A dimension matches when it is not negative and is the one expected, if one
is. -/
theorem dimensionMatches_whole {number : Number} {dimension : Int64} {expected : Int}
    (hwhole : number.whole = some dimension.toInt) :
    dimensionMatches (.number number) expected = true ↔
      0 ≤ dimension.toInt ∧ (0 ≤ expected → dimension.toInt = expected) := by
  rw [dimensionMatches, int64_of_whole hwhole]
  simp only [Bool.and_eq_true, decide_eq_true_eq, Bool.not_eq_true', Bool.and_eq_false_iff, decide_eq_false_iff_not,
    not_not, imp_iff_not_or]

/-- A shape matches when each of its dimensions does. -/
theorem shapeMatches_whole {dimensions : List Number} {shape : List Int64} {metadata : TensorMetadata}
    (hwhole : dimensions.map (·.whole) = (shape.map (·.toInt)).map some) :
    shapeMatches (.array (dimensions.map .number)) metadata = true ↔
      ShapeFits (shape.map (·.toInt)) metadata.shape := by
  rw [shapeMatches, List.length_map, Bool.and_eq_true, decide_eq_true_eq, ShapeFits]
  generalize metadata.shape = expected
  induction dimensions generalizing shape expected with
  | nil =>
    rw [List.map_nil, List.map_map] at hwhole
    rw [List.map_eq_nil_iff.mp hwhole.symm]
    cases expected with
    | nil => simp
    | cons first expected => simp
  | cons number dimensions ih =>
    cases shape with
    | nil => cases hwhole
    | cons dimension shape =>
      simp only [List.map_cons, List.cons.injEq] at hwhole
      cases expected with
      | nil => simp
      | cons first expected =>
        rw [List.map_cons, List.map_cons, List.forall₂_cons, ← ih hwhole.2, List.zipWith_cons_cons, List.all_cons,
          id, Bool.and_eq_true, dimensionMatches_whole hwhole.1, List.length_cons, List.length_cons, Nat.succ_inj]
        exact and_left_comm

theorem mapM_asString (values : List String) : (values.map Json.string).mapM Json.asString = some values := by
  rw [List.mapM_map]
  exact List.mapM_pure.trans (by simp)

theorem mapM_asNumber (numbers : List Number) : (numbers.map Json.number).mapM Json.asNumber = some numbers := by
  rw [List.mapM_map]
  exact List.mapM_pure.trans (by simp)

/-- Values of another kind are refused, unless there are none. -/
theorem mapM_eq_none {α β γ : Type} {get : β → Option γ} {make : α → β} (hother : ∀ value, get (make value) = none)
    (values : List α) : (values.map make).mapM get = if values = [] then some [] else none := by
  cases values with
  | nil => rfl
  | cons value values =>
    rw [List.map_cons, List.mapM_cons, hother value]
    rfl

variable {lib} {node : Json} {input : TensorRequest}

/-- Whole numbers are read as the doubles of their values. -/
theorem JsonData.doubles_of_whole {values : List Int} {numbers : List Number}
    (hnumbers : numbers.map (·.whole) = values.map some) : numbers.map lib.getDouble = values.map lib.toDouble := by
  induction numbers generalizing values with
  | nil =>
    rw [List.map_nil] at hnumbers
    rw [List.map_eq_nil_iff.mp hnumbers.symm]
    rfl
  | cons number numbers ih =>
    cases values with
    | nil => cases hnumbers
    | cons value values =>
      simp only [List.map_cons, List.cons.injEq] at hnumbers
      rw [List.map_cons, List.map_cons, ih hnumbers.2]
      have hvalue := hnumbers.1
      cases number with
      | unsigned whole =>
        rw [← Option.some.inj hvalue]
        rfl
      | integer whole =>
        rw [← Option.some.inj hvalue]
        rfl
      | real whole => cases hvalue

/-- Numbers are read at the width of their datatype. -/
theorem parseData_numbers (numbers : List Number) (datatype : String) :
    parseData lib (numbers.map .number) datatype =
      if tensorElementSize datatype = 0 then none
      else some (lib.typedReals datatype (numbers.map lib.getDouble)) := by
  rw [parseData, mapM_asNumber, Option.map_some]

/-- Elements that are no numbers are refused where a datatype has a size. -/
theorem parseData_other {α : Type} {make : α → Json} (hother : ∀ value, (make value).asNumber = none)
    (values : List α) (datatype : String) :
    parseData lib (values.map make) datatype =
      if tensorElementSize datatype = 0 ∨ values ≠ [] then none else some [] := by
  rw [parseData, mapM_eq_none hother]
  by_cases hsize : tensorElementSize datatype = 0
  · simp [hsize]
  · by_cases hnone : values = []
    · simp [hsize, hnone, JsonLibrary.typedReals]
    · simp [hsize, hnone]

/-- An input that sends its bytes says how many. -/
theorem binaryDataSize_raw {bytes : List UInt8} {parameters : Json}
    (hparameters : node.field "parameters" = some parameters)
    (hsize : parameters.field "binary_data_size" = some (.number (.unsigned bytes.length)))
    (hbound : bytes.length < 2 ^ 63) : binaryDataSize node = bytes.length := by
  have hread : binaryDataSize node = wrapInt64 bytes.length := by
    rw [binaryDataSize, hparameters, Option.bind_some, hsize, Option.bind_some]
    simp only [Json.int64]
    rw [Option.getD_some]
  have hhigh : (bytes.length : Int) < 2 ^ 63 := by exact_mod_cast hbound
  rw [hread]
  exact wrapInt64_of_range (by omega) hhigh

/-- An input without parameters sends no bytes. -/
theorem binaryDataSize_data (hparameters : node.field "parameters" = none) : binaryDataSize node = -1 := by
  simp only [binaryDataSize, hparameters, Option.bind_none, Option.getD_none]

/-- The bytes an input sends are cut off the blob. -/
theorem sliceBlob_of_drop {blob bytes rest : List UInt8} {offset : Nat} (hoffset : offset ≤ blob.length)
    (hdrop : blob.drop offset = bytes ++ rest) : sliceBlob blob offset bytes.length = .ok bytes := by
  have hlength := congrArg List.length hdrop
  rw [List.length_drop, List.length_append] at hlength
  rw [sliceBlob, if_neg (by omega), hdrop, List.take_left]

/-- A value behind a check. -/
theorem ok_behind_check {α : Type} {check passes : Prop} [Decidable check] {message : String} {value result : α}
    (hpasses : ¬ check ↔ passes) :
    (if check then Except.error message else Except.ok value) = Except.ok result ↔ passes ∧ result = value := by
  rw [← hpasses]
  by_cases hcheck : check
  · simp [hcheck]
  · simp [hcheck, eq_comm]

theorem not_miscounted_iff {α : Type} {values : List α} {count elements : Nat} (hnone : values = [] ↔ count = 0) :
    ¬ (values ≠ [] ∧ elements ≠ 0 ∧ count ≠ elements) ↔ Counted count elements := by
  rw [Counted, ne_eq, hnone]
  omega

/-- What the header of a node says of its input. -/
structure Heads (header : InputHeader) (input : TensorRequest) : Prop where
  name : header.name = input.name
  datatype : header.datatype = input.datatype
  shape : parseShape header.shape = input.extents

section Decode

variable {header : InputHeader} {elements offset : Nat} {blob rest : List UInt8} {result : InputTensor × Nat}

/-- An input sent as bytes is decoded exactly when its payload fits. -/
theorem decodeInput_raw {bytes : List UInt8} (hpayload : input.payload = .raw bytes) (hheader : Heads header input)
    (hsize : binaryDataSize node = bytes.length) (hoffset : offset ≤ blob.length)
    (hdrop : blob.drop offset = bytes ++ rest) :
    decodeInput lib header node elements blob offset = .ok result ↔
      PayloadFits input.datatype elements input.payload ∧
        result = (input.decoded lib, offset + input.payload.rawBytes.length) := by
  have hbinary : 0 ≤ binaryDataSize node := by
    rw [hsize]
    exact Int.natCast_nonneg _
  rw [hpayload, ← hheader.datatype]
  unfold decodeInput
  dsimp only [PayloadFits, Payload.rawBytes]
  by_cases hbytes : isBytesDatatype header.datatype = true
  · rw [if_pos hbytes, if_pos hbinary]
    simp only [hbytes, reduceCtorEq, Bool.true_eq_false, false_and]
  · rw [if_neg hbytes, if_pos hbinary, hsize, Int.toNat_natCast, sliceBlob_of_drop hoffset hdrop]
    dsimp only
    rw [Bool.not_eq_true] at hbytes
    have hpasses : ¬ (elements ≠ 0 ∧ tensorElementCount header.datatype bytes ≠ elements) ↔
        elements = 0 ∨ tensorElementCount header.datatype bytes = elements := by
      rw [not_and_or, not_not, not_not]
    have hdecoded : input.decoded lib =
        { name := header.name, datatype := header.datatype, shape := parseShape header.shape, bytes } := by
      simp only [TensorRequest.decoded, hpayload, ← hheader.datatype, hbytes, hheader.shape, hheader.name,
        Payload.rawBytes, Payload.doubles, Bool.false_eq_true, if_false, JsonLibrary.typedReals, List.flatMap_nil,
        List.append_nil]
    rw [ok_behind_check hpasses, hdecoded]
    simp only [hbytes, true_and]

theorem not_binary {node : Json} (hsize : binaryDataSize node = -1) : ¬ 0 ≤ binaryDataSize node := by
  rw [hsize]
  decide

/-- An input of texts is decoded exactly when its payload fits. -/
theorem decodeInput_text {values : List Json} {payload : Payload} (hpayload : input.payload = payload)
    (hheader : Heads header input) (hbytes : isBytesDatatype header.datatype = true) (hsize : binaryDataSize node = -1)
    (hdata : inputData node = values) (hvalues : JsonData lib payload values) :
    decodeInput lib header node elements blob offset = .ok result ↔
      PayloadFits input.datatype elements payload ∧ result = (input.decoded lib, offset) := by
  have hjson := not_binary hsize
  have hdecoded : input.decoded lib =
      { name := header.name, datatype := header.datatype, shape := parseShape header.shape,
        string_data := payload.text } := by
    simp only [TensorRequest.decoded, hpayload, ← hheader.datatype, hbytes, hheader.shape, hheader.name, if_true]
  rw [← hheader.datatype, hdecoded]
  unfold decodeInput
  dsimp only
  rw [if_pos hbytes, if_neg hjson, hdata, parseStringData]
  cases hvalues with
  | strings values =>
    rw [mapM_asString]
    dsimp only [PayloadFits, Payload.text]
    rw [ok_behind_check (not_miscounted_iff List.length_eq_zero_iff.symm), if_pos hbytes]
  | booleans values =>
    rw [mapM_eq_none (fun _ => rfl)]
    dsimp only [PayloadFits, Payload.text]
    by_cases hnone : values = []
    · simp [hnone, hbytes, eq_comm]
    · simp [hnone]
  | @integers values numbers hnumbers =>
    have hempty : numbers = [] ↔ values = [] := by
      rw [← List.map_eq_nil_iff (f := Number.whole), hnumbers, List.map_eq_nil_iff]
    rw [mapM_eq_none (fun _ => rfl)]
    dsimp only [PayloadFits, Payload.text]
    rw [if_pos hbytes, ← hempty]
    by_cases hnone : numbers = []
    · simp [hnone, eq_comm]
    · simp [hnone]
  | reals numbers =>
    rw [mapM_eq_none (fun _ => rfl)]
    dsimp only [PayloadFits, Payload.text]
    rw [if_pos hbytes, List.map_eq_nil_iff]
    by_cases hnone : numbers = []
    · simp [hnone, eq_comm]
    · simp [hnone]

/-- An input of numbers is decoded exactly when the datatype has a size and the
elements are all there. -/
theorem decodeInput_numbers {numbers : List Number} (hbytes : isBytesDatatype header.datatype = false)
    (hsize : binaryDataSize node = -1) (hdata : inputData node = numbers.map .number) :
    decodeInput lib header node elements blob offset = .ok result ↔
      (tensorElementSize header.datatype ≠ 0 ∧ Counted numbers.length elements) ∧
        result = (
          { name := header.name, datatype := header.datatype, shape := parseShape header.shape,
            bytes := lib.typedReals header.datatype (numbers.map lib.getDouble) }, offset) := by
  have hjson := not_binary hsize
  have hnotBytes := Bool.eq_false_iff.mp hbytes
  unfold decodeInput
  dsimp only
  rw [if_neg hnotBytes, if_neg hjson, hdata, parseData_numbers]
  by_cases hunknown : tensorElementSize header.datatype = 0
  · simp [hunknown]
  · rw [if_neg hunknown]
    dsimp only
    have hlength := lib.length_typedReals header.datatype (numbers.map lib.getDouble)
    rw [List.length_map] at hlength
    have hcount : tensorElementCount header.datatype (lib.typedReals header.datatype (numbers.map lib.getDouble)) =
        numbers.length := by
      rw [tensorElementCount, if_neg hunknown, hlength, Nat.mul_div_cancel _ (Nat.pos_of_ne_zero hunknown)]
    have hnone : lib.typedReals header.datatype (numbers.map lib.getDouble) = [] ↔ numbers.length = 0 := by
      rw [← List.length_eq_zero_iff, hlength, Nat.mul_eq_zero, or_iff_left hunknown]
    rw [hcount, ok_behind_check (not_miscounted_iff hnone)]
    simp only [ne_eq, hunknown, not_false_eq_true, true_and]

/-- Values that are not numbers. -/
theorem decodeInput_others {α : Type} {make : α → Json} {values : List α}
    (hother : ∀ value, (make value).asNumber = none)
    (hbytes : isBytesDatatype header.datatype = false) (hsize : binaryDataSize node = -1)
    (hdata : inputData node = values.map make) :
    decodeInput lib header node elements blob offset = .ok result ↔
      (tensorElementSize header.datatype ≠ 0 ∧ values = []) ∧
        result = ({ name := header.name, datatype := header.datatype, shape := parseShape header.shape }, offset) := by
  have hjson := not_binary hsize
  have hnotBytes := Bool.eq_false_iff.mp hbytes
  unfold decodeInput
  dsimp only
  rw [if_neg hnotBytes, if_neg hjson, hdata, parseData_other hother]
  by_cases hunknown : tensorElementSize header.datatype = 0
  · simp [hunknown]
  · by_cases hnone : values = []
    · simp [hunknown, hnone, eq_comm]
    · simp [hnone]

/-- An input of elements of a fixed size is decoded exactly when its payload
fits. -/
theorem decodeInput_elements {values : List Json} {payload : Payload} (hpayload : input.payload = payload)
    (hheader : Heads header input) (hbytes : isBytesDatatype header.datatype = false) (hsize : binaryDataSize node = -1)
    (hdata : inputData node = values) (hvalues : JsonData lib payload values) :
    decodeInput lib header node elements blob offset = .ok result ↔
      PayloadFits input.datatype elements payload ∧ result = (input.decoded lib, offset) := by
  have hdecoded : input.decoded lib =
      { name := header.name, datatype := header.datatype, shape := parseShape header.shape,
        bytes := payload.rawBytes ++ lib.typedReals header.datatype (payload.doubles lib) } := by
    simp only [TensorRequest.decoded, hpayload, ← hheader.datatype, hbytes, hheader.shape, hheader.name,
      Bool.false_eq_true, if_false]
  have hnotBytes := Bool.eq_false_iff.mp hbytes
  rw [← hheader.datatype, hdecoded]
  cases hvalues with
  | strings values =>
    rw [decodeInput_others (fun _ => rfl) hbytes hsize hdata]
    simp only [PayloadFits, hnotBytes, if_false, Payload.rawBytes, Payload.doubles, JsonLibrary.typedReals,
      List.flatMap_nil, List.append_nil, Bool.false_eq_true]
  | booleans values =>
    rw [decodeInput_others (fun _ => rfl) hbytes hsize hdata]
    simp only [PayloadFits, hbytes, false_or, Payload.rawBytes, Payload.doubles, JsonLibrary.typedReals,
      List.flatMap_nil, List.append_nil, Bool.false_eq_true]
  | @integers values numbers hwhole =>
    have hdoubles := @JsonData.doubles_of_whole lib _ _ hwhole
    have hlength : values.length = numbers.length := by
      have hlengths := congrArg List.length hdoubles
      rw [List.length_map, List.length_map] at hlengths
      exact hlengths.symm
    rw [decodeInput_numbers hbytes hsize hdata, hdoubles]
    simp only [PayloadFits, hnotBytes, if_false, Payload.rawBytes, Payload.doubles, hlength, List.nil_append,
      Bool.false_eq_true]
  | reals numbers =>
    rw [decodeInput_numbers hbytes hsize hdata]
    simp only [PayloadFits, hnotBytes, if_false, Payload.rawBytes, Payload.doubles, List.length_map, List.nil_append,
      Bool.false_eq_true]

/-- An input is decoded exactly when its payload fits. -/
theorem decodeInput_iff {payload : Payload} (hpayload : input.payload = payload) (hheader : Heads header input)
    (hsaid : JsonPayload lib node payload) (hoffset : offset ≤ blob.length)
    (hdrop : blob.drop offset = payload.rawBytes ++ rest) :
    decodeInput lib header node elements blob offset = .ok result ↔
      PayloadFits input.datatype elements payload ∧
        result = (input.decoded lib, offset + payload.rawBytes.length) := by
  cases hsaid with
  | @raw bytes parameters hparameters hsize hbound =>
    have hraw := binaryDataSize_raw hparameters hsize hbound
    have hdecode := @decodeInput_raw lib node input header elements offset blob rest result bytes hpayload hheader hraw
      hoffset hdrop
    rw [hpayload] at hdecode
    exact hdecode
  | @data _ values hparameters hdata hvalues =>
    have hnoBytes : payload.rawBytes = [] := by
      cases hvalues <;> rfl
    have hvaluesRead : inputData node = values := by
      rw [inputData, hdata, Option.bind_some, Json.asArray, Option.getD_some]
    rw [hnoBytes, List.length_nil, Nat.add_zero]
    cases hbytes : isBytesDatatype header.datatype with
    | true => exact decodeInput_text hpayload hheader hbytes (binaryDataSize_data hparameters) hvaluesRead hvalues
    | false => exact decodeInput_elements hpayload hheader hbytes (binaryDataSize_data hparameters) hvaluesRead hvalues

end Decode

/-- An input says its payload in one of the ways that are read. -/
theorem JsonPayload.readable {payload : Payload} (hsaid : JsonPayload lib node payload) :
    ¬ (binaryDataSize node < 0 ∧ ((node.field "data").bind (·.asArray)).isNone = true) := by
  cases hsaid with
  | raw hparameters hsize hbound =>
    rw [binaryDataSize_raw hparameters hsize hbound]
    omega
  | data hparameters hdata hvalues => simp [hdata, Json.asArray]

/-- The header of an input reads back. -/
theorem JsonInput.parseInputHeader_ok (hinput : JsonInput lib node input) :
    ∃ dimensions : List Number,
      parseInputHeader node =
        .ok { name := input.name, datatype := input.datatype, shape := .array (dimensions.map .number) } ∧
      dimensions.map (·.whole) = input.extents.map some := by
  obtain ⟨dimensions, hshape, hwhole⟩ := hinput.shape
  refine ⟨dimensions, ?_, hwhole⟩
  unfold parseInputHeader
  rw [hinput.object, hinput.name, hinput.datatype, hshape]
  simp only [Bool.not_true, Bool.false_eq_true, if_false, Option.bind_some, Json.asString,
    if_neg hinput.payload.readable]

/-- An input is admitted exactly when it is not repeated and its header fits the
metadata. -/
theorem admitInput_iff {metadata : ModelMetadata} {seen_input_names : List String} {dimensions : List Number}
    {elements : Nat} (hwhole : dimensions.map (·.whole) = input.extents.map some) :
    admitInput metadata seen_input_names
        { name := input.name, datatype := input.datatype, shape := .array (dimensions.map .number) } = .ok elements ↔
      input.name ∉ seen_input_names ∧
        (∃ expected, findTensor metadata.inputs input.name = some expected ∧ input.datatype = expected.datatype ∧
          ShapeFits input.extents expected.shape) ∧
        shapeElementCount 1 input.extents = some elements := by
  unfold admitInput
  dsimp only
  rw [parseShape_whole hwhole]
  by_cases hseen : input.name ∈ seen_input_names
  · simp only [hseen, if_true, reduceCtorEq, not_true_eq_false, false_and]
  · rw [if_neg hseen]
    cases hfind : findTensor metadata.inputs input.name with
    | none => simp only [reduceCtorEq, false_and, exists_false, and_false]
    | some expected =>
      dsimp only
      by_cases hdatatype : input.datatype = expected.datatype
      · have hmatches := @shapeMatches_whole dimensions input.shape expected hwhole
        by_cases hshape : ShapeFits input.extents expected.shape
        · rw [if_neg (not_not.mpr hdatatype), hmatches.mpr hshape]
          simp only [Bool.not_true, Bool.false_eq_true, if_false, hseen, not_false_eq_true, true_and,
            Option.some.injEq, exists_eq_left', hdatatype, hshape]
          split
          · rename_i hcount
            change shapeElementCount 1 input.extents = none at hcount
            rw [hcount]
            simp only [reduceCtorEq]
          · rename_i count hcount
            change shapeElementCount 1 input.extents = some count at hcount
            rw [hcount]
            simp only [Except.ok.injEq, Option.some.injEq]
        · have hmismatch : shapeMatches (.array (dimensions.map .number)) expected = false :=
            Bool.not_eq_true _ |>.mp fun htrue => hshape (hmatches.mp htrue)
          rw [if_neg (not_not.mpr hdatatype), hmismatch]
          simp only [Bool.not_false, if_true, reduceCtorEq, Option.some.injEq, exists_eq_left', hshape, and_false,
            false_and]
      · rw [if_pos hdatatype]
        simp only [reduceCtorEq, Option.some.injEq, exists_eq_left', hdatatype, false_and, and_false]

/-- An input is accepted exactly when it is not repeated and is admissible. -/
theorem parseInput_iff {metadata : ModelMetadata} {seen_input_names : List String} {blob rest : List UInt8}
    {offset : Nat} {result : InputTensor × Nat} (hinput : JsonInput lib node input) (hoffset : offset ≤ blob.length)
    (hdrop : blob.drop offset = input.payload.rawBytes ++ rest) :
    parseInput lib metadata blob seen_input_names offset node = .ok result ↔
      (input.name ∉ seen_input_names ∧ Admissible metadata input) ∧
        result = (input.decoded lib, offset + input.payload.rawBytes.length) := by
  obtain ⟨dimensions, hheader, hwhole⟩ := hinput.parseInputHeader_ok
  have hheads : Heads { name := input.name, datatype := input.datatype, shape := .array (dimensions.map .number) }
      input := ⟨rfl, rfl, parseShape_whole hwhole⟩
  unfold parseInput
  rw [hheader]
  dsimp only
  constructor
  · intro hparse
    split at hparse
    · cases hparse
    · rename_i elements hadmission
      obtain ⟨hseen, hdeclared, hcount⟩ := (admitInput_iff hwhole).mp hadmission
      obtain ⟨hfits, hresult⟩ := (decodeInput_iff rfl hheads hinput.payload hoffset hdrop).mp hparse
      exact ⟨⟨hseen, hdeclared, elements, hcount, hfits⟩, hresult⟩
  · rintro ⟨⟨hseen, hdeclared, elements, hcount, hfits⟩, hresult⟩
    rw [(admitInput_iff hwhole).mpr ⟨hseen, hdeclared, hcount⟩]
    exact (decodeInput_iff rfl hheads hinput.payload hoffset hdrop).mpr ⟨hfits, hresult⟩

/-- Inputs are accepted exactly when none is repeated and each is admissible. -/
theorem parseInputs_iff {metadata : ModelMetadata} {seen_input_names : List String} {blob : List UInt8} {offset : Nat}
    {nodes : List Json} {inputs : List TensorRequest} {result : List InputTensor × Nat}
    (hinputs : List.Forall₂ (JsonInput lib) nodes inputs) (hoffset : offset ≤ blob.length)
    (hdrop : blob.drop offset = inputs.flatMap (·.payload.rawBytes)) :
    parseInputs lib metadata blob seen_input_names offset nodes = .ok result ↔
      ((inputs.map (·.name)).Nodup ∧ (∀ input ∈ inputs, input.name ∉ seen_input_names) ∧
        ∀ input ∈ inputs, Admissible metadata input) ∧
        result = (inputs.map (·.decoded lib), blob.length) := by
  induction hinputs generalizing seen_input_names offset result with
  | nil =>
    have hconsumed : offset = blob.length := by
      have hlength := congrArg List.length hdrop
      rw [List.length_drop, List.flatMap_nil, List.length_nil] at hlength
      omega
    simp [parseInputs, hconsumed, eq_comm]
  | @cons node input nodes inputs hinput hrest ih =>
    rw [List.flatMap_cons] at hdrop
    have hlength := congrArg List.length hdrop
    rw [List.length_drop, List.length_append] at hlength
    have hnext : blob.drop (offset + input.payload.rawBytes.length) = inputs.flatMap (·.payload.rawBytes) := by
      rw [← List.drop_drop, hdrop, List.drop_left]
    have hinside : offset + input.payload.rawBytes.length ≤ blob.length := by omega
    simp only [parseInputs]
    constructor
    · intro hparse
      split at hparse
      · cases hparse
      · rename_i tensor next_offset hfirst
        obtain ⟨⟨hseen, hadmissible⟩, hpair⟩ := (parseInput_iff hinput hoffset hdrop).mp hfirst
        cases hpair
        split at hparse
        · cases hparse
        · rename_i tensors end_offset htail
          obtain ⟨⟨hnodup, hfresh, hall⟩, hpair⟩ := (ih hinside hnext).mp htail
          cases hpair
          cases hparse
          have hother : ∀ other ∈ inputs, other.name ∉ seen_input_names ∧ other.name ≠ input.name := by
            intro other hmem
            have hnot := hfresh other hmem
            rw [List.mem_append, not_or, List.mem_singleton] at hnot
            exact hnot
          refine ⟨⟨?_, ?_, ?_⟩, rfl⟩
          · rw [List.map_cons, List.nodup_cons]
            refine ⟨?_, hnodup⟩
            intro hmem
            obtain ⟨other, hmem, hequal⟩ := List.mem_map.mp hmem
            exact (hother other hmem).2 hequal
          · exact List.forall_mem_cons.mpr ⟨hseen, fun other hmem => (hother other hmem).1⟩
          · exact List.forall_mem_cons.mpr ⟨hadmissible, hall⟩
    · rintro ⟨⟨hnodup, hfresh, hall⟩, rfl⟩
      rw [List.map_cons, List.nodup_cons] at hnodup
      obtain ⟨hseen, hfreshRest⟩ := List.forall_mem_cons.mp hfresh
      obtain ⟨hadmissible, hallRest⟩ := List.forall_mem_cons.mp hall
      rw [(parseInput_iff hinput hoffset hdrop).mpr ⟨⟨hseen, hadmissible⟩, rfl⟩]
      dsimp only
      have hfreshNext : ∀ other ∈ inputs, other.name ∉ seen_input_names ++ [(input.decoded lib).name] := by
        intro other hmem
        rw [List.mem_append, not_or, List.mem_singleton]
        refine ⟨hfreshRest other hmem, ?_⟩
        intro hequal
        exact hnodup.1 (List.mem_map.mpr ⟨other, hmem, hequal⟩)
      rw [(ih hinside hnext).mpr ⟨⟨hnodup.2, hfreshNext, hallRest⟩, rfl⟩]
      rfl

/-- A tensor is not found exactly when the metadata has none of its name. -/
theorem findTensor_isNone_iff {tensors : List TensorMetadata} {name : String} :
    (findTensor tensors name).isNone = true ↔ name ∉ tensors.map (·.name) := by
  rw [Option.isNone_iff_eq_none, findTensor, List.find?_eq_none, List.mem_map]
  simp only [decide_eq_true_eq]
  push Not
  rfl

/-- A requested output is accepted exactly when the model has it. -/
theorem parseOutput_iff {metadata : ModelMetadata} {output : Json} {name result : String}
    (houtput : JsonOutput output name) :
    parseOutput metadata output = .ok result ↔ name ∈ metadata.outputs.map (·.name) ∧ result = name := by
  unfold parseOutput
  rw [houtput.1, houtput.2]
  simp only [Bool.not_true, Bool.false_eq_true, if_false, Option.bind_some, Json.asString]
  refine ok_behind_check ?_
  rw [findTensor_isNone_iff, not_not]

theorem mapM_parseOutput_iff {metadata : ModelMetadata} {outputs : List Json} {names result : List String}
    (houtputs : List.Forall₂ JsonOutput outputs names) :
    outputs.mapM (parseOutput metadata) = .ok result ↔
      (∀ name ∈ names, name ∈ metadata.outputs.map (·.name)) ∧ result = names := by
  induction houtputs generalizing result with
  | nil =>
    rw [List.mapM_nil]
    constructor
    · intro hpure
      cases hpure
      exact ⟨by simp, rfl⟩
    · rintro ⟨-, rfl⟩
      rfl
  | @cons output name outputs names houtput _ ih =>
    rw [List.mapM_cons]
    constructor
    · intro hparse
      obtain ⟨first, hfirst, hnext⟩ := bind_ok hparse
      obtain ⟨rest, hrest, hpure⟩ := bind_ok hnext
      obtain ⟨hknown, rfl⟩ := (parseOutput_iff houtput).mp hfirst
      obtain ⟨hknownRest, rfl⟩ := ih.mp hrest
      cases hpure
      exact ⟨List.forall_mem_cons.mpr ⟨hknown, hknownRest⟩, rfl⟩
    · rintro ⟨hknown, rfl⟩
      obtain ⟨hfirst, hrest⟩ := List.forall_mem_cons.mp hknown
      rw [(parseOutput_iff houtput).mpr ⟨hfirst, rfl⟩, ih.mpr ⟨hrest, rfl⟩]
      rfl

/-- The requests that the metadata of a model lets in. -/
structure Accepted (metadata : ModelMetadata) (request : WireRequest) : Prop where
  nonempty : request.inputs ≠ []
  distinct : (request.inputs.map (·.name)).Nodup
  admissible : ∀ input ∈ request.inputs, Admissible metadata input
  complete : ∀ expected ∈ metadata.inputs, expected.name ∈ request.inputs.map (·.name)
  outputs : ∀ name ∈ request.outputs.getD [], name ∈ metadata.outputs.map (·.name)

/-- What an accepted request is read as. -/
def WireRequest.decoded (lib : JsonLibrary) (metadata : ModelMetadata) (request : WireRequest) : InferenceRequest where
  id := request.id
  inputs := request.inputs.map (·.decoded lib)
  requested_outputs := request.outputs.getD (allOutputNames metadata)

section Root

variable {metadata : ModelMetadata} {root : Json} {blob : List UInt8} {request : WireRequest}

/-- Requested outputs are accepted exactly when the model has them all, and
default to all of them. -/
theorem JsonRequest.parseOutputs_iff (hrequest : JsonRequest lib root blob request) {result : List String} :
    parseOutputs metadata root = .ok result ↔
      (∀ name ∈ request.outputs.getD [], name ∈ metadata.outputs.map (·.name)) ∧
        result = request.outputs.getD (allOutputNames metadata) := by
  have hsaid := hrequest.outputs
  unfold parseOutputs
  cases houtputs : request.outputs with
  | none =>
    rw [houtputs] at hsaid
    rw [hsaid]
    simp [eq_comm]
  | some names =>
    rw [houtputs] at hsaid
    obtain ⟨nodes, hnodes, hnames⟩ := hsaid
    rw [hnodes]
    exact mapM_parseOutput_iff hnames

theorem JsonRequest.parseId_ok (hrequest : JsonRequest lib root blob request) : parseId root = .ok request.id := by
  unfold parseId
  rw [hrequest.id]
  cases request.id with
  | none => rfl
  | some id => rfl

/-- The inputs of a request are accepted exactly when none is repeated and each
is admissible. -/
theorem JsonRequest.parseInputs_iff (hrequest : JsonRequest lib root blob request) {nodes : List Json}
    (hnodes : (root.field "inputs").bind (·.asArray) = some nodes) {result : List InputTensor × Nat} :
    parseInputs lib metadata blob [] 0 nodes = .ok result ↔
      ((request.inputs.map (·.name)).Nodup ∧ ∀ input ∈ request.inputs, Admissible metadata input) ∧
        result = (request.inputs.map (·.decoded lib), blob.length) := by
  obtain ⟨others, hothers, hinputs⟩ := hrequest.inputs
  rw [hothers] at hnodes
  cases hnodes
  rw [neuriplo.codec.parseInputs_iff hinputs (Nat.zero_le _) (by rw [List.drop_zero, hrequest.blob])]
  simp only [List.not_mem_nil, not_false_eq_true, implies_true, true_and]

/-- A request that the metadata lets in is read as it is. -/
theorem parseRoot_of_accepted (hrequest : JsonRequest lib root blob request) (haccepted : Accepted metadata request) :
    parseRoot lib metadata blob root = .ok (request.decoded lib metadata) := by
  obtain ⟨nodes, hnodes, hinputs⟩ := hrequest.inputs
  have hfield : (root.field "inputs").bind (·.asArray) = some nodes := by
    rw [hnodes]
    rfl
  have hparseInputs := (hrequest.parseInputs_iff hfield).mpr ⟨⟨haccepted.distinct, haccepted.admissible⟩, rfl⟩
  have hpresent : metadata.inputs.find? (fun expected_input =>
      expected_input.name ∉ (request.inputs.map (·.decoded lib)).map (·.name)) = none := by
    rw [List.find?_eq_none]
    intro expected hmem
    rw [decide_eq_true_eq, not_not, List.map_map]
    exact haccepted.complete expected hmem
  have hrest : parseRest lib metadata root request.id (request.inputs.map (·.decoded lib)) =
      .ok (request.decoded lib metadata) := by
    unfold parseRest
    rw [hrequest.parseOutputs_iff.mpr ⟨haccepted.outputs, rfl⟩, hrequest.parameters]
    rfl
  cases nodes with
  | nil =>
    have hnone := List.forall₂_nil_left_iff.mp hinputs
    exact absurd hnone haccepted.nonempty
  | cons first others =>
    unfold parseRoot
    rw [hrequest.object, hrequest.parseId_ok, hfield]
    simp only [Bool.not_true, Bool.false_eq_true, if_false, hparseInputs, ne_eq, not_true_eq_false, hpresent, hrest]

/-- The codec accepts exactly the requests that the metadata lets in. -/
theorem parseRoot_iff (hrequest : JsonRequest lib root blob request) {result : InferenceRequest} :
    parseRoot lib metadata blob root = .ok result ↔
      Accepted metadata request ∧ result = request.decoded lib metadata := by
  constructor
  · intro hparse
    obtain ⟨nodes, hfield, hnonempty, hinputs, hcomplete, houtputs⟩ := parseRoot_ok hparse
    obtain ⟨⟨hdistinct, hadmissible⟩, hresult⟩ := (hrequest.parseInputs_iff hfield).mp hinputs
    have hinputsRead := (Prod.mk.inj hresult).1
    have haccepted : Accepted metadata request := by
      constructor
      · intro hnone
        obtain ⟨others, hothers, hpairs⟩ := hrequest.inputs
        rw [hothers] at hfield
        cases hfield
        rw [hnone] at hpairs
        exact hnonempty (List.forall₂_nil_right_iff.mp hpairs)
      · exact hdistinct
      · exact hadmissible
      · intro expected hmem
        have hname := hcomplete expected hmem
        rw [hinputsRead, List.map_map] at hname
        exact hname
      · exact (hrequest.parseOutputs_iff.mp houtputs).1
    have hread := parseRoot_of_accepted hrequest haccepted
    rw [hparse] at hread
    exact ⟨haccepted, Except.ok.inj hread⟩
  · rintro ⟨haccepted, rfl⟩
    exact parseRoot_of_accepted hrequest haccepted

end Root

end neuriplo.codec
