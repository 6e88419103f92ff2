import Mathlib.Algebra.BigOperators.Group.List.Basic
import Mathlib.Algebra.BigOperators.Ring.List
import Mathlib.Data.List.Forall2
import Mathlib.Tactic.Ring
import NeuriploRuntime.Codec.InferenceRequest
import NeuriploRuntime.Fallible.Except

open neuriplo.tensor fallible stream

namespace neuriplo.codec

/-- A tensor as the metadata declares it: a dimension is free where the metadata
has a dynamic axis. -/
structure Fits (metadata : TensorMetadata) (tensor : InputTensor) : Prop where
  name : tensor.name = metadata.name
  datatype : tensor.datatype = metadata.datatype
  rank : tensor.shape.length = metadata.shape.length
  nonneg : ∀ dimension ∈ tensor.shape, 0 ≤ dimension
  dimensions : List.Forall₂ (fun dimension expected => 0 ≤ expected → dimension = expected)
    tensor.shape metadata.shape

def nodeDatatype (node : Json) : String := ((node.field "datatype").bind (·.asString)).getD ""

def nodeShape (node : Json) : List Int := ((node.field "shape").map parseShape).getD []

/-- The bytes of a tensor are what its shape asks for, unless it came as an empty
array. BYTES tensors have none. -/
def Sized (node : Json) (tensor : InputTensor) : Prop :=
  isBytesDatatype tensor.datatype = true ∨
    (binaryDataSize node < 0 ∧ inputData node = [] ∧ tensor.bytes = []) ∨
    (tensor.bytes.length : Int) = tensor.shape.prod * tensorElementSize tensor.datatype

/-- A binary payload is made of whole elements, and a shape with a zero extent
comes with an empty payload. -/
def WholeElements (node : Json) : Prop :=
  isBytesDatatype (nodeDatatype node) = true ∨
    (0 ≤ binaryDataSize node ∧ tensorElementSize (nodeDatatype node) ∣ (binaryDataSize node).toNat ∧
      (0 ∈ nodeShape node → binaryDataSize node = 0)) ∨
    (binaryDataSize node < 0 ∧ (0 ∈ nodeShape node → inputData node = []))

instance (node : Json) (tensor : InputTensor) : Decidable (Sized node tensor) :=
  inferInstanceAs (Decidable (_ ∨ _ ∨ _))

instance (node : Json) : Decidable (WholeElements node) := inferInstanceAs (Decidable (_ ∨ _ ∨ _))

/-- A dimension that matches is not negative, and the one expected if one is. -/
theorem dimensionMatches_spec {node : Json} {expected : Int} (hmatches : dimensionMatches node expected = true) :
    ∃ dimension, node.int64 = some dimension ∧ 0 ≤ dimension ∧ (0 ≤ expected → dimension = expected) := by
  unfold dimensionMatches at hmatches
  split at hmatches
  · cases hmatches
  · rename_i dimension hdimension
    simp only [Bool.and_eq_true, decide_eq_true_eq, Bool.not_eq_true', Bool.and_eq_false_iff,
      decide_eq_false_iff_not, not_not] at hmatches
    refine ⟨dimension, hdimension, hmatches.1, ?_⟩
    intro hexpected
    cases hmatches.2 with
    | inl hdynamic => exact absurd hexpected hdynamic
    | inr hequal => exact hequal

/-- Dimensions that match do so one by one. -/
theorem dimensions_match {nodes : List Json} {expected : List Int} (hlength : nodes.length = expected.length)
    (hmatches : (List.zipWith dimensionMatches nodes expected).all id = true) :
    (∀ dimension ∈ nodes.filterMap (·.int64), 0 ≤ dimension) ∧
      List.Forall₂ (fun dimension expected => 0 ≤ expected → dimension = expected)
        (nodes.filterMap (·.int64)) expected := by
  induction nodes generalizing expected with
  | nil =>
    have hnil : expected = [] := List.length_eq_zero_iff.mp hlength.symm
    subst hnil
    exact ⟨by simp, .nil⟩
  | cons node nodes ih =>
    cases expected with
    | nil => cases hlength
    | cons first expected =>
      simp only [List.zipWith_cons_cons, List.all_cons, id, Bool.and_eq_true] at hmatches
      obtain ⟨dimension, hdimension, hnonneg, hfirst⟩ := dimensionMatches_spec hmatches.1
      obtain ⟨hrest, hforall⟩ := ih (Nat.succ.inj hlength) hmatches.2
      rw [List.filterMap_cons_some hdimension]
      refine ⟨?_, .cons hfirst hforall⟩
      intro other hmem
      obtain rfl | hmem := List.mem_cons.mp hmem
      · exact hnonneg
      · exact hrest other hmem

/-- A shape that matches has the rank declared, and dimensions that match. -/
theorem shapeMatches_spec {shape : Json} {metadata : TensorMetadata} (hmatches : shapeMatches shape metadata = true) :
    (∀ dimension ∈ parseShape shape, 0 ≤ dimension) ∧
      List.Forall₂ (fun dimension expected => 0 ≤ expected → dimension = expected) (parseShape shape)
        metadata.shape := by
  unfold shapeMatches at hmatches
  split at hmatches
  · simp only [Bool.and_eq_true, decide_eq_true_eq] at hmatches
    exact dimensions_match hmatches.1 hmatches.2
  · cases hmatches

/-- Unless it overflows, the element count is the product of the shape. -/
theorem shapeElementCount_eq {shape : List Int} (hnonneg : ∀ dimension ∈ shape, 0 ≤ dimension) {count elements : Nat}
    (hcount : shapeElementCount count shape = some elements) : (elements : Int) = count * shape.prod := by
  induction shape generalizing count with
  | nil =>
    simp only [shapeElementCount, Option.some.injEq] at hcount
    simp [hcount]
  | cons dimension shape ih =>
    have hdimension := hnonneg dimension List.mem_cons_self
    simp only [shapeElementCount] at hcount
    split_ifs at hcount with hempty hoverflow
    · have hzero : dimension = 0 := by omega
      simp only [Option.some.injEq] at hcount
      simp [← hcount, hzero]
    · have hrest := ih (fun other hmem => hnonneg other (List.mem_cons_of_mem _ hmem)) hcount
      rw [hrest, List.prod_cons]
      push_cast
      rw [Int.toNat_of_nonneg hdimension]
      ring

theorem parseInputHeader_ok {input : Json} {header : InputHeader} (hheader : parseInputHeader input = .ok header) :
    nodeDatatype input = header.datatype ∧ nodeShape input = parseShape header.shape := by
  unfold parseInputHeader at hheader
  split at hheader
  · cases hheader
  · split at hheader
    · cases hheader
    · split at hheader
      · cases hheader
      · rename_i datatype hdatatype
        split at hheader
        · cases hheader
        · rename_i shape hshape
          split at hheader <;> cases hheader
          simp [nodeDatatype, nodeShape, hdatatype, hshape]

/-- What is found in the metadata has the name that was looked for. -/
theorem findTensor_some {tensors : List TensorMetadata} {name : String} {metadata : TensorMetadata}
    (hfind : findTensor tensors name = some metadata) : metadata ∈ tensors ∧ metadata.name = name := by
  unfold findTensor at hfind
  exact ⟨List.mem_of_find?_eq_some hfind, by simpa using List.find?_some hfind⟩

/-- An input that is admitted is not repeated, and fits what is declared. -/
theorem admitInput_ok {metadata : ModelMetadata} {seen_input_names : List String} {header : InputHeader}
    {expected_elements : Nat} (hadmission : admitInput metadata seen_input_names header = .ok expected_elements) :
    header.name ∉ seen_input_names ∧
      (∃ expected ∈ metadata.inputs, expected.name = header.name ∧ header.datatype = expected.datatype ∧
        shapeMatches header.shape expected = true) ∧
      shapeElementCount 1 (parseShape header.shape) = some expected_elements := by
  unfold admitInput at hadmission
  split at hadmission
  · cases hadmission
  · rename_i hseen
    split at hadmission
    · cases hadmission
    · rename_i expected hfind
      split at hadmission
      · cases hadmission
      · rename_i hdatatype
        split at hadmission
        · cases hadmission
        · rename_i hmatches
          split at hadmission <;> cases hadmission
          rename_i hcount
          obtain ⟨hmem, hname⟩ := findTensor_some hfind
          exact ⟨hseen, ⟨expected, hmem, hname, not_not.mp hdatatype, by simpa using hmatches⟩, hcount⟩

variable {lib : JsonLibrary}

/-- Elements are read at the size of their datatype. -/
theorem parseData_length {data : List Json} {datatype : String} {bytes : List UInt8}
    (hdata : parseData lib data datatype = some bytes) :
    tensorElementSize datatype ≠ 0 ∧ bytes.length = data.length * tensorElementSize datatype := by
  unfold parseData at hdata
  split_ifs at hdata with hunknown
  refine ⟨hunknown, ?_⟩
  obtain ⟨values, hvalues, rfl⟩ := Option.map_eq_some_iff.mp hdata
  have hlength : values.length = data.length := by
    clear hdata
    induction data generalizing values with
    | nil =>
      simp only [List.mapM_nil] at hvalues
      cases hvalues
      rfl
    | cons node data ih =>
      rw [List.mapM_cons] at hvalues
      obtain ⟨value, -, hrest⟩ := Option.bind_eq_some_iff.mp hvalues
      obtain ⟨rest, hmap, hpure⟩ := Option.bind_eq_some_iff.mp hrest
      cases hpure
      rw [List.length_cons, List.length_cons, ih rest hmap]
  rw [lib.length_typedReals, List.length_map, hlength]

/-- A slice of the blob has the size that was asked for. -/
theorem sliceBlob_length {blob bytes : List UInt8} {offset size : Nat}
    (hslice : sliceBlob blob offset size = .ok bytes) :
    bytes.length = size := by
  unfold sliceBlob at hslice
  split_ifs at hslice with hexceeds
  cases hslice
  simp only [List.length_take, List.length_drop]
  omega

/-- Where a decoded input comes from decides its name, datatype and shape; its
bytes are sized exactly when its payload is made of whole elements. -/
theorem decodeInput_ok {header : InputHeader} {input : Json} {expected_elements binary_offset next_offset : Nat}
    {binary_blob : List UInt8} {tensor : InputTensor}
    (hheader : nodeDatatype input = header.datatype ∧ nodeShape input = parseShape header.shape)
    (hexpected : (expected_elements : Int) = (parseShape header.shape).prod)
    (hdecode : decodeInput lib header input expected_elements binary_blob binary_offset = .ok (tensor, next_offset)) :
    (tensor.name = header.name ∧ tensor.datatype = header.datatype ∧ tensor.shape = parseShape header.shape) ∧
      (Sized input tensor ↔ WholeElements input) := by
  obtain ⟨hdatatype, hshape⟩ := hheader
  have hzero : expected_elements = 0 ↔ 0 ∈ parseShape header.shape := by
    rw [← List.prod_eq_zero_iff, ← hexpected]
    omega
  unfold decodeInput at hdecode
  simp only at hdecode
  split at hdecode
  · rename_i hbytes
    split at hdecode
    · cases hdecode
    · split at hdecode
      · cases hdecode
      · split at hdecode <;> cases hdecode
        refine ⟨⟨rfl, rfl, rfl⟩, ?_⟩
        exact iff_of_true (.inl hbytes) (.inl (by rw [hdatatype]; exact hbytes))
  · rename_i hbytes
    split at hdecode
    · rename_i hbinary
      split at hdecode
      · cases hdecode
      · rename_i bytes hslice
        have hlength := sliceBlob_length hslice
        split at hdecode <;> cases hdecode
        rename_i haccepted
        refine ⟨⟨rfl, rfl, rfl⟩, ?_⟩
        have hnot : ¬ binaryDataSize input < 0 := by omega
        simp only [Sized, WholeElements, hdatatype, hshape, hbytes, hnot, hbinary, false_and, false_or, or_false,
          Bool.false_eq_true, true_and]
        rw [← hexpected, ← hzero, hlength]
        simp only [tensorElementCount, hlength] at haccepted
        have hsize : ((binaryDataSize input).toNat : Int) = binaryDataSize input := Int.toNat_of_nonneg hbinary
        have hempty : binaryDataSize input = 0 ↔ (binaryDataSize input).toNat = 0 := by omega
        rw [hempty]
        generalize (binaryDataSize input).toNat = size at haccepted
        norm_cast
        by_cases helements : expected_elements = 0
        · subst helements
          constructor
          · intro hnone
            rw [Nat.zero_mul] at hnone
            exact ⟨by rw [hnone]; exact dvd_zero _, fun _ => hnone⟩
          · rintro ⟨-, hnone⟩
            rw [hnone rfl, Nat.zero_mul]
        · push Not at haccepted
          have hcount := haccepted helements
          split_ifs at hcount with hunknown
          · exact absurd hcount.symm helements
          · constructor
            · intro hwhole
              exact ⟨⟨expected_elements, by rw [hwhole, Nat.mul_comm]⟩, fun hnone => absurd hnone helements⟩
            · rintro ⟨hdvd, -⟩
              rw [← hcount, Nat.div_mul_cancel hdvd]
    · rename_i hbinary
      split at hdecode
      · cases hdecode
      · rename_i bytes hdata
        obtain ⟨hknown, hlength⟩ := parseData_length hdata
        split at hdecode <;> cases hdecode
        rename_i haccepted
        refine ⟨⟨rfl, rfl, rfl⟩, ?_⟩
        have hnegative : binaryDataSize input < 0 := by omega
        have hnone : bytes = [] ↔ inputData input = [] := by
          rw [← List.length_eq_zero_iff, hlength, Nat.mul_eq_zero, List.length_eq_zero_iff]
          simp [hknown]
        simp only [Sized, WholeElements, hdatatype, hshape, hbytes, hnegative, hbinary, false_and, false_or,
          Bool.false_eq_true, true_and]
        rw [← hexpected, ← hzero, hlength, ← hnone]
        simp only [tensorElementCount, hlength, hknown, if_false,
          Nat.mul_div_cancel _ (Nat.pos_of_ne_zero hknown)] at haccepted
        norm_cast
        by_cases hempty : bytes = []
        · simp [hempty]
        · have hdataNonempty : (inputData input).length ≠ 0 := by
            rw [ne_eq, List.length_eq_zero_iff, ← hnone]
            exact hempty
          by_cases helements : expected_elements = 0
          · simp [hempty, helements, hknown, List.length_eq_zero_iff, ← hnone]
          · push Not at haccepted
            simp [helements, haccepted hempty helements]

/-- An input that is accepted is admitted, and sized exactly when it brings
whole elements. -/
theorem parseInput_ok {metadata : ModelMetadata} {binary_blob : List UInt8} {seen_input_names : List String}
    {binary_offset next_offset : Nat} {input : Json} {tensor : InputTensor}
    (hparse : parseInput lib metadata binary_blob seen_input_names binary_offset input = .ok (tensor, next_offset)) :
    tensor.name ∉ seen_input_names ∧ (∃ expected ∈ metadata.inputs, Fits expected tensor) ∧
      (Sized input tensor ↔ WholeElements input) := by
  unfold parseInput at hparse
  split at hparse
  · cases hparse
  · rename_i header hheader
    split at hparse
    · cases hparse
    · rename_i expected_elements hadmission
      obtain ⟨hseen, ⟨expected, hmem, hname, hdatatype, hmatches⟩, hcount⟩ := admitInput_ok hadmission
      obtain ⟨hnonneg, hdimensions⟩ := shapeMatches_spec hmatches
      have helements := shapeElementCount_eq hnonneg hcount
      rw [Nat.cast_one, one_mul] at helements
      obtain ⟨⟨htensorName, htensorDatatype, htensorShape⟩, hsized⟩ :=
        decodeInput_ok (parseInputHeader_ok hheader) helements hparse
      refine ⟨by rw [htensorName]; exact hseen, ⟨expected, hmem, ?_⟩, hsized⟩
      constructor
      · rw [htensorName, hname]
      · rw [htensorDatatype, hdatatype]
      · rw [htensorShape]
        exact hdimensions.length_eq
      · rw [htensorShape]
        exact hnonneg
      · rw [htensorShape]
        exact hdimensions

/-- Inputs are accepted one after the other. -/
theorem parseInputs_cons {metadata : ModelMetadata} {binary_blob : List UInt8} {seen_input_names : List String}
    {binary_offset end_offset : Nat} {input : Json} {inputs : List Json} {tensors : List InputTensor}
    (hparse : parseInputs lib metadata binary_blob seen_input_names binary_offset (input :: inputs) =
      .ok (tensors, end_offset)) :
    ∃ tensor next_offset rest,
      parseInput lib metadata binary_blob seen_input_names binary_offset input = .ok (tensor, next_offset) ∧
        parseInputs lib metadata binary_blob (seen_input_names ++ [tensor.name]) next_offset inputs =
          .ok (rest, end_offset) ∧ tensors = tensor :: rest := by
  simp only [parseInputs] at hparse
  split at hparse
  · cases hparse
  · rename_i tensor next_offset hinput
    split at hparse
    · cases hparse
    · rename_i rest last_offset hrest
      cases hparse
      exact ⟨tensor, next_offset, rest, hinput, hrest, rfl⟩

/-- Inputs that are accepted are admitted, and sized exactly when they bring
whole elements. -/
theorem parseInputs_ok {metadata : ModelMetadata} {binary_blob : List UInt8} {seen_input_names : List String}
    {binary_offset end_offset : Nat} {inputs : List Json} {tensors : List InputTensor}
    (hparse : parseInputs lib metadata binary_blob seen_input_names binary_offset inputs = .ok (tensors, end_offset)) :
    (tensors.map (·.name)).Nodup ∧ (∀ tensor ∈ tensors, tensor.name ∉ seen_input_names) ∧
      (∀ tensor ∈ tensors, ∃ expected ∈ metadata.inputs, Fits expected tensor) ∧
      (List.Forall₂ Sized inputs tensors ↔ ∀ input ∈ inputs, WholeElements input) := by
  induction inputs generalizing seen_input_names binary_offset tensors with
  | nil =>
    simp only [parseInputs, Except.ok.injEq, Prod.mk.injEq] at hparse
    obtain ⟨rfl, -⟩ := hparse
    simp
  | cons input inputs ih =>
    obtain ⟨tensor, next_offset, rest, hinput, hrest, rfl⟩ := parseInputs_cons hparse
    obtain ⟨hseen, hfits, hsized⟩ := parseInput_ok hinput
    obtain ⟨hnodup, hfresh, hfitsRest, hsizedRest⟩ := ih hrest
    have hname : ∀ other ∈ rest, other.name ∉ seen_input_names ∧ other.name ≠ tensor.name := by
      intro other hmem
      have hother := hfresh other hmem
      rw [List.mem_append, not_or, List.mem_singleton] at hother
      exact hother
    refine ⟨?_, ?_, ?_, ?_⟩
    · rw [List.map_cons, List.nodup_cons]
      refine ⟨?_, hnodup⟩
      intro hmem
      obtain ⟨other, hother, hequal⟩ := List.mem_map.mp hmem
      exact (hname other hother).2 hequal
    · exact List.forall_mem_cons.mpr ⟨hseen, fun other hmem => (hname other hmem).1⟩
    · exact List.forall_mem_cons.mpr ⟨hfits, hfitsRest⟩
    · rw [List.forall₂_cons, List.forall_mem_cons, hsized, hsizedRest]

/-- Only BYTES tensors have strings. -/
theorem parseInput_strings {metadata : ModelMetadata} {binary_blob : List UInt8} {seen_input_names : List String}
    {binary_offset next_offset : Nat} {input : Json} {tensor : InputTensor}
    (hparse : parseInput lib metadata binary_blob seen_input_names binary_offset input = .ok (tensor, next_offset))
    (hbytes : isBytesDatatype tensor.datatype = false) : tensor.string_data = [] := by
  unfold parseInput at hparse
  split at hparse
  · cases hparse
  · split at hparse
    · cases hparse
    · unfold decodeInput at hparse
      simp only at hparse
      split at hparse
      · rename_i hstrings
        split at hparse
        · cases hparse
        · split at hparse
          · cases hparse
          · split at hparse <;> cases hparse
            simp [hstrings] at hbytes
      · split at hparse
        · split at hparse
          · cases hparse
          · split at hparse <;> cases hparse
            rfl
        · split at hparse
          · cases hparse
          · split at hparse <;> cases hparse
            rfl

/-- Only BYTES inputs bring texts. -/
theorem parseInputs_strings {metadata : ModelMetadata} {binary_blob : List UInt8} {seen_input_names : List String}
    {binary_offset end_offset : Nat} {inputs : List Json} {tensors : List InputTensor}
    (hparse : parseInputs lib metadata binary_blob seen_input_names binary_offset inputs = .ok (tensors, end_offset)) :
    tensors.length = inputs.length ∧
      ∀ tensor ∈ tensors, isBytesDatatype tensor.datatype = false → tensor.string_data = [] := by
  induction inputs generalizing seen_input_names binary_offset tensors with
  | nil =>
    simp only [parseInputs, Except.ok.injEq, Prod.mk.injEq] at hparse
    obtain ⟨rfl, -⟩ := hparse
    simp
  | cons input inputs ih =>
    obtain ⟨tensor, next_offset, rest, hinput, hrest, rfl⟩ := parseInputs_cons hparse
    obtain ⟨hlength, hstrings⟩ := ih hrest
    refine ⟨by rw [List.length_cons, List.length_cons, hlength], ?_⟩
    exact List.forall_mem_cons.mpr ⟨parseInput_strings hinput, hstrings⟩

theorem parseOutput_ok {metadata : ModelMetadata} {output : Json} {name : String}
    (hparse : parseOutput metadata output = .ok name) : name ∈ metadata.outputs.map (·.name) := by
  unfold parseOutput at hparse
  split at hparse
  · cases hparse
  · split at hparse
    · cases hparse
    · split at hparse <;> cases hparse
      rename_i hknown
      obtain ⟨tensor, hfind⟩ := Option.ne_none_iff_exists'.mp (mt Option.isNone_iff_eq_none.mpr hknown)
      obtain ⟨hmem, rfl⟩ := findTensor_some hfind
      exact List.mem_map_of_mem hmem

/-- Outputs that are requested are outputs of the model. -/
theorem parseOutputs_ok {metadata : ModelMetadata} {root : Json} {requested_outputs : List String}
    (hparse : parseOutputs metadata root = .ok requested_outputs) :
    ∀ name ∈ requested_outputs, name ∈ metadata.outputs.map (·.name) := by
  unfold parseOutputs at hparse
  split at hparse
  · cases hparse
    intro name hmem
    exact hmem
  · rename_i outputs _
    clear * - hparse
    induction outputs generalizing requested_outputs with
    | nil =>
      rw [List.mapM_nil] at hparse
      cases hparse
      simp
    | cons output outputs ih =>
      rw [List.mapM_cons] at hparse
      obtain ⟨first, hfirst, hnext⟩ := bind_ok hparse
      obtain ⟨rest, hrest, hpure⟩ := bind_ok hnext
      cases hpure
      exact List.forall_mem_cons.mpr ⟨parseOutput_ok hfirst, ih hrest⟩
  · cases hparse

theorem parseRest_ok {metadata : ModelMetadata} {root : Json} {id : Option String} {inputs : List InputTensor}
    {request : InferenceRequest} (hparse : parseRest lib metadata root id inputs = .ok request) :
    request.inputs = inputs ∧ parseOutputs metadata root = .ok request.requested_outputs := by
  unfold parseRest at hparse
  split at hparse
  · cases hparse
  · rename_i requested_outputs houtputs
    split at hparse
    · cases hparse
      exact ⟨rfl, houtputs⟩
    · split at hparse <;> cases hparse
      exact ⟨rfl, houtputs⟩

/-- What is known of a request that is accepted. -/
theorem parseRoot_ok {metadata : ModelMetadata} {binary_blob : List UInt8} {root : Json} {request : InferenceRequest}
    (hparse : parseRoot lib metadata binary_blob root = .ok request) :
    ∃ nodes, (root.field "inputs").bind (·.asArray) = some nodes ∧ nodes ≠ [] ∧
      parseInputs lib metadata binary_blob [] 0 nodes = .ok (request.inputs, binary_blob.length) ∧
      (∀ expected ∈ metadata.inputs, expected.name ∈ request.inputs.map (·.name)) ∧
      parseOutputs metadata root = .ok request.requested_outputs := by
  unfold parseRoot at hparse
  split at hparse
  · cases hparse
  · split at hparse
    · cases hparse
    · split at hparse
      · cases hparse
      · cases hparse
      · rename_i nodes hnonempty hnodes
        split at hparse
        · cases hparse
        · rename_i inputs binary_offset hinputs
          split at hparse
          · cases hparse
          · rename_i hconsumed
            split at hparse
            · cases hparse
            · rename_i hpresent
              obtain ⟨rfl, houtputs⟩ := parseRest_ok hparse
              rw [ne_eq, not_not] at hconsumed
              subst hconsumed
              refine ⟨nodes, hnodes, hnonempty, hinputs, ?_, houtputs⟩
              intro expected hmem
              have hfound := List.find?_eq_none.mp hpresent expected hmem
              rw [decide_eq_true_eq, not_not] at hfound
              exact hfound

/-- The inputs of an accepted request: there are some, no two under one name. -/
theorem parseInferenceRequest_inputs {body : List UInt8} {metadata : ModelMetadata} {header_length : Nat}
    {request : InferenceRequest} (hparse : parseInferenceRequest lib body metadata header_length = .ok request) :
    request.inputs ≠ [] ∧ (request.inputs.map (·.name)).Nodup ∧
      ∀ tensor ∈ request.inputs, isBytesDatatype tensor.datatype = false → tensor.string_data = [] := by
  unfold parseInferenceRequest at hparse
  split at hparse
  · cases hparse
  · split at hparse
    · cases hparse
    · obtain ⟨nodes, -, hnonempty, hinputs, -⟩ := parseRoot_ok hparse
      obtain ⟨hlength, hstrings⟩ := parseInputs_strings hinputs
      refine ⟨?_, (parseInputs_ok hinputs).1, hstrings⟩
      intro hnone
      rw [hnone, List.length_nil] at hlength
      exact hnonempty (List.length_eq_zero_iff.mp hlength.symm)

/-- The input nodes of the JSON part of a body. -/
def inputNodes (lib : JsonLibrary) (body : List UInt8) (header_length : Nat) : List Json :=
  ((lib.parse (body.take header_length)).bind fun root => (root.field "inputs").bind (·.asArray)).getD []

/-- An accepted request against the metadata it was accepted for. -/
structure Admitted (metadata : ModelMetadata) (nodes : List Json) (request : InferenceRequest) : Prop where
  names : (request.inputs.map (·.name)).Perm (metadata.inputs.map (·.name))
  fits : ∀ tensor ∈ request.inputs, ∃ expected ∈ metadata.inputs, Fits expected tensor
  outputs : ∀ name ∈ request.requested_outputs, name ∈ metadata.outputs.map (·.name)
  sized : List.Forall₂ Sized nodes request.inputs

/-- The names, datatypes, shapes and outputs of an accepted request always agree
with the metadata. Its buffers are of the size their shapes ask for exactly when
the payload of each input is made of whole elements, and of none where the shape
has a zero extent: the count compared with the shape's is rounded down, and is
not compared with a zero one. -/
theorem admitted_iff_wholeElements {body : List UInt8} {metadata : ModelMetadata} {header_length : Nat}
    {request : InferenceRequest} (hnames : (metadata.inputs.map (·.name)).Nodup)
    (hparse : parseInferenceRequest lib body metadata header_length = .ok request) :
    Admitted metadata (inputNodes lib body header_length) request ↔
      ∀ node ∈ inputNodes lib body header_length, WholeElements node := by
  unfold parseInferenceRequest at hparse
  split at hparse
  · cases hparse
  · split at hparse
    · cases hparse
    · rename_i root hroot
      obtain ⟨nodes, hnodes, -, hinputs, hpresent, houtputs⟩ := parseRoot_ok hparse
      have hinputNodes : inputNodes lib body header_length = nodes := by simp [inputNodes, hroot, hnodes]
      obtain ⟨hnodup, -, hfits, hsized⟩ := parseInputs_ok hinputs
      rw [hinputNodes, ← hsized]
      constructor
      · intro hadmitted
        exact hadmitted.sized
      · intro hforall
        refine ⟨?_, hfits, parseOutputs_ok houtputs, hforall⟩
        refine (List.perm_ext_iff_of_nodup hnodup hnames).mpr ?_
        intro name
        simp only [List.mem_map]
        constructor
        · rintro ⟨tensor, hmem, rfl⟩
          obtain ⟨expected, hexpected, hfit⟩ := hfits tensor hmem
          exact ⟨expected, hexpected, hfit.name.symm⟩
        · rintro ⟨expected, hmem, rfl⟩
          exact List.mem_map.mp (hpresent expected hmem)

/-- One FP32 input of shape [1,3]. -/
def pointMetadata : ModelMetadata where
  inputs := [{ name := "point", datatype := "FP32", shape := [1, 3] }]
  outputs := [{ name := "label", datatype := "FP32", shape := [1, 1] }]

/-- A request for it with a binary payload of `size` bytes. -/
def pointRoot (size : Nat) : Json :=
  .object [("inputs", .array [.object [("name", .string "point"), ("datatype", .string "FP32"),
    ("shape", .array [.number (.unsigned 1), .number (.unsigned 3)]),
    ("parameters", .object [("binary_data_size", .number (.unsigned size))])]])]

def pointHeader (size : String) : String :=
  "\x7b\"inputs\":[\x7b\"name\":\"point\",\"datatype\":\"FP32\",\"shape\":[1,3]," ++
    "\"parameters\":\x7b\"binary_data_size\":" ++ size ++ "\x7d\x7d]\x7d"

def pointLibrary (size : Nat) : JsonLibrary := .onText (pointHeader (toString size)) (pointRoot size)

def pointBody (size : Nat) : List UInt8 := octets (pointHeader (toString size)) ++ List.replicate size 0

def pointRequest (size : Nat) : InferenceRequest where
  inputs := [{ name := "point", datatype := "FP32", shape := [1, 3], bytes := List.replicate size 0 }]
  requested_outputs := ["label"]

/-- A request of one FP32 point. -/
theorem admitted_iff_wholeElements_point :
    Admitted pointMetadata (inputNodes (pointLibrary 12) (pointBody 12) 98) (pointRequest 12) := by
  have haccepted : parseInferenceRequest (pointLibrary 12) (pointBody 12) pointMetadata 98 = .ok (pointRequest 12) := by
    decide +kernel
  refine (admitted_iff_wholeElements (by decide) haccepted).mpr ?_
  decide +kernel

/-- Thirteen bytes for three elements of four. -/
theorem raggedPoint_accepted :
    parseInferenceRequest (pointLibrary 13) (pointBody 13) pointMetadata 98 = .ok (pointRequest 13) ∧
      ¬ Admitted pointMetadata (inputNodes (pointLibrary 13) (pointBody 13) 98) (pointRequest 13) := by
  refine ⟨by decide +kernel, ?_⟩
  intro hadmitted
  have hsized : ¬ List.Forall₂ Sized (inputNodes (pointLibrary 13) (pointBody 13) 98) (pointRequest 13).inputs := by
    decide +kernel
  exact hsized hadmitted.sized

end neuriplo.codec
