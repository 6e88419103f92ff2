import NeuriploRuntime.Codec.Acceptance
import NeuriploRuntime.Executor.Parameters
import NeuriploRuntime.Keyed.Find

open neuriplo.codec neuriplo.tensor fallible

namespace neuriplo.executor

/-- All that the metadata asks of an input apart from its data. -/
structure InputFits (metadata : ModelMetadata) (input : InputTensor) : Prop where
  declared : ∃ expected ∈ metadata.inputs, expected.name = input.name ∧ input.datatype = expected.datatype ∧
    ShapeFits input.shape expected.shape
  fixedSize : 0 < tensorElementSize input.datatype

structure Fits (metadata : ModelMetadata) (request : ExecutionRequest) : Prop where
  names : (request.inputs.map (·.name)).Perm (metadata.inputs.map (·.name))
  inputs : ∀ input ∈ request.inputs, InputFits metadata input

/-- Exactly the bytes of the elements of the shape, whose number fits in a `size_t`. -/
structure ExactLength (input : InputTensor) : Prop where
  extent : input.shape.prod < 2 ^ 64
  bytes : (input.bytes.length : Int) = input.shape.prod * tensorElementSize input.datatype

/-- No product of leading dimensions is too large for a `size_t`. -/
def NeverOverflows (shape : List Int) : Prop := ∀ leading, (shape.take leading).prod < 2 ^ 64

/-- As many whole elements as the shape has, counted without an overflow on the way. -/
structure CountedLength (input : InputTensor) : Prop where
  running : NeverOverflows input.shape
  elements : (tensorElementCount input.datatype input.bytes : Int) = input.shape.prod

/-- What a request must be for its inputs to be taken. -/
structure Conforms (metadata : ModelMetadata) (request : ExecutionRequest) : Prop extends
    Fits metadata request where
  lengths : ∀ input ∈ request.inputs, ExactLength input

/-- The gate in front of the backend: exactly the requests that conform pass, their inputs come out in
the order of the metadata, and the others are invalid arguments. -/
structure Gate (metadata : ModelMetadata) (request : ExecutionRequest) : Prop where
  passes : (∃ inputs, orderedInputs metadata request = .ok inputs) ↔ Conforms metadata request
  order : ∀ inputs, orderedInputs metadata request = .ok inputs →
    inputs.Perm request.inputs ∧ inputs.map (·.name) = metadata.inputs.map (·.name)
  refuses : ∀ response, orderedInputs metadata request = .error response →
    response.ok = false ∧ response.error_code = "INVALID_ARGUMENT"

/-- A request that fits in all but its data has no bytes behind the last whole element of an input, if its
elements are as many as its shapes say, and no dimensions in front of a zero whose product overflows, if
its bytes are. -/
structure LengthsTell (metadata : ModelMetadata) (request : ExecutionRequest) : Prop where
  whole : Fits metadata request → (∀ input ∈ request.inputs, CountedLength input) →
    ∀ input ∈ request.inputs, tensorElementSize input.datatype ∣ input.bytes.length
  running : Fits metadata request → (∀ input ∈ request.inputs, ExactLength input) →
    ∀ input ∈ request.inputs, NeverOverflows input.shape

/-- A datatype is supported exactly when its elements have a size. -/
theorem isSupportedInputDatatype_iff (datatype : String) :
    isSupportedInputDatatype datatype = true ↔ 0 < tensorElementSize datatype := by
  unfold isSupportedInputDatatype tensorElementSize
  constructor
  · intro hsupported
    simp only [List.mem_cons, List.not_mem_nil, or_false, decide_eq_true_eq] at hsupported
    rcases hsupported with h | h | h | h | h | h | h | h | h | h | h | h <;> subst h <;> decide
  · intro hsize
    simp only [List.mem_cons, List.not_mem_nil, or_false, decide_eq_true_eq]
    split_ifs at hsize <;> simp_all <;> tauto

/-- A shape is accepted exactly when it fits the one declared. -/
theorem shapeAccepts_iff (shape expected : List Int) :
    shapeAccepts shape expected = true ↔ ShapeFits shape expected := by
  unfold ShapeFits
  induction shape generalizing expected with
  | nil => cases expected <;> simp [shapeAccepts]
  | cons dimension shape ih =>
    cases expected with
    | nil => simp [shapeAccepts]
    | cons extent expected =>
      rw [List.forall₂_cons, ← ih expected]
      simp only [shapeAccepts, List.length_cons, Nat.add_right_cancel_iff, List.zipWith_cons_cons, List.all_cons,
        Bool.and_eq_true, decide_eq_true_eq, id, Bool.not_eq_true', Bool.or_eq_false_iff, decide_eq_false_iff_not,
        Bool.and_eq_false_iff]
      have hdimension : (¬dimension < 0 ∧ (¬0 ≤ extent ∨ ¬dimension ≠ extent)) ↔
          (0 ≤ dimension ∧ (0 ≤ extent → dimension = extent)) := by omega
      tauto

/-- The overflow guard of the element count. -/
private theorem guard_iff {count : Nat} {dimension : Int} (hnonneg : 0 ≤ dimension) :
    (dimension ≠ 0 && (2 ^ 64 - 1) / dimension.toNat < count) = true ↔ 2 ^ 64 ≤ count * dimension.toNat := by
  by_cases hzero : dimension = 0
  · simp [hzero]
  · have hpositive : 0 < dimension.toNat := by omega
    simp only [hzero, ne_eq, not_false_eq_true, decide_true, Bool.true_and, decide_eq_true_eq,
      Nat.div_lt_iff_lt_mul hpositive]
    omega

/-- Elements are counted exactly when no product of leading dimensions
overflows. -/
theorem elementCount_eq_some_iff {shape : List Int} (hnonneg : ∀ dimension ∈ shape, 0 ≤ dimension)
    {count elements : Nat} (hcount : count < 2 ^ 64) :
    elementCount count shape = some elements ↔
      (∀ leading, count * (shape.take leading).prod < 2 ^ 64) ∧ (elements : Int) = count * shape.prod := by
  induction shape generalizing count with
  | nil =>
    have hlow : (count : Int) < 2 ^ 64 := by exact_mod_cast hcount
    simp only [elementCount, Option.some.injEq, List.take_nil, List.prod_nil, mul_one, hlow, implies_true, true_and]
    omega
  | cons dimension shape ih =>
    have hdimension : 0 ≤ dimension := hnonneg dimension List.mem_cons_self
    have hcast : ((count * dimension.toNat : Nat) : Int) = count * dimension := by
      rw [Nat.cast_mul, Int.toNat_of_nonneg hdimension]
    rw [elementCount, if_neg (by omega)]
    by_cases hguard : 2 ^ 64 ≤ count * dimension.toNat
    · rw [if_pos ((guard_iff hdimension).mpr hguard)]
      have hoverflow : ¬∀ leading, (count : Int) * ((dimension :: shape).take leading).prod < 2 ^ 64 := by
        intro h
        have hfirst := h 1
        simp only [List.take_succ_cons, List.take_zero, List.prod_cons, List.prod_nil, mul_one, ← hcast] at hfirst
        omega
      exact iff_of_false nofun fun h => hoverflow h.1
    · rw [if_neg (mt (guard_iff hdimension).mp hguard),
        ih (fun other hmem => hnonneg other (List.mem_cons_of_mem _ hmem)) (by omega), hcast, List.prod_cons, mul_assoc]
      refine and_congr_left fun _ => ?_
      constructor
      · intro h leading
        cases leading with
        | zero => simpa using (by exact_mod_cast hcount : (count : Int) < 2 ^ 64)
        | succ leading => simpa [mul_assoc] using h leading
      · intro h leading
        simpa [mul_assoc] using h (leading + 1)

/-- The counted elements are those of the bytes exactly when the product of the
shape is. -/
theorem countedLength_iff {input : InputTensor} (hnonneg : ∀ dimension ∈ input.shape, 0 ≤ dimension) :
    elementCount 1 input.shape = some (tensorElementCount input.datatype input.bytes) ↔ CountedLength input := by
  rw [elementCount_eq_some_iff hnonneg (by norm_num)]
  simp only [Nat.cast_one, one_mul]
  exact ⟨fun h => ⟨h.1, h.2⟩, fun h => ⟨h.running, h.elements⟩⟩

/-- What the loop checks of one input, besides that its name is new. -/
theorem inputError_eq_none_iff {metadata : ModelMetadata} (hdistinct : (metadata.inputs.map (·.name)).Nodup)
    {seen_input_names : List String} {input : InputTensor} :
    inputError metadata seen_input_names input = none ↔
      input.name ∉ seen_input_names ∧ InputFits metadata input ∧ CountedLength input := by
  have hnonneg {expected : List Int} (hshape : ShapeFits input.shape expected) :
      ∀ dimension ∈ input.shape, 0 ≤ dimension := ((List.forall₂_and_left _ _).mp hshape).1
  unfold inputError findMetadataInput
  constructor
  · intro hnone
    split at hnone
    · cases hnone
    rename_i hseen
    cases hfind : metadata.inputs.find? (·.name = input.name) with
    | none =>
      rw [hfind] at hnone
      cases hnone
    | some expected =>
      obtain ⟨hmem, hname⟩ := keyed.mem_of_find? hfind
      rw [hfind] at hnone
      dsimp only at hnone
      split_ifs at hnone with hdatatype hshape hsupported hcount
      simp only [Bool.not_eq_true', Bool.not_eq_false, ne_eq, not_not] at hdatatype hshape hsupported hcount
      have hfits := (shapeAccepts_iff input.shape expected.shape).mp hshape
      exact ⟨hseen, ⟨⟨expected, hmem, hname, hdatatype, hfits⟩, (isSupportedInputDatatype_iff _).mp hsupported⟩,
        (countedLength_iff (hnonneg hfits)).mp hcount⟩
  · rintro ⟨hseen, ⟨⟨expected, hmem, hname, hdatatype, hshape⟩, hfixed⟩, hcounted⟩
    have hfind : metadata.inputs.find? (·.name = input.name) = some expected :=
      (keyed.find?_eq_some_iff hdistinct).mpr ⟨hmem, hname⟩
    rw [if_neg hseen, hfind]
    simp [hdatatype, (shapeAccepts_iff _ _).mpr hshape, (countedLength_iff (hnonneg hshape)).mpr hcounted,
      hdatatype ▸ (isSupportedInputDatatype_iff _).mpr hfixed]

/-- Inputs pass exactly when none is repeated and each fits what the model
declares. -/
theorem inputsError_eq_none_iff {metadata : ModelMetadata} (hdistinct : (metadata.inputs.map (·.name)).Nodup)
    {seen_input_names : List String} {inputs : List InputTensor} :
    inputsError metadata seen_input_names inputs = none ↔
      (inputs.map (·.name)).Nodup ∧ (∀ input ∈ inputs, input.name ∉ seen_input_names) ∧
        ∀ input ∈ inputs, InputFits metadata input ∧ CountedLength input := by
  induction inputs generalizing seen_input_names with
  | nil => simp [inputsError]
  | cons input inputs ih =>
    have hhead := @inputError_eq_none_iff _ hdistinct seen_input_names input
    rw [inputsError]
    cases herror : inputError metadata seen_input_names input with
    | some error =>
      rw [herror] at hhead
      refine iff_of_false nofun fun ⟨_, hseen, hinputs⟩ => ?_
      cases hhead.mpr ⟨hseen input List.mem_cons_self, hinputs input List.mem_cons_self⟩
    | none =>
      obtain ⟨hseen, hfits⟩ := hhead.mp herror
      dsimp only
      rw [ih, List.map_cons, List.nodup_cons]
      simp only [List.mem_append, List.mem_singleton, not_or, List.forall_mem_cons, List.mem_map, not_exists, not_and]
      constructor
      · rintro ⟨hnodup, hnew, hrest⟩
        exact ⟨⟨fun other hmem => (hnew other hmem).2, hnodup⟩, ⟨hseen, fun other hmem => (hnew other hmem).1⟩,
          hfits, hrest⟩
      · rintro ⟨⟨hnew, hnodup⟩, ⟨_, hold⟩, _, hrest⟩
        exact ⟨hnodup, fun other hmem => ⟨hold other hmem, hnew other hmem⟩, hrest⟩

section Gate

variable {metadata : ModelMetadata} {request : ExecutionRequest}

/-- Inputs that pass are put in the order of the metadata. -/
theorem orderedInputs_ok (hdistinct : (metadata.inputs.map (·.name)).Nodup) {inputs : List InputTensor}
    (hok : orderedInputs metadata request = .ok inputs) :
    Fits metadata request ∧ (∀ input ∈ request.inputs, CountedLength input) ∧
      inputs.Perm request.inputs ∧ inputs.map (·.name) = metadata.inputs.map (·.name) := by
  unfold orderedInputs at hok
  cases herror : inputsError metadata [] request.inputs with
  | some error =>
    rw [herror] at hok
    cases hok
  | none =>
    rw [herror] at hok
    obtain ⟨hnames, -, hinputs⟩ := (inputsError_eq_none_iff hdistinct).mp herror
    have hfound : List.Forall₂ (fun (expected : TensorMetadata) input =>
        request.inputs.find? (·.name = expected.name) = some input) metadata.inputs inputs := by
      refine (mapM_inv hok).imp fun expected input hinput => ?_
      unfold findInput at hinput
      split at hinput <;> cases hinput
      assumption
    have hmap := keyed.map_key_of_found hfound
    have hperm : (request.inputs.map (·.name)).Perm (metadata.inputs.map (·.name)) := by
      refine (List.perm_ext_iff_of_nodup hnames hdistinct).mpr fun name => ⟨fun hname => ?_, fun hname => ?_⟩
      · obtain ⟨input, hmem, rfl⟩ := List.mem_map.mp hname
        obtain ⟨expected, hexpected, hsame, _⟩ := (hinputs input hmem).1.declared
        exact hsame ▸ List.mem_map_of_mem hexpected
      · rw [← hmap] at hname
        obtain ⟨input, hmem, rfl⟩ := List.mem_map.mp hname
        exact List.mem_map_of_mem (keyed.mem_of_found hfound hmem)
    exact ⟨⟨hperm, fun input hmem => (hinputs input hmem).1⟩, fun input hmem => (hinputs input hmem).2,
      keyed.perm_of_found hfound hnames hperm, hmap⟩

/-- The gate lets through what fits and has as many whole elements as its shapes say. -/
theorem orderedInputs_passes_iff (hdistinct : (metadata.inputs.map (·.name)).Nodup) :
    (∃ inputs, orderedInputs metadata request = .ok inputs) ↔
      Fits metadata request ∧ ∀ input ∈ request.inputs, CountedLength input := by
  constructor
  · rintro ⟨inputs, hok⟩
    obtain ⟨hfits, hcounted, -⟩ := orderedInputs_ok hdistinct hok
    exact ⟨hfits, hcounted⟩
  · rintro ⟨hfits, hcounted⟩
    have hnone : inputsError metadata [] request.inputs = none :=
      (inputsError_eq_none_iff hdistinct).mpr ⟨hfits.names.nodup_iff.mpr hdistinct, by simp,
        fun input hmem => ⟨hfits.inputs input hmem, hcounted input hmem⟩⟩
    have hfind : ∀ expected ∈ metadata.inputs, ∃ input, findInput request.inputs expected.name = some input := by
      intro expected hmem
      obtain ⟨input, hinput, hname⟩ := List.mem_map.mp (hfits.names.mem_iff.mpr (List.mem_map_of_mem hmem))
      exact ⟨input, (keyed.find?_eq_some_iff (hfits.names.nodup_iff.mpr hdistinct)).mpr ⟨hinput, hname⟩⟩
    cases hordered : orderedInputs metadata request with
    | ok inputs => exact ⟨inputs, rfl⟩
    | error response =>
      rw [orderedInputs, hnone] at hordered
      obtain ⟨expected, hmem, hmissing⟩ := mapM_error hordered
      obtain ⟨input, hinput⟩ := hfind expected hmem
      rw [hinput] at hmissing
      cases hmissing

theorem orderedInputs_error_ok {response : ExecutionResponse}
    (herror : orderedInputs metadata request = .error response) : response.ok = false := by
  unfold orderedInputs at herror
  split at herror
  · cases herror
    rfl
  · obtain ⟨expected, -, hmissing⟩ := mapM_error herror
    split at hmissing <;> cases hmissing
    rfl

/-- Counted bytes are exact when they are whole elements. -/
theorem CountedLength.exact {input : InputTensor} (hcounted : CountedLength input)
    (hfixed : 0 < tensorElementSize input.datatype) (hwhole : tensorElementSize input.datatype ∣ input.bytes.length) :
    ExactLength input := by
  constructor
  · have hall := hcounted.running input.shape.length
    rwa [List.take_length] at hall
  · have hdiv : input.bytes.length / tensorElementSize input.datatype * tensorElementSize input.datatype =
        input.bytes.length := Nat.div_mul_cancel hwhole
    rw [← hcounted.elements, tensorElementCount, if_neg hfixed.ne']
    exact_mod_cast hdiv.symm

/-- Exact bytes are counted as such where no product overflows. -/
theorem ExactLength.counted {input : InputTensor} (hexact : ExactLength input)
    (hfixed : 0 < tensorElementSize input.datatype) (hrunning : NeverOverflows input.shape) : CountedLength input := by
  refine ⟨hrunning, ?_⟩
  rw [tensorElementCount, if_neg hfixed.ne', Int.natCast_div, hexact.bytes]
  exact Int.mul_ediv_cancel _ (by exact_mod_cast hfixed.ne')

/-- A multiple of the element size: all bytes belong to whole elements. -/
theorem ExactLength.whole {input : InputTensor} (hexact : ExactLength input) :
    tensorElementSize input.datatype ∣ input.bytes.length := by
  have hdvd : (tensorElementSize input.datatype : Int) ∣ input.bytes.length := ⟨input.shape.prod, by
    rw [hexact.bytes, mul_comm]⟩
  exact_mod_cast hdvd

/-- The gate works as meant on the requests whose lengths tell. -/
theorem gate_iff (hdistinct : (metadata.inputs.map (·.name)).Nodup) :
    Gate metadata request ↔ LengthsTell metadata request := by
  have hpasses := @orderedInputs_passes_iff _ request hdistinct
  constructor
  · intro hgate
    constructor
    · intro hfits hcounted input hmem
      exact ((hgate.passes.mp (hpasses.mpr ⟨hfits, hcounted⟩)).lengths input hmem).whole
    · intro hfits hexact input hmem
      exact ((hpasses.mp (hgate.passes.mpr ⟨hfits, hexact⟩)).2 input hmem).running
  · intro htell
    refine ⟨?_, fun inputs hok => (orderedInputs_ok hdistinct hok).2.2,
      fun response herror => ⟨orderedInputs_error_ok herror, orderedInputs_error herror⟩⟩
    rw [hpasses]
    constructor
    · rintro ⟨hfits, hcounted⟩
      exact ⟨hfits, fun input hmem => (hcounted input hmem).exact (hfits.inputs input hmem).fixedSize
        (htell.whole hfits hcounted input hmem)⟩
    · rintro ⟨hfits, hexact⟩
      exact ⟨hfits, fun input hmem => (hexact input hmem).counted (hfits.inputs input hmem).fixedSize
        (htell.running hfits hexact input hmem)⟩

end Gate

def pointMetadata : ModelMetadata := { inputs := [{ name := "point", datatype := "FP32", shape := [-1, 1] }] }

def pointRequest (length : Nat) : ExecutionRequest where
  inputs := [{ name := "point", datatype := "FP32", shape := [1, 1], bytes := List.replicate length 0 }]

theorem gate_iff_point :
    (pointMetadata.inputs.map (·.name)).Nodup ∧
      (Gate pointMetadata (pointRequest 4) ↔ LengthsTell pointMetadata (pointRequest 4)) :=
  ⟨by decide, gate_iff (by decide)⟩

/-- Five bytes hold one element, so they are taken for one. -/
theorem ragged_point_passes :
    ¬∀ (metadata : ModelMetadata) (request : ExecutionRequest),
      (metadata.inputs.map (·.name)).Nodup → Gate metadata request := by
  intro h
  have hpasses : ∃ inputs, orderedInputs pointMetadata (pointRequest 5) = .ok inputs := ⟨_, rfl⟩
  have hexact := ((h pointMetadata (pointRequest 5) (by decide)).passes.mp hpasses).lengths _ List.mem_cons_self
  have hbytes := hexact.bytes
  revert hbytes
  decide

end neuriplo.executor
