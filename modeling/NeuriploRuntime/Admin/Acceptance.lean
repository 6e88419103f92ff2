import NeuriploRuntime.Admin.AdminCodec

open fallible neuriplo.codec neuriplo.config

namespace neuriplo.admin

section Reads

variable {α : Type} {cast : Json → Option α} {json : Json} {key : String}

/-- The value of a field of the right type. -/
def given (cast : Json → Option α) (json : Json) (key : String) : Option α := (json.field key).bind cast

/-- A field is absent, or it has the right type and a good value. -/
def Takes (cast : Json → Option α) (good : α → Prop) (json : Json) (key : String) : Prop :=
  ∀ field, json.field key = some field → ∃ value, cast field = some value ∧ good value

def AnyValue (_ : α) : Prop := True

/-- A field is read when it is absent or of the type expected. -/
theorem readField_eq_ok {expected : String} {out : α} {read : Read α} :
    readField cast expected json key out = .ok read ↔
      Takes cast AnyValue json key ∧
        read = { value := (given cast json key).getD out, provided := (json.field key).isSome } := by
  unfold readField Takes given
  cases json.field key with
  | none => exact ⟨fun h => ⟨nofun, by cases h; rfl⟩, fun h => by rw [h.2]; rfl⟩
  | some field =>
    simp only [Option.some.injEq, forall_eq', Option.bind_some, Option.isSome_some]
    cases hcast : cast field with
    | none => exact iff_of_false nofun fun h => nomatch h.1
    | some value =>
      simp only [Except.ok.injEq, Option.getD_some, Option.some.injEq, exists_eq_left', AnyValue, true_and]
      exact eq_comm

/-- A checked field is read when its value, if it is there, is not bad. -/
theorem checked_eq_ok {expected error : String} {bad : α → Prop} [DecidablePred bad] {out : α} {read : Read α} :
    checked bad error (readField cast expected json key out) = .ok read ↔
      Takes cast (¬bad ·) json key ∧
        read = { value := (given cast json key).getD out, provided := (json.field key).isSome } := by
  unfold checked readField Takes given
  cases json.field key with
  | none => simp [eq_comm]
  | some field =>
    simp only [Option.some.injEq, forall_eq', Option.bind_some, Option.isSome_some]
    cases cast field with
    | none => simp
    | some value => by_cases hbad : bad value <;> simp [hbad, eq_comm]

theorem given_string {value : String} (hfield : json.field key = some (.string value)) :
    given Json.asString json key = some value := by
  rw [given, hfield, Option.bind_some]
  rfl

theorem given_absent (cast : Json → Option α) (hfield : json.field key = none) : given cast json key = none := by
  rw [given, hfield, Option.bind_none]

/-- What holds of good values and of the default holds after a read. -/
theorem Takes.getD {good holds : α → Prop} {out : α} (htakes : Takes cast good json key)
    (hgood : ∀ value, good value → holds value) (hout : holds out) : holds ((given cast json key).getD out) := by
  cases hfield : json.field key with
  | none => rwa [given_absent cast hfield]
  | some field =>
    obtain ⟨value, hcast, hvalue⟩ := htakes field hfield
    rw [given, hfield, Option.bind_some, hcast]
    exact hgood value hvalue

end Reads

section Fields

variable (text : JsonText) (json : Json) (defaults : AdminConfig)

def backendOf : String := (given Json.asString json "backend").getD defaults.backend

/-- An ensemble whose body says nothing of batching. -/
def Overridden : Prop :=
  backendOf json defaults = pipelineBackendId ∧ json.field "dynamic_batching_enabled" = none ∧
    json.field "max_batch_size" = none

instance : Decidable (Overridden json defaults) :=
  decidable_of_iff (backendOf json defaults = pipelineBackendId ∧
    (json.field "dynamic_batching_enabled").isNone = true ∧ (json.field "max_batch_size").isNone = true)
    (by simp [Overridden])

def batchingOf : Bool :=
  if Overridden json defaults then false
  else (given Json.asBoolean json "dynamic_batching_enabled").getD defaults.dynamic_batching_enabled

def batchSizeOf : Nat :=
  if Overridden json defaults then 1 else (given Json.asUnsigned json "max_batch_size").getD defaults.max_batch_size

/-- The defaults with the fields of a body put over them. -/
def merged : AdminConfig :=
  { defaults with
    backend := backendOf json defaults
    plugin_dir := (given Json.asString json "plugin_dir").getD defaults.plugin_dir
    input_sizes := (given asInputSizes json "input_sizes").getD defaults.input_sizes
    model_path := (given Json.asString json "model_path").getD defaults.model_path
    pipeline_graph := readPipelineGraph text json defaults.pipeline_graph
    storage_uri := (given Json.asString json "storage_uri").getD defaults.storage_uri
    scheduler_strategy := (given Json.asString json "scheduler_strategy").getD defaults.scheduler_strategy
    instances := (given Json.asUnsigned json "instances").getD defaults.instances
    max_queue_size := (given Json.asUnsigned json "max_queue_size").getD defaults.max_queue_size
    request_timeout_ms := (given Json.int64 json "request_timeout_ms").getD defaults.request_timeout_ms
    use_gpu := (given Json.asBoolean json "use_gpu").getD defaults.use_gpu
    dynamic_batching_enabled := batchingOf json defaults
    max_batch_size := batchSizeOf json defaults
    max_queue_delay_us := (given Json.int64 json "max_queue_delay_us").getD defaults.max_queue_delay_us }

/-- Every field of a body is of its type and in its range, and batching has batches to fill. -/
structure CommonFields : Prop where
  backend : Takes Json.asString (· ≠ "") json "backend"
  plugin_dir : Takes Json.asString AnyValue json "plugin_dir"
  input_sizes : Takes asInputSizes AnyValue json "input_sizes"
  model_path : Takes Json.asString AnyValue json "model_path"
  storage_uri : Takes Json.asString AnyValue json "storage_uri"
  scheduler_strategy : Takes Json.asString AnyValue json "scheduler_strategy"
  instances : Takes Json.asUnsigned (fun instances => 1 ≤ instances ∧ instances ≤ kMaxInstances) json "instances"
  max_queue_size : Takes Json.asUnsigned (1 ≤ ·) json "max_queue_size"
  request_timeout_ms : Takes Json.int64 (0 < ·) json "request_timeout_ms"
  use_gpu : Takes Json.asBoolean AnyValue json "use_gpu"
  dynamic_batching_enabled : Takes Json.asBoolean AnyValue json "dynamic_batching_enabled"
  max_batch_size : Takes Json.asUnsigned (1 ≤ ·) json "max_batch_size"
  max_queue_delay_us : Takes Json.int64 (0 ≤ ·) json "max_queue_delay_us"
  batching : batchingOf json defaults = true → 2 ≤ batchSizeOf json defaults

/-- The name of a model is no matter of the common fields. -/
theorem commonFields_named (model_name model_version : String) :
    CommonFields json { defaults with model_name, model_version } ↔ CommonFields json defaults := by
  constructor
  · exact fun hfields => { hfields with batching := hfields.batching }
  · exact fun hfields => { hfields with batching := hfields.batching }

/-- The check for an ensemble whose body says nothing of batching. -/
theorem overridden_iff :
    (backendOf json defaults = pipelineBackendId ∧ (json.field "dynamic_batching_enabled").isSome = false ∧
      (json.field "max_batch_size").isSome = false) ↔ Overridden json defaults := by
  simp [Overridden]

/-- The common fields are read exactly when each of them is right, and are
merged into the defaults. -/
theorem applyCommonFields_eq_ok {result : AdminConfig × Bool} :
    applyCommonFields text json defaults = .ok result ↔
      CommonFields json defaults ∧ result = (merged text json defaults, (json.field "backend").isSome) := by
  simp only [applyCommonFields, bind_eq_ok, readString, readSizeT, readInt64, readBool, readInputSizes,
    checked_eq_ok, readField_eq_ok, refuse_eq_ok, and_assoc, exists_and_left, exists_eq_left, exists_const,
    ← backendOf.eq_1, overridden_iff, not_or, Nat.not_lt, Int.not_le, Int.not_lt, not_and]
  constructor
  · rintro ⟨hbackend, hplugin, hsizes, hpath, huri, hstrategy, hinstances, hqueue, htimeout, hgpu, hbatching,
      hbatchSize, hdelay, hconsistent, hresult⟩
    cases hresult
    exact ⟨⟨hbackend, hplugin, hsizes, hpath, huri, hstrategy, hinstances, hqueue, htimeout, hgpu, hbatching,
      hbatchSize, hdelay, hconsistent⟩, rfl⟩
  · rintro ⟨⟨hbackend, hplugin, hsizes, hpath, huri, hstrategy, hinstances, hqueue, htimeout, hgpu, hbatching,
      hbatchSize, hdelay, hconsistent⟩, rfl⟩
    exact ⟨hbackend, hplugin, hsizes, hpath, huri, hstrategy, hinstances, hqueue, htimeout, hgpu, hbatching,
      hbatchSize, hdelay, hconsistent, rfl⟩

end Fields

inductive AdminRequest where
  | load
  | reload
  | switchVersion
deriving DecidableEq, Repr

namespace AdminRequest

def parse : AdminRequest → JsonText → String → AdminConfig → AdminParseResult AdminConfig
  | .load => parseLoadModelRequest
  | .reload => parseReloadModelRequest
  | .switchVersion => parseSwitchVersionRequest

/-- A reload of nothing but a name. -/
def Bare (request : AdminRequest) (body : String) : Prop := request = .reload ∧ body = ""

instance (request : AdminRequest) (body : String) : Decidable (request.Bare body) :=
  inferInstanceAs (Decidable (_ ∧ _))

/-- The fields that a request needs or knows beyond those of all bodies. -/
def Required (request : AdminRequest) (json : Json) : Prop :=
  match request with
  | .load => (∃ name, name ≠ "" ∧ json.field "model_name" = some (.string name)) ∧
      Takes Json.asString AnyValue json "model_version"
  | .reload => True
  | .switchVersion => ∃ version, version ≠ "" ∧ json.field "version" = some (.string version)

/-- The config that a body asks for. -/
def config (request : AdminRequest) (text : JsonText) (json : Json) (defaults : AdminConfig) : AdminConfig :=
  match request with
  | .load =>
    { merged text json defaults with
      model_name := (given Json.asString json "model_name").getD defaults.model_name
      model_version := (given Json.asString json "model_version").getD defaults.model_version }
  | .reload => merged text json defaults
  | .switchVersion =>
    { merged text json defaults with
      model_version := (given Json.asString json "version").getD defaults.model_version }

/-- The request is accepted with a config. -/
def Accepts (request : AdminRequest) (text : JsonText) (body : String) (defaults config : AdminConfig) : Prop :=
  (request.parse text body defaults).ok = true ∧ (request.parse text body defaults).config = config

end AdminRequest

section Requests

variable {text : JsonText} {body : String} {json : Json} {defaults config : AdminConfig}

/-- A parse that throws is a failure, and any other is what it says. -/
theorem settle_ok {parsing : Except String (AdminParseResult AdminConfig)} :
    ((settle parsing).ok = true ∧ (settle parsing).config = config) ↔
      ∃ result, parsing = .ok result ∧ result.ok = true ∧ result.config = config := by
  cases parsing with
  | error message => exact iff_of_false (fun h => nomatch h.1) (fun ⟨_, h, _⟩ => nomatch h)
  | ok result => simp only [settle, Except.ok.injEq, exists_eq_left']

theorem parseBody_eq_ok : parseBody text body = .ok json ↔ text.parse body = .ok json := by
  unfold parseBody
  cases text.parse body with
  | error what => exact iff_of_false nofun nofun
  | ok parsed => exact Iff.rfl

/-- A required field has to be a text that is not empty. -/
theorem readRequired_eq_ok {key out value : String} :
    readRequired json key out = .ok value ↔ value ≠ "" ∧ json.field key = some (.string value) := by
  simp only [readRequired, bind_eq_ok, readString, readField_eq_ok, refuse_eq_ok, and_assoc, exists_and_left,
    exists_eq_left, exists_const, Takes, given]
  cases json.field key with
  | none => simp
  | some field =>
    cases field with
    | string found =>
      simp only [Option.some.injEq, forall_eq', Json.asString, AnyValue, exists_eq_left', Option.bind_some,
        Option.isSome_some, Option.getD_some, Json.string.injEq, true_and]
      constructor
      · rintro ⟨-, hnonempty, hresult⟩
        cases hresult
        exact ⟨hnonempty, rfl⟩
      · rintro ⟨hnonempty, rfl⟩
        exact ⟨Bool.noConfusion, hnonempty, rfl⟩
    | _ => simp [Json.asString]

/-- What a body asks for is merged into the defaults with its name. -/
theorem load_accepts_iff :
    AdminRequest.load.Accepts text body defaults config ↔
      ∃ json, text.parse body = .ok json ∧ AdminRequest.load.Required json ∧ CommonFields json defaults ∧
        config = AdminRequest.load.config text json defaults := by
  unfold AdminRequest.Accepts AdminRequest.parse parseLoadModelRequest
  simp only [settle_ok, bind_eq_ok, parseBody_eq_ok, readRequired_eq_ok, readString, readField_eq_ok,
    applyCommonFields_eq_ok, commonFields_named]
  constructor
  · rintro ⟨result, ⟨json, hjson, name, ⟨hname, hfield⟩, _, ⟨hversion, rfl⟩, _, ⟨hfields, rfl⟩, hresult⟩, -, hconfig⟩
    cases hresult
    refine ⟨json, hjson, ⟨⟨name, hname, hfield⟩, hversion⟩, hfields, ?_⟩
    rw [← hconfig, AdminRequest.config, given_string hfield]
    rfl
  · rintro ⟨json, hjson, ⟨⟨name, hname, hfield⟩, hversion⟩, hfields, rfl⟩
    refine ⟨_, ⟨json, hjson, name, ⟨hname, hfield⟩, _, ⟨hversion, rfl⟩, _, ⟨hfields, rfl⟩, rfl⟩, rfl, ?_⟩
    rw [AdminRequest.config, given_string hfield]
    rfl

/-- A switch of versions is accepted with a version and common fields that are
right. -/
theorem switchVersion_accepts_iff :
    AdminRequest.switchVersion.Accepts text body defaults config ↔
      ∃ json, text.parse body = .ok json ∧ AdminRequest.switchVersion.Required json ∧ CommonFields json defaults ∧
        config = AdminRequest.switchVersion.config text json defaults := by
  unfold AdminRequest.Accepts AdminRequest.parse parseSwitchVersionRequest
  simp only [settle_ok, bind_eq_ok, parseBody_eq_ok, readRequired_eq_ok, applyCommonFields_eq_ok]
  constructor
  · rintro ⟨result, ⟨json, hjson, version, ⟨hversion, hfield⟩, _, ⟨hfields, rfl⟩, hresult⟩, -, hconfig⟩
    cases hresult
    refine ⟨json, hjson, ⟨version, hversion, hfield⟩, hfields, ?_⟩
    rw [← hconfig, AdminRequest.config, given_string hfield]
    rfl
  · rintro ⟨json, hjson, ⟨version, hversion, hfield⟩, hfields, rfl⟩
    refine ⟨_, ⟨json, hjson, version, ⟨hversion, hfield⟩, _, ⟨hfields, rfl⟩, rfl⟩, rfl, ?_⟩
    rw [AdminRequest.config, given_string hfield]
    rfl

/-- A reload with a body is accepted with common fields that are right. -/
theorem reload_accepts_iff (hbody : body ≠ "") :
    AdminRequest.reload.Accepts text body defaults config ↔
      ∃ json, text.parse body = .ok json ∧ CommonFields json defaults ∧
        config = AdminRequest.reload.config text json defaults := by
  unfold AdminRequest.Accepts AdminRequest.parse parseReloadModelRequest
  simp only [String.isEmpty_iff, if_neg hbody, settle_ok, bind_eq_ok, parseBody_eq_ok, applyCommonFields_eq_ok]
  constructor
  · rintro ⟨result, ⟨json, hjson, _, ⟨hfields, rfl⟩, hresult⟩, -, hconfig⟩
    cases hresult
    exact ⟨json, hjson, hfields, hconfig.symm⟩
  · rintro ⟨json, hjson, hfields, rfl⟩
    exact ⟨_, ⟨json, hjson, _, ⟨hfields, rfl⟩, rfl⟩, rfl, rfl⟩

/-- A bare reload keeps the config. Every other request is accepted for the fields of its body. -/
theorem accepts_iff (request : AdminRequest) :
    request.Accepts text body defaults config ↔
      request.Bare body ∧ config = defaults ∨
        ¬request.Bare body ∧ ∃ json, text.parse body = .ok json ∧ request.Required json ∧ CommonFields json defaults ∧
          config = request.config text json defaults := by
  cases request with
  | load =>
    have hbare : ¬AdminRequest.load.Bare body := nofun
    rw [load_accepts_iff]
    simp only [hbare, false_and, not_false_eq_true, true_and, false_or]
  | switchVersion =>
    have hbare : ¬AdminRequest.switchVersion.Bare body := nofun
    rw [switchVersion_accepts_iff]
    simp only [hbare, false_and, not_false_eq_true, true_and, false_or]
  | reload =>
    by_cases hbody : body = ""
    · have hbare : AdminRequest.reload.Bare body := ⟨rfl, hbody⟩
      subst hbody
      simp only [hbare, true_and, not_true_eq_false, false_and, or_false]
      exact ⟨fun haccepts => haccepts.2.symm, fun hconfig => ⟨rfl, hconfig.symm⟩⟩
    · have hbare : ¬AdminRequest.reload.Bare body := fun hbare => hbody hbare.2
      rw [reload_accepts_iff hbody]
      simp only [hbare, false_and, not_false_eq_true, true_and, false_or, AdminRequest.Required]

end Requests

end neuriplo.admin
