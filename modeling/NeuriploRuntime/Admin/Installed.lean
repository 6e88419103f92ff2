import NeuriploRuntime.Admin.Acceptance

open fallible neuriplo.codec neuriplo.config

namespace neuriplo.admin

/-- The scheduler strategy of a body is one there is. -/
def StrategyKnown (json : Json) : Prop :=
  ∀ strategy, json.field "scheduler_strategy" = some (.string strategy) → strategy = "tensor" ∨ strategy = "llm"

/-- What a body does not mention stays as it was, but for the batching of an ensemble. -/
structure Keeps (json : Json) (defaults config : AdminConfig) : Prop where
  others : config = { defaults with
    model_name := config.model_name
    model_version := config.model_version
    backend := config.backend
    plugin_dir := config.plugin_dir
    input_sizes := config.input_sizes
    model_path := config.model_path
    pipeline_graph := config.pipeline_graph
    storage_uri := config.storage_uri
    scheduler_strategy := config.scheduler_strategy
    instances := config.instances
    max_queue_size := config.max_queue_size
    request_timeout_ms := config.request_timeout_ms
    use_gpu := config.use_gpu
    dynamic_batching_enabled := config.dynamic_batching_enabled
    max_batch_size := config.max_batch_size
    max_queue_delay_us := config.max_queue_delay_us }
  model_name : json.field "model_name" = none → config.model_name = defaults.model_name
  model_version : json.field "model_version" = none → json.field "version" = none →
    config.model_version = defaults.model_version
  backend : json.field "backend" = none → config.backend = defaults.backend
  plugin_dir : json.field "plugin_dir" = none → config.plugin_dir = defaults.plugin_dir
  input_sizes : json.field "input_sizes" = none → config.input_sizes = defaults.input_sizes
  model_path : json.field "model_path" = none → config.model_path = defaults.model_path
  pipeline_graph : json.field "pipeline_graph" = none → config.pipeline_graph = defaults.pipeline_graph
  storage_uri : json.field "storage_uri" = none → config.storage_uri = defaults.storage_uri
  scheduler_strategy : json.field "scheduler_strategy" = none → config.scheduler_strategy = defaults.scheduler_strategy
  instances : json.field "instances" = none → config.instances = defaults.instances
  max_queue_size : json.field "max_queue_size" = none → config.max_queue_size = defaults.max_queue_size
  request_timeout_ms : json.field "request_timeout_ms" = none → config.request_timeout_ms = defaults.request_timeout_ms
  use_gpu : json.field "use_gpu" = none → config.use_gpu = defaults.use_gpu
  max_queue_delay_us : json.field "max_queue_delay_us" = none → config.max_queue_delay_us = defaults.max_queue_delay_us
  dynamic_batching_enabled : json.field "dynamic_batching_enabled" = none → json.field "max_batch_size" ≠ none →
    config.dynamic_batching_enabled = defaults.dynamic_batching_enabled
  max_batch_size : json.field "max_batch_size" = none → json.field "dynamic_batching_enabled" ≠ none →
    config.max_batch_size = defaults.max_batch_size
  batching : json.field "dynamic_batching_enabled" = none → json.field "max_batch_size" = none →
    config.dynamic_batching_enabled = defaults.dynamic_batching_enabled ∧
        config.max_batch_size = defaults.max_batch_size ∨
      config.backend = pipelineBackendId ∧ config.dynamic_batching_enabled = false ∧ config.max_batch_size = 1

section Installed

variable {text : JsonText} {body : String} {json : Json} {defaults : AdminConfig}

theorem keeps_self (json : Json) (defaults : AdminConfig) : Keeps json defaults defaults := by
  constructor <;> intros <;> first | rfl | exact .inl ⟨rfl, rfl⟩

/-- Fields that a body leaves out keep their defaults. -/
theorem merged_keeps (text : JsonText) (json : Json) (defaults : AdminConfig) :
    Keeps json defaults (merged text json defaults) where
  others := rfl
  model_name _ := rfl
  model_version _ _ := rfl
  backend habsent := by rw [merged, backendOf, given_absent _ habsent]; rfl
  plugin_dir habsent := by rw [merged, given_absent _ habsent]; rfl
  input_sizes habsent := by rw [merged, given_absent _ habsent]; rfl
  model_path habsent := by rw [merged, given_absent _ habsent]; rfl
  pipeline_graph habsent := by rw [merged, readPipelineGraph, habsent]
  storage_uri habsent := by rw [merged, given_absent _ habsent]; rfl
  scheduler_strategy habsent := by rw [merged, given_absent _ habsent]; rfl
  instances habsent := by rw [merged, given_absent _ habsent]; rfl
  max_queue_size habsent := by rw [merged, given_absent _ habsent]; rfl
  request_timeout_ms habsent := by rw [merged, given_absent _ habsent]; rfl
  use_gpu habsent := by rw [merged, given_absent _ habsent]; rfl
  max_queue_delay_us habsent := by rw [merged, given_absent _ habsent]; rfl
  dynamic_batching_enabled habsent hgiven := by
    have hkept : ¬Overridden json defaults := fun hoverridden => hgiven hoverridden.2.2
    rw [merged, batchingOf, if_neg hkept, given_absent _ habsent]
    rfl
  max_batch_size habsent hgiven := by
    have hkept : ¬Overridden json defaults := fun hoverridden => hgiven hoverridden.2.1
    rw [merged, batchSizeOf, if_neg hkept, given_absent _ habsent]
    rfl
  batching hbatching hsize := by
    by_cases hoverridden : Overridden json defaults
    · right
      simp only [merged, batchingOf, batchSizeOf, if_pos hoverridden, and_true]
      exact hoverridden.1
    · left
      simp only [merged, batchingOf, batchSizeOf, if_neg hoverridden, given_absent _ hbatching, given_absent _ hsize,
        Option.getD_none, and_self]

/-- A request leaves alone what its body leaves out. -/
theorem config_keeps (request : AdminRequest) (text : JsonText) (json : Json) (defaults : AdminConfig) :
    Keeps json defaults (request.config text json defaults) := by
  have hmerged := merged_keeps text json defaults
  cases request with
  | reload => exact hmerged
  | load =>
    refine { hmerged with others := rfl, model_name := ?_, model_version := ?_ }
    · intro habsent
      rw [AdminRequest.config, given_absent _ habsent]
      rfl
    · intro habsent _
      rw [AdminRequest.config, given_absent _ habsent]
      rfl
  | switchVersion =>
    refine { hmerged with others := rfl, model_version := ?_ }
    intro _ habsent
    rw [AdminRequest.config, given_absent _ habsent]
    rfl

/-- A batch size is positive when its default is. -/
theorem batchSizeOf_pos (hfields : CommonFields json defaults) (hdefaults : 0 < defaults.max_batch_size) :
    0 < batchSizeOf json defaults := by
  unfold batchSizeOf
  split_ifs
  · exact Nat.one_pos
  · exact hfields.max_batch_size.getD (fun _ hsize => hsize) hdefaults

/-- A scheduler strategy is known when its default is and the body gives a known
one or none. -/
theorem strategy_known_iff (hfields : CommonFields json defaults)
    (hdefaults : defaults.scheduler_strategy = "tensor" ∨ defaults.scheduler_strategy = "llm") :
    ((given Json.asString json "scheduler_strategy").getD defaults.scheduler_strategy = "tensor" ∨
        (given Json.asString json "scheduler_strategy").getD defaults.scheduler_strategy = "llm") ↔
      StrategyKnown json := by
  constructor
  · intro hknown strategy hfield
    rwa [given_string hfield] at hknown
  · intro hknown
    have htakes : Takes Json.asString (fun strategy => strategy = "tensor" ∨ strategy = "llm") json
        "scheduler_strategy" := by
      intro field hfield
      obtain ⟨strategy, hcast, -⟩ := hfields.scheduler_strategy field hfield
      cases field with
      | string found => exact ⟨found, rfl, hknown found hfield⟩
      | _ => cases hcast
    exact htakes.getD (fun _ hstrategy => hstrategy) hdefaults

/-- Bounded defaults stay so when a body is merged into them. -/
theorem merged_bounded (text : JsonText) (hfields : CommonFields json defaults) (hdefaults : defaults.Bounded) :
    (merged text json defaults).Bounded where
  model_name := hdefaults.model_name
  max_queue_size := hfields.max_queue_size.getD (fun _ hsize => hsize) hdefaults.max_queue_size
  request_timeout_ms := hfields.request_timeout_ms.getD (fun _ htimeout => htimeout) hdefaults.request_timeout_ms
  instances := hfields.instances.getD (fun _ hinstances => hinstances.1) hdefaults.instances
  max_batch_size := batchSizeOf_pos hfields hdefaults.max_batch_size
  max_queue_delay_us := hfields.max_queue_delay_us.getD (fun _ hdelay => hdelay) hdefaults.max_queue_delay_us
  batching := hfields.batching

/-- What a request installs is bounded when its defaults are. -/
theorem config_bounded {request : AdminRequest} (text : JsonText) (hrequired : request.Required json)
    (hfields : CommonFields json defaults) (hdefaults : defaults.Bounded) :
    (request.config text json defaults).Bounded := by
  have hmerged := merged_bounded text hfields hdefaults
  cases request with
  | reload => exact hmerged
  | load =>
    obtain ⟨⟨name, hname, hfield⟩, -⟩ := hrequired
    refine { hmerged with model_name := ?_ }
    rw [AdminRequest.config, given_string hfield]
    exact hname
  | switchVersion => exact { hmerged with }

/-- An accepted request keeps the bounds of the command line. -/
theorem accepts_bounded {request : AdminRequest} {config : AdminConfig}
    (haccepts : request.Accepts text body defaults config) (hdefaults : defaults.Bounded) : config.Bounded := by
  obtain ⟨-, rfl⟩ | ⟨-, json, -, hrequired, hfields, rfl⟩ := (accepts_iff request).mp haccepts
  · exact hdefaults
  · exact config_bounded text hrequired hfields hdefaults

/-- The scheduler strategy is the one field that is not checked. -/
theorem config_valid_iff {request : AdminRequest} (hrequired : request.Required json)
    (hfields : CommonFields json defaults) (hdefaults : defaults.Valid) :
    (request.config text json defaults).Valid ↔ StrategyKnown json := by
  have hbounded := config_bounded text hrequired hfields hdefaults.toBounded
  have hstrategy : (request.config text json defaults).scheduler_strategy =
      (given Json.asString json "scheduler_strategy").getD defaults.scheduler_strategy := by
    cases request <;> rfl
  rw [← strategy_known_iff hfields hdefaults.scheduler_strategy, ← hstrategy]
  exact ⟨fun hvalid => hvalid.scheduler_strategy, fun hknown => ⟨hbounded, hknown⟩⟩

end Installed

/-- What a body mentions, which is nothing in a bare reload. -/
def AdminRequest.mentions (request : AdminRequest) (text : JsonText) (body : String) : Json :=
  if request.Bare body then .null else (text.parse body).toOption.getD .null

/-- Every config that the request installs passes the checks of the command line, and keeps what the body does
not mention. -/
def Guarded (request : AdminRequest) (text : JsonText) (body : String) (defaults : AdminConfig) : Prop :=
  ∀ config, request.Accepts text body defaults config →
    finalChecks config.toRuntimeConfig = .ok () ∧ Keeps (request.mentions text body) defaults config

/-- A body whose fields are all of their types and in their ranges names a scheduler strategy there is. -/
def NamesStrategy (request : AdminRequest) (text : JsonText) (body : String) (defaults : AdminConfig) : Prop :=
  request.Bare body ∨
    ∀ json, text.parse body = .ok json → request.Required json → CommonFields json defaults → StrategyKnown json

/-- The request is as safe as the command line exactly when the scheduler strategy is. -/
theorem guarded_iff (request : AdminRequest) (text : JsonText) (body : String) (defaults : AdminConfig)
    (hdefaults : finalChecks defaults.toRuntimeConfig = .ok ()) :
    Guarded request text body defaults ↔ NamesStrategy request text body defaults := by
  have hvalid := (finalChecks_eq_ok_iff _).mp hdefaults
  constructor
  · intro hguarded
    by_cases hbare : request.Bare body
    · exact .inl hbare
    right
    intro json hjson hrequired hfields
    have haccepts := (accepts_iff request).mpr (.inr ⟨hbare, json, hjson, hrequired, hfields, rfl⟩)
    exact (config_valid_iff hrequired hfields hvalid).mp ((finalChecks_eq_ok_iff _).mp (hguarded _ haccepts).1)
  · intro hnames config haccepts
    obtain ⟨-, rfl⟩ | ⟨hbare, json, hjson, hrequired, hfields, rfl⟩ := (accepts_iff request).mp haccepts
    · exact ⟨hdefaults, keeps_self _ _⟩
    · have hknown := hnames.resolve_left hbare json hjson hrequired hfields
      have hmentions : request.mentions text body = json := by
        rw [AdminRequest.mentions, if_neg hbare, hjson]
        rfl
      rw [hmentions]
      exact ⟨(finalChecks_eq_ok_iff _).mpr ((config_valid_iff hrequired hfields hvalid).mpr hknown),
        config_keeps request text json defaults⟩

/-- The JSON library on one text. -/
def JsonText.reading (body : String) (json : Json) : JsonText where
  parse text := if text = body then .ok json else .error "unexpected text"
  dump _ := body

/-- The body of a load with a scheduler strategy. -/
def strategyBody (strategy : String) : String :=
  "\x7b\"model_name\":\"demo\",\"scheduler_strategy\":\"" ++ strategy ++ "\"\x7d"

def strategyText (strategy : String) : JsonText :=
  .reading (strategyBody strategy)
    (.object [("model_name", .string "demo"), ("scheduler_strategy", .string strategy)])

theorem guarded_llm : Guarded .load (strategyText "llm") (strategyBody "llm") {} := by
  refine (guarded_iff .load (strategyText "llm") (strategyBody "llm") {} (by decide +kernel)).mpr (.inr ?_)
  intro json hjson _ _ strategy hfield
  cases hjson
  cases hfield
  exact .inr rfl

/-- A strategy there is not is installed. -/
theorem fifo_installed :
    finalChecks ({} : AdminConfig).toRuntimeConfig = .ok () ∧
      ¬Guarded .load (strategyText "fifo") (strategyBody "fifo") {} := by
  refine ⟨by decide +kernel, fun hguarded => ?_⟩
  let result := AdminRequest.load.parse (strategyText "fifo") (strategyBody "fifo") {}
  have haccepts : AdminRequest.load.Accepts (strategyText "fifo") (strategyBody "fifo") {} result.config :=
    ⟨by decide +kernel, rfl⟩
  have hrefused : finalChecks result.config.toRuntimeConfig ≠ .ok () := by decide +kernel
  exact hrefused (hguarded _ haccepts).1

end neuriplo.admin
