import Mathlib.Data.List.Basic

namespace neuriplo.config

/-- The fields of `RuntimeConfig` that a model load reads. -/
structure RuntimeConfig where
  model_name : String := "demo"
  model_version : String := "1"
  model_version_explicit : Bool := false
  model_path : String := ""
  model_repository : String := ""
  backend : String := "stub"
  pipeline_graph : String := ""
  max_queue_size : Nat := 64
  request_timeout_ms : Int := 30000
  instances : Nat := 1
  dynamic_batching_enabled : Bool := false
  max_batch_size : Nat := 1
  max_queue_delay_us : Int := 0
  preferred_batch_sizes : List Nat := []
  scheduler_strategy : String := "tensor"
  context_length : Nat := 4096
  kv_cache_slots : Nat := 1
  max_tokens : Nat := 256
  memory_budget_bytes : Nat := 0
deriving DecidableEq, Repr

inductive BackendKind where
  | tensor
  | llm
deriving DecidableEq, Repr

/-- The backends `registerDefaultBackends` puts into the registry. -/
def defaultBackends : List (String × BackendKind) :=
  [("stub", .tensor), ("ensemble", .tensor), ("onnx_runtime", .tensor), ("opencv_dnn", .tensor),
    ("openvino", .tensor), ("tensorrt", .tensor), ("libtorch", .tensor), ("libtensorflow", .tensor),
    ("migraphx", .tensor), ("executorch", .tensor), ("litert", .tensor), ("dali", .tensor),
    ("ggml", .llm), ("llamacpp", .llm), ("cactus", .llm)]

def backendKind (backend_id : String) : BackendKind :=
  (defaultBackends.lookup backend_id).getD .tensor

def usesLlmScheduler (scheduler_strategy backend_id : String) : Bool :=
  if scheduler_strategy = "llm" then true
  else if scheduler_strategy ≠ "tensor" then false
  else backendKind backend_id = .llm

/-- Backend id a pipeline model is loaded under. -/
def pipelineBackendId : String := "ensemble"

/-- The version a load publishes over the one the backend reports, when the
configuration asked for one. -/
def RuntimeConfig.version_override (config : RuntimeConfig) : Option String :=
  if config.model_version_explicit && !config.model_version.isEmpty then some config.model_version
  else none

end neuriplo.config
