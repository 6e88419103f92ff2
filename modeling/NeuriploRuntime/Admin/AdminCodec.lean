import NeuriploRuntime.Codec.Json
import NeuriploRuntime.Config.Checks

open fallible neuriplo.codec neuriplo.config

namespace neuriplo.admin

/-- A runtime config with the fields that an admin body sets beyond those the schedulers look at. -/
structure AdminConfig extends RuntimeConfig where
  use_gpu : Bool := false
  plugin_dir : String := ""
  input_sizes : List (List Int) := []
  storage_uri : String := ""
deriving DecidableEq, Repr

/-- The JSON library on texts. A parse that throws says why. -/
structure JsonText where
  parse : String → Except String Json
  dump : Json → String

/-- The value after a read, and whether the body has the field. -/
structure Read (α : Type) where
  value : α
  provided : Bool

variable {α : Type}

/-- A field that is absent leaves the default. One of another type is an error. -/
def readField (cast : Json → Option α) (expected : String) (json : Json) (key : String) (out : α) :
    Except String (Read α) :=
  match json.field key with
  | none => .ok { value := out, provided := false }
  | some field =>
    match cast field with
    | none => .error (key ++ " must be " ++ expected)
    | some value => .ok { value, provided := true }

def readString : Json → String → String → Except String (Read String) := readField Json.asString "a string"

def readSizeT : Json → String → Nat → Except String (Read Nat) := readField Json.asUnsigned "a non-negative integer"

def readInt64 : Json → String → Int → Except String (Read Int) := readField Json.int64 "an integer"

def readBool : Json → String → Bool → Except String (Read Bool) := readField Json.asBoolean "a boolean"

def asInputSizes (json : Json) : Option (List (List Int)) :=
  json.asArray.bind fun shapes => shapes.mapM fun shape => shape.asArray.bind fun dims => dims.mapM Json.int64

def readInputSizes (json : Json) (out : List (List Int)) : Except String (Read (List (List Int))) :=
  readField asInputSizes "an array of arrays of integers" json "input_sizes" out

/-- A read with a check that the field has to pass when the body has it. -/
def checked (bad : α → Prop) [DecidablePred bad] (error : String) (reading : Except String (Read α)) :
    Except String (Read α) :=
  match reading with
  | .error type_error => .error type_error
  | .ok read => if read.provided = true ∧ bad read.value then .error error else .ok read

def kMaxInstances : Nat := 64

/-- A pipeline graph is an object or its text. -/
def readPipelineGraph (text : JsonText) (json : Json) (out : String) : String :=
  match json.field "pipeline_graph" with
  | none => out
  | some graph => graph.asString.getD (text.dump graph)

/-- The fields of all bodies. The second part is whether the body names a backend. -/
def applyCommonFields (text : JsonText) (json : Json) (config : AdminConfig) : Except String (AdminConfig × Bool) := do
  let backend ← checked (· = "") "backend must not be empty" (readString json "backend" config.backend)
  let plugin_dir ← readString json "plugin_dir" config.plugin_dir
  let input_sizes ← readInputSizes json config.input_sizes
  let model_path ← readString json "model_path" config.model_path
  let pipeline_graph := readPipelineGraph text json config.pipeline_graph
  let storage_uri ← readString json "storage_uri" config.storage_uri
  let scheduler_strategy ← readString json "scheduler_strategy" config.scheduler_strategy
  let instances ← checked (fun instances => instances < 1 ∨ kMaxInstances < instances)
    ("instances must be between 1 and " ++ toString kMaxInstances) (readSizeT json "instances" config.instances)
  let max_queue_size ← checked (· < 1) "max_queue_size must be >= 1"
    (readSizeT json "max_queue_size" config.max_queue_size)
  let request_timeout_ms ← checked (· ≤ 0) "request_timeout_ms must be greater than 0"
    (readInt64 json "request_timeout_ms" config.request_timeout_ms)
  let use_gpu ← readBool json "use_gpu" config.use_gpu
  let batching ← readBool json "dynamic_batching_enabled" config.dynamic_batching_enabled
  let batch_size ← checked (· < 1) "max_batch_size must be >= 1"
    (readSizeT json "max_batch_size" config.max_batch_size)
  -- an ensemble does not inherit batching
  let ensemble := backend.value = pipelineBackendId ∧ batching.provided = false ∧ batch_size.provided = false
  let dynamic_batching_enabled := if ensemble then false else batching.value
  let max_batch_size := if ensemble then 1 else batch_size.value
  let max_queue_delay_us ← checked (· < 0) "max_queue_delay_us must be greater than or equal to 0"
    (readInt64 json "max_queue_delay_us" config.max_queue_delay_us)
  refuse (dynamic_batching_enabled = true ∧ max_batch_size < 2)
    "max_batch_size must be at least 2 when dynamic_batching_enabled is true"
  let applied : AdminConfig := { config with
    backend := backend.value
    plugin_dir := plugin_dir.value
    input_sizes := input_sizes.value
    model_path := model_path.value
    pipeline_graph
    storage_uri := storage_uri.value
    scheduler_strategy := scheduler_strategy.value
    instances := instances.value
    max_queue_size := max_queue_size.value
    request_timeout_ms := request_timeout_ms.value
    use_gpu := use_gpu.value
    dynamic_batching_enabled
    max_batch_size
    max_queue_delay_us := max_queue_delay_us.value }
  return (applied, (json.field "backend").isSome)

/-- What the admin codec makes of a request body, over the part of a configuration
that is looked at. -/
structure AdminParseResult (Config : Type) where
  ok : Bool := false
  error_message : String := ""
  config : Config
  model_name : String := ""
  version : String := ""
  backend_provided : Bool := false

def makeError (message : String) : AdminParseResult AdminConfig := { error_message := message, config := {} }

/-- A result, or the error a parser returns instead. -/
def settle : Except String (AdminParseResult AdminConfig) → AdminParseResult AdminConfig
  | .ok result => result
  | .error message => makeError message

def parseBody (text : JsonText) (body : String) : Except String Json :=
  match text.parse body with
  | .ok json => .ok json
  | .error what => .error ("invalid JSON: " ++ what)

/-- A field that a body must have. -/
def readRequired (json : Json) (key : String) (out : String) : Except String String := do
  let read ← readString json key out
  refuse (read.provided = false) (key ++ " is required")
  refuse (read.value = "") (key ++ " is required")
  return read.value

def parseLoadModelRequest (text : JsonText) (body : String) (defaults : AdminConfig) :
    AdminParseResult AdminConfig :=
  settle do
    let json ← parseBody text body
    let model_name ← readRequired json "model_name" defaults.model_name
    let model_version ← readString json "model_version" defaults.model_version
    let named : AdminConfig := { defaults with model_name, model_version := model_version.value }
    let (config, backend_provided) ← applyCommonFields text json named
    return { ok := true, config, model_name := config.model_name, backend_provided }

def parseReloadModelRequest (text : JsonText) (body : String) (defaults : AdminConfig) :
    AdminParseResult AdminConfig :=
  if body.isEmpty then { ok := true, config := defaults }
  else
    settle do
      let json ← parseBody text body
      let (config, backend_provided) ← applyCommonFields text json defaults
      return { ok := true, config, backend_provided }

def parseSwitchVersionRequest (text : JsonText) (body : String) (defaults : AdminConfig) :
    AdminParseResult AdminConfig :=
  settle do
    let json ← parseBody text body
    let version ← readRequired json "version" ""
    let (config, backend_provided) ← applyCommonFields text json defaults
    return { ok := true, config := { config with model_version := version }, version, backend_provided }

end neuriplo.admin
