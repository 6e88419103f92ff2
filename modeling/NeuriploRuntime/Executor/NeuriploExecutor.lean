import Mathlib.Data.Rat.Defs
import NeuriploRuntime.Tensor.Bytes
import NeuriploRuntime.Tensor.Metadata

open neuriplo.tensor

namespace neuriplo.executor

structure NeuriploInferenceResult where
  ok : Bool := true
  error_message : String := ""
  outputs : List OutputTensor := []

/-- The parameters of a generation, without the cancel token and the streaming
callback that go along. -/
structure LlmInferenceParams where
  prompt : String
  max_tokens : Nat := 256
  temperature : ℚ := 0.8
  top_p : ℚ := 0.95
  top_k : Nat := 40
deriving DecidableEq, Repr

structure LlmInferenceResult where
  ok : Bool := true
  error_message : String := ""
  outputs : List OutputTensor := []
  prompt_tokens : Nat := 0
  completion_tokens : Nat := 0
  finish_reason : String := ""

variable {σ : Type*}

/-- The backend behind an executor, as a machine with a state of its own. What it
throws comes with a text when it is a `std::exception`. -/
structure NeuriploAdapter (σ : Type*) where
  infer : List InputTensor → σ → Except (Option String) NeuriploInferenceResult × σ
  llmInfer : LlmInferenceParams → σ → Except (Option String) LlmInferenceResult × σ

/-- An adapter without a generation of its own: it infers from no inputs. -/
def NeuriploAdapter.ofInfer (infer : List InputTensor → σ → Except (Option String) NeuriploInferenceResult × σ) :
    NeuriploAdapter σ where
  infer
  llmInfer _ state :=
    match infer [] state with
    | (.error what, state) => (.error what, state)
    | (.ok result, state) =>
      (.ok (if !result.ok then { ok := false, error_message := result.error_message }
        else { outputs := result.outputs, finish_reason := "stop" }), state)

def isSupportedInputDatatype (datatype : String) : Bool :=
  datatype ∈ ["BOOL", "INT8", "INT16", "INT32", "INT64", "UINT8", "UINT16", "UINT32", "UINT64", "FP16", "FP32", "FP64"]

/-- The product of a shape from `count` on, none for a negative dimension or when
it overflows. -/
def elementCount : Nat → List Int → Option Nat
  | count, [] => some count
  | count, dimension :: shape =>
    if dimension < 0 then none
    else if dimension ≠ 0 && (2 ^ 64 - 1) / dimension.toNat < count then none
    else elementCount (count * dimension.toNat) shape

def selectedOutputNames (metadata : ModelMetadata) (request : ExecutionRequest) : List String :=
  if request.requested_outputs.isEmpty then metadata.outputs.map (·.name) else request.requested_outputs

def findInput (inputs : List InputTensor) (name : String) : Option InputTensor := inputs.find? (·.name = name)

def findMetadataInput (metadata : ModelMetadata) (name : String) : Option TensorMetadata :=
  metadata.inputs.find? (·.name = name)

def invalidArgument (error_message : String) : ExecutionResponse where
  ok := false
  error_code := "INVALID_ARGUMENT"
  error_message

def backendError (error_message : String) : ExecutionResponse where
  ok := false
  error_code := "BACKEND_ERROR"
  error_message

/-- A negative dimension of the metadata is a dynamic axis and accepts any extent. -/
def shapeAccepts (shape expected : List Int) : Bool :=
  shape.length = expected.length &&
    (List.zipWith (fun dimension expected => !(dimension < 0 || 0 ≤ expected && dimension ≠ expected))
      shape expected).all id

/-- What is wrong with one input, after the names seen so far. -/
def inputError (metadata : ModelMetadata) (seen_input_names : List String) (input : InputTensor) : Option String :=
  if input.name ∈ seen_input_names then some ("duplicate neuriplo input: " ++ input.name)
  else
    match findMetadataInput metadata input.name with
    | none => some ("unknown neuriplo input: " ++ input.name)
    | some metadata_input =>
      if input.datatype ≠ metadata_input.datatype then
        some ("unsupported datatype for neuriplo input: " ++ input.name)
      else if !shapeAccepts input.shape metadata_input.shape then
        some ("invalid shape for neuriplo input: " ++ input.name)
      else if !isSupportedInputDatatype input.datatype then
        some ("unsupported datatype for neuriplo input: " ++ input.name)
      else if elementCount 1 input.shape ≠ some (tensorElementCount input.datatype input.bytes) then
        some ("input data length does not match shape for neuriplo input: " ++ input.name)
      else none

def inputsError (metadata : ModelMetadata) : List String → List InputTensor → Option String
  | _, [] => none
  | seen_input_names, input :: inputs =>
    match inputError metadata seen_input_names input with
    | some error => some error
    | none => inputsError metadata (seen_input_names ++ [input.name]) inputs

/-- The checked inputs of a request, in the order of the metadata. -/
def orderedInputs (metadata : ModelMetadata) (request : ExecutionRequest) :
    Except ExecutionResponse (List InputTensor) :=
  match inputsError metadata [] request.inputs with
  | some error => .error (invalidArgument error)
  | none =>
    metadata.inputs.mapM fun metadata_input =>
      match findInput request.inputs metadata_input.name with
      | none => .error (invalidArgument ("missing required neuriplo input: " ++ metadata_input.name))
      | some input => .ok input

/-- The `try` around a call of the adapter. What is not a `std::exception` goes on
to the caller. -/
def respond {α : Type*} (response : α → ExecutionResponse) :
    Except (Option String) α × σ → Except (Option String) ExecutionResponse × σ
  | (.error (some what), state) => (.ok (backendError what), state)
  | (.error none, state) => (.error none, state)
  | (.ok result, state) => (.ok (response result), state)

@[simp] theorem respond_state {α : Type*} (response : α → ExecutionResponse) (outcome : Except (Option String) α × σ) :
    (respond response outcome).2 = outcome.2 := by
  rcases outcome with ⟨(_ | what) | result, state⟩ <;> rfl

structure NeuriploExecutor where
  metadata_ : ModelMetadata

namespace NeuriploExecutor

def cancelled : ExecutionResponse where
  ok := false
  error_code := "DEADLINE_EXCEEDED"
  error_message := "request cancelled before inference"

def tensorResponse (executor : NeuriploExecutor) (request : ExecutionRequest) (result : NeuriploInferenceResult) :
    ExecutionResponse :=
  if !result.ok then
    backendError (if result.error_message.isEmpty then "neuriplo inference failed" else result.error_message)
  else
    let output_names := selectedOutputNames executor.metadata_ request
    { outputs := result.outputs.filter (·.name ∈ output_names) }

/-- `infer` of a request without generation parameters. The token is read after
the inputs are checked. -/
def inferTensors (executor : NeuriploExecutor) (adapter : NeuriploAdapter σ) (request : ExecutionRequest)
    (is_cancelled : Bool) (state : σ) : Except (Option String) ExecutionResponse × σ :=
  match orderedInputs executor.metadata_ request with
  | .error validation_error => (.ok validation_error, state)
  | .ok inputs =>
    if is_cancelled then (.ok cancelled, state)
    else respond (executor.tensorResponse request) (adapter.infer inputs state)

def extractPrompt (request : ExecutionRequest) : String :=
  ((request.inputs.find? fun input => isBytesDatatype input.datatype && !input.string_data.isEmpty).bind
    (·.string_data.head?)).getD ""

def llmInferenceParams (request : ExecutionRequest) (llm_params : LlmGenerationParams) : LlmInferenceParams where
  prompt := extractPrompt request
  max_tokens := llm_params.max_tokens.getD 256
  temperature := llm_params.temperature.getD 0.8
  top_p := llm_params.top_p.getD 0.95
  top_k := llm_params.top_k.getD 40

def llmResponse (result : LlmInferenceResult) : ExecutionResponse :=
  if !result.ok then
    backendError (if result.error_message.isEmpty then "neuriplo LLM inference failed" else result.error_message)
  else
    { outputs := result.outputs
      llm_metadata := some {
        prompt_tokens := result.prompt_tokens
        completion_tokens := result.completion_tokens
        finish_reason := result.finish_reason } }

/-- `tokens` is what the reads of the cancel token find, in turn. -/
def inferStreaming (executor : NeuriploExecutor) (adapter : NeuriploAdapter σ) (request : ExecutionRequest)
    (tokens : Nat → Bool) (state : σ) : Except (Option String) ExecutionResponse × σ :=
  if tokens 0 then (.ok cancelled, state)
  else
    match request.llm_params with
    | some llm_params => respond llmResponse (adapter.llmInfer (llmInferenceParams request llm_params) state)
    | none => executor.inferTensors adapter request (tokens 1) state

def infer (executor : NeuriploExecutor) (adapter : NeuriploAdapter σ) (request : ExecutionRequest)
    (tokens : Nat → Bool) (state : σ) : Except (Option String) ExecutionResponse × σ :=
  match request.llm_params with
  | some _ => executor.inferStreaming adapter request tokens state
  | none => executor.inferTensors adapter request (tokens 0) state

end NeuriploExecutor

inductive AdapterCall where
  | infer (inputs : List InputTensor)
  | llmInfer (params : LlmInferenceParams)
deriving DecidableEq, Repr

/-- The same adapter, with a log of its calls beside its state. -/
def NeuriploAdapter.recording (adapter : NeuriploAdapter σ) : NeuriploAdapter (σ × List AdapterCall) where
  infer inputs state :=
    let (result, next) := adapter.infer inputs state.1
    (result, next, state.2 ++ [.infer inputs])
  llmInfer params state :=
    let (result, next) := adapter.llmInfer params state.1
    (result, next, state.2 ++ [.llmInfer params])

namespace NeuriploExecutor

variable {request : ExecutionRequest} {llm_params : LlmGenerationParams}

/-- A request with generation parameters is streamed. -/
theorem infer_of_params (executor : NeuriploExecutor) (adapter : NeuriploAdapter σ)
    (hparams : request.llm_params = some llm_params) (tokens : Nat → Bool) (state : σ) :
    executor.infer adapter request tokens state = executor.inferStreaming adapter request tokens state := by
  rw [infer, hparams]

/-- With generation parameters there is one generation, unless the request was
cancelled before, and no input is looked at. -/
theorem inferStreaming_recording (executor : NeuriploExecutor) (adapter : NeuriploAdapter σ)
    (hparams : request.llm_params = some llm_params) (tokens : Nat → Bool) (state : σ) :
    (executor.inferStreaming adapter.recording request tokens (state, [])).2.2 =
        (if tokens 0 then [] else [.llmInfer (llmInferenceParams request llm_params)]) ∧
      (tokens 0 = true →
        (executor.inferStreaming adapter.recording request tokens (state, [])).1 = .ok cancelled) := by
  rw [inferStreaming, hparams]
  cases tokens 0 with
  | true => exact ⟨rfl, fun _ => rfl⟩
  | false =>
    rw [if_neg Bool.false_ne_true, if_neg Bool.false_ne_true, respond_state]
    exact ⟨rfl, nofun⟩

end NeuriploExecutor

end neuriplo.executor
