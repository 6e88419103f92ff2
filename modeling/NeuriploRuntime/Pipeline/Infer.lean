import NeuriploRuntime.Pipeline.Build
import NeuriploRuntime.Scheduler.Result
import NeuriploRuntime.Store.Liveness

open neuriplo.config neuriplo.model neuriplo.scheduler neuriplo.tensor

namespace neuriplo.pipeline

/-- The tensors of a running request under their graph names. -/
abbrev Values := String → Option OutputTensor

def Values.store (values : Values) (name : String) (tensor : OutputTensor) : Values :=
  Function.update values name (some tensor)

def Values.erase (values : Values) (name : String) : Values := Function.update values name none

/-- The first of several request inputs of one name is the one kept. -/
def Values.emplace (values : Values) (tensor : OutputTensor) : Values :=
  if (values tensor.name).isSome then values else values.store tensor.name tensor

def requestValues (request : ExecutionRequest) : Values :=
  request.inputs.foldl Values.emplace fun _ => none

def failure (error_code error_message : String) : ExecutionResponse where
  ok := false
  error_code
  error_message

def Step.graphInput (step : Step) (declared : TensorMetadata) : String :=
  mapped step.config.input_map declared.name

def Step.graphInputs (step : Step) : List String := step.inputs.map step.graphInput

def Step.graphOutput (step : Step) (name : String) : String := mapped step.config.output_map name

def Step.graphOutputs (step : Step) : List String := step.outputs.map fun produced => step.graphOutput produced.name

/-- The names of the composed outputs. -/
def PipelineExecutor.outputNames (pipeline : PipelineExecutor) : List String :=
  pipeline.metadata.outputs.map (·.name)

/-- The last step consuming each graph tensor; tensors leaving as outputs are
absent, since they must survive to the response. -/
def PipelineExecutor.indexLastUse (pipeline : PipelineExecutor) : String → Option Nat :=
  pipeline.outputNames.foldl (fun last_use name => Function.update last_use name none)
    (store.lastRead 0 (pipeline.steps.map Step.graphInputs) fun _ => none)

/-- One dimension always stays. -/
def trimLeadingOnes : List Int → List Int
  | dimension :: next :: shape =>
    if dimension = 1 then trimLeadingOnes (next :: shape) else dimension :: next :: shape
  | shape => shape

def sameAfterDroppingLeadingOnes (left right : List Int) : Bool :=
  trimLeadingOnes left = trimLeadingOnes right

/-- Validation accepts any extent of a dynamic axis, so such a shape is left
alone. -/
def adoptDeclaredShape (declared_inputs : List TensorMetadata) (tensor : OutputTensor) : OutputTensor :=
  match declared_inputs.find? (·.name = tensor.name) with
  | none => tensor
  | some declared =>
    if declared.shape = tensor.shape then tensor
    else if declared.shape.any (· < 0) then tensor
    else if sameAfterDroppingLeadingOnes declared.shape tensor.shape then
      { tensor with shape := declared.shape }
    else tensor

variable {σ : Type*}

/-- What a pipeline runs its steps on, as a machine with a state of its own: the
builtin steps, and the models its resolver finds ready, each as the `submit` of
its scheduler. -/
structure Backends (σ : Type*) where
  run : Step → List OutputTensor → σ → Except String (List OutputTensor) × σ
  resolve : (model_name model_version : String) → σ → Option (ExecutionRequest → σ → SchedulerResult × σ) × σ

def modelStepResponse (step : Step) (scheduled : SchedulerResult) : ExecutionResponse :=
  if !scheduled.ok then
    failure (if scheduled.error_code.isEmpty then "INTERNAL" else scheduled.error_code)
      ("pipeline step '" ++ step.config.name ++ "': " ++ scheduled.error_message)
  else scheduled.response

def Backends.runModelStep (backends : Backends σ) (step : Step) (step_inputs : List OutputTensor) (state : σ) :
    ExecutionResponse × σ :=
  match backends.resolve step.config.model_name step.config.model_version state with
  | (none, state) =>
    (failure "MODEL_NOT_READY" ("pipeline step '" ++ step.config.name ++ "' references model '" ++
      step.config.model_name ++ "' which is not ready"), state)
  | (some submit, state) =>
    let (scheduled, state) := submit { inputs := step_inputs.map (adoptDeclaredShape step.inputs) } state
    (modelStepResponse step scheduled, state)

/-- What a step makes of its inputs: its outputs, or the response that ends the
request. -/
abbrev StepRunner (σ : Type*) := Step → List OutputTensor → σ → Except ExecutionResponse (List OutputTensor) × σ

def Backends.runStep (backends : Backends σ) : StepRunner σ := fun step step_inputs state =>
  if step.config.kind = .model then
    let (response, state) := backends.runModelStep step step_inputs state
    (if response.ok then .ok response.outputs else .error response, state)
  else
    match backends.run step step_inputs state with
    | (.ok step_outputs, state) => (.ok step_outputs, state)
    | (.error error, state) => (.error (failure "INVALID_ARGUMENT" error), state)

def missingInput (step : Step) (graph_name : String) : ExecutionResponse :=
  failure "INVALID_ARGUMENT"
    ("pipeline step '" ++ step.config.name ++ "' is missing input tensor '" ++ graph_name ++ "'")

def missingOutput (name : String) : ExecutionResponse :=
  failure "INTERNAL" ("pipeline produced no tensor named '" ++ name ++ "'")

/-- The loop over a step's declared inputs. A tensor is moved out of the values
by its last use, unless a later input of the same step still needs it. -/
def takeInputs (last_use : String → Option Nat) (step_index : Nat) (step : Step) :
    List TensorMetadata → Values → Except ExecutionResponse (List OutputTensor × Values)
  | [], values => .ok ([], values)
  | declared :: ahead, values =>
    let graph_name := step.graphInput declared
    match values graph_name with
    | none => .error (missingInput step graph_name)
    | some found =>
      let needed_later_in_step := ahead.any fun other => step.graphInput other = graph_name
      let is_last_use := last_use graph_name = some step_index
      let values := if !needed_later_in_step && is_last_use then values.erase graph_name else values
      match takeInputs last_use step_index step ahead values with
      | .error response => .error response
      | .ok (step_inputs, values) => .ok ({ found with name := declared.name } :: step_inputs, values)

/-- A step's outputs enter the graph under their graph names, over what was
there. -/
def publish (step : Step) (step_outputs : List OutputTensor) (values : Values) : Values :=
  step_outputs.foldl
    (fun values produced =>
      values.store (step.graphOutput produced.name) { produced with name := step.graphOutput produced.name })
    values

def runSteps (run : StepRunner σ) (last_use : String → Option Nat) :
    Nat → List Step → Values → σ → Except ExecutionResponse Values × σ
  | _, [], values, state => (.ok values, state)
  | step_index, step :: steps, values, state =>
    match takeInputs last_use step_index step step.inputs values with
    | .error response => (.error response, state)
    | .ok (step_inputs, values) =>
      match run step step_inputs state with
      | (.error response, state) => (.error response, state)
      | (.ok step_outputs, state) =>
        runSteps run last_use (step_index + 1) steps (publish step step_outputs values) state

/-- The composed outputs a request asked for; all of them when it named none. -/
def wantedOutputs (request : ExecutionRequest) (names : List String) : List String :=
  names.filter fun name => request.requested_outputs = [] ∨ name ∈ request.requested_outputs

def collectOutputs (values : Values) : List String → Except ExecutionResponse (List OutputTensor)
  | [] => .ok []
  | name :: names =>
    match values name with
    | none => .error (missingOutput name)
    | some found =>
      match collectOutputs values names with
      | .error response => .error response
      | .ok outputs => .ok (found :: outputs)

def makeResponse (request : ExecutionRequest) (names : List String) (values : Values) : ExecutionResponse :=
  match collectOutputs values (wantedOutputs request names) with
  | .error response => response
  | .ok outputs => { outputs }

def PipelineExecutor.inferWith (run : StepRunner σ) (pipeline : PipelineExecutor) (request : ExecutionRequest)
    (state : σ) : ExecutionResponse × σ :=
  match runSteps run pipeline.indexLastUse 0 pipeline.steps (requestValues request) state with
  | (.error response, state) => (response, state)
  | (.ok values, state) => (makeResponse request pipeline.outputNames values, state)

def PipelineExecutor.infer (backends : Backends σ) (pipeline : PipelineExecutor) (request : ExecutionRequest)
    (state : σ) : ExecutionResponse × σ :=
  pipeline.inferWith backends.runStep request state

end neuriplo.pipeline
