import NeuriploRuntime.Pipeline.Config
import NeuriploRuntime.Registry.State

open neuriplo.config neuriplo.model neuriplo.registry neuriplo.tensor

namespace neuriplo.pipeline

/-- A step of a pipeline under construction, with the tensors it was found to
consume and produce, in its own naming. -/
structure Step where
  config : PipelineStepConfig
  inputs : List TensorMetadata
  outputs : List TensorMetadata
deriving DecidableEq, Repr

/-- What `makeBuiltinPipelineStep` returns for a step attached to a model with
the given metadata: the tensors of the step, or the error it sets. The task
layer it rests on is an optional dependency. -/
abbrev BuiltinSteps := PipelineStepConfig → ModelMetadata → Except String (List TensorMetadata × List TensorMetadata)

/-- The model step a builtin step at `index` is attached to: the next one for a
preprocess step, the last one before it for a postprocess step. -/
def neighbourModelStep (graph : PipelineConfig) (index : Nat) (kind : PipelineStepKind) :
    Option PipelineStepConfig :=
  if kind = .preprocess then (graph.steps.drop (index + 1)).find? (·.kind = .model)
  else (graph.steps.take index).reverse.find? (·.kind = .model)

def neighbourModelMetadata (registry : ModelRegistry) (graph : PipelineConfig) (index : Nat)
    (kind : PipelineStepKind) : Except String ModelMetadata :=
  match neighbourModelStep graph index kind with
  | none => .error ("pipeline step at position " ++ toString index ++ " has no adjacent model step")
  | some candidate =>
    match registry.resolve candidate.modelStep with
    | none =>
      .error ("pipeline references model '" ++ candidate.model_name ++
        "' which is not loaded; load it before the pipeline")
    | some snapshot =>
      if registry.snapshotReady snapshot then .ok snapshot.metadata
      else .error ("pipeline references model '" ++ candidate.model_name ++
        "' which is not loaded; load it before the pipeline")

/-- The part of the loop of `makePipelineExecutor` for the step at `index`: one
look at the registry, under the registry's lock. -/
def makeStep (registry : ModelRegistry) (builtins : BuiltinSteps) (pipeline_name : String)
    (graph : PipelineConfig) (index : Nat) (step_config : PipelineStepConfig) : Except String Step :=
  if step_config.kind = .model then
    if step_config.model_name = pipeline_name then
      .error ("pipeline step '" ++ step_config.name ++ "' references its own pipeline '" ++
        pipeline_name ++ "'; a pipeline cannot reference itself")
    else
      match registry.resolve step_config.modelStep with
      | none =>
        .error ("pipeline step '" ++ step_config.name ++ "' references model '" ++
          step_config.model_name ++ "' which is not loaded")
      | some snapshot =>
        if !registry.snapshotReady snapshot then
          .error ("pipeline step '" ++ step_config.name ++ "' references model '" ++
            step_config.model_name ++ "' which is not loaded")
        else if snapshot.metadata.platform = "ensemble" then
          .error ("pipeline step '" ++ step_config.name ++ "' references model '" ++
            step_config.model_name ++ "' which is itself an ensemble; nested ensembles are not supported")
        else .ok ⟨step_config, snapshot.metadata.inputs, snapshot.metadata.outputs⟩
  else do
    let neighbour ← neighbourModelMetadata registry graph index step_config.kind
    let (inputs, outputs) ← builtins step_config neighbour
    return ⟨step_config, inputs, outputs⟩

/-- The availability check over steps whose tensor names are known. -/
def checkWiring : List Step → List String → Except String Unit
  | [], _ => .ok ()
  | step :: steps, available =>
    match step.inputs.find? fun declared => mapped step.config.input_map declared.name ∉ available with
    | some declared =>
      .error ("pipeline step '" ++ step.config.name ++ "' consumes tensor '" ++
        mapped step.config.input_map declared.name ++ "' that no earlier step produces")
    | none =>
      checkWiring steps
        (available ++ step.outputs.map fun produced => mapped step.config.output_map produced.name)

/-- A pipeline executor: the steps it runs in order. -/
structure PipelineExecutor where
  model_name : String
  steps : List Step
deriving DecidableEq, Repr

/-- The metadata the constructor composes: the first step's inputs and the last
step's outputs, both in graph naming. -/
def PipelineExecutor.metadata (pipeline : PipelineExecutor) : ModelMetadata where
  name := pipeline.model_name
  versions := ["1"]
  platform := "ensemble"
  inputs := (pipeline.steps.head?.map fun step => step.inputs.map fun input =>
    { input with name := mapped step.config.input_map input.name }).getD []
  outputs := (pipeline.steps.getLast?.map fun step => step.outputs.map fun output =>
    { output with name := mapped step.config.output_map output.name }).getD []

def PipelineExecutor.executor (pipeline : PipelineExecutor) : Executor where
  metadata := pipeline.metadata
  model_steps := (pipeline.steps.filter (·.config.kind = .model)).map (·.config.modelStep)

/-- The end of `makePipelineExecutor`, once every step is resolved. -/
def assemble (model_name : String) (steps : List Step) : Except String PipelineExecutor := do
  let available := (steps.head?.map fun step => step.inputs.map fun declared =>
    mapped step.config.input_map declared.name).getD []
  checkWiring steps available
  return { model_name, steps }

/-- A pipeline cannot be batched; refused before its graph is read. -/
def batchingError (config : RuntimeConfig) : Option String :=
  if config.dynamic_batching_enabled || 1 < config.max_batch_size then
    some ("pipeline models cannot batch: max_batch_size is 1 by contract, but this model " ++
      "was configured with dynamic batching")
  else none

/-- The executors `makePipelineFactory` has built so far, and the error of the
one that failed. -/
structure Prebuilt where
  executors : List PipelineExecutor := []
  build_error : String := ""
deriving DecidableEq, Repr

/-- The factory handed to the lifecycle: each call gives out the next executor. -/
def Prebuilt.factory (prebuilt : Prebuilt) : ExecutorFactory := fun call error =>
  match prebuilt.executors[call]? with
  | some pipeline => .executor pipeline.executor error
  | none =>
    .null (if prebuilt.build_error.isEmpty then "pipeline executor unavailable" else prebuilt.build_error)

/-- Where the construction of one pipeline executor stands: about to read its
graph, or with the first `steps` of the graph resolved. -/
inductive Construction where
  | reading
  | resolving (graph : PipelineConfig) (steps : List Step)
deriving DecidableEq, Repr

/-- How far `makePipelineFactory` is after a section of its loop: still at an
executor, or done. -/
inductive Progress where
  | building (construction : Construction) (prebuilt : Prebuilt)
  | done (prebuilt : Prebuilt)

/-- After an executor, the loop goes on to the next instance, if any is left. -/
def Prebuilt.push (prebuilt : Prebuilt) (config : RuntimeConfig) (executor : PipelineExecutor) : Progress :=
  let prebuilt := { prebuilt with executors := prebuilt.executors ++ [executor] }
  if prebuilt.executors.length < max config.instances 1 then .building .reading prebuilt
  else .done prebuilt

/-- The loop stops at the first executor that fails. -/
def Prebuilt.fail (prebuilt : Prebuilt) (error : String) : Progress :=
  .done { prebuilt with build_error := error }

/-- Reading the graph: the text and what `parsePipelineConfig` makes of it come
from outside, the text from a file that may change between instances. -/
def Prebuilt.read (prebuilt : Prebuilt) (config : RuntimeConfig) (graph : Except String PipelineConfig) :
    Progress :=
  match batchingError config with
  | some error => prebuilt.fail error
  | none =>
    match graph with
    | .error error => prebuilt.fail error
    | .ok graph => .building (.resolving graph []) prebuilt

/-- Resolving the next step of the graph, or assembling the executor after the
last one. -/
def Prebuilt.resolve (prebuilt : Prebuilt) (registry : ModelRegistry) (builtins : BuiltinSteps)
    (config : RuntimeConfig) (graph : PipelineConfig) (steps : List Step) : Progress :=
  match graph.steps[steps.length]? with
  | none =>
    match assemble config.model_name steps with
    | .error error => prebuilt.fail error
    | .ok executor => prebuilt.push config executor
  | some step_config =>
    match makeStep registry builtins config.model_name graph steps.length step_config with
    | .error error => prebuilt.fail error
    | .ok step => .building (.resolving graph (steps ++ [step])) prebuilt

end neuriplo.pipeline
