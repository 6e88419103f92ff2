import NeuriploRuntime.Model.Lifecycle

open neuriplo.model neuriplo.tensor

namespace neuriplo.pipeline

inductive PipelineStepKind where
  | model
  | preprocess
  | postprocess
deriving DecidableEq, Repr

/-- The maps are from a step's own tensor names to graph tensor names. -/
structure PipelineStepConfig where
  kind : PipelineStepKind := .model
  name : String
  model_name : String := ""
  model_version : String := ""
  input_map : List (String × String) := []
  output_map : List (String × String) := []
deriving DecidableEq, Repr

structure PipelineConfig where
  steps : List PipelineStepConfig
deriving DecidableEq, Repr

/-- The graph name of a step's tensor; without an entry the names coincide. -/
def mapped (map : List (String × String)) (name : String) : String :=
  (map.lookup name).getD name

def PipelineStepConfig.modelStep (step : PipelineStepConfig) : ModelStep :=
  ⟨step.model_name, step.model_version⟩

end neuriplo.pipeline
