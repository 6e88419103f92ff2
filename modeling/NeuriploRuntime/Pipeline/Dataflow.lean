import NeuriploRuntime.Pipeline.Wiring
import NeuriploRuntime.Store.Dataflow

open neuriplo.model neuriplo.scheduler neuriplo.tensor

namespace neuriplo.pipeline

/-- What a step makes of its inputs alone, no tensor of it one that its metadata does not declare. -/
structure StepFunction where
  run : Step → List OutputTensor → Except ExecutionResponse (List OutputTensor)
  declared : ∀ step step_inputs step_outputs, run step step_inputs = .ok step_outputs →
    ∀ produced ∈ step_outputs, produced.name ∈ step.outputs.map (·.name)

/-- Values read under the graph names, each under the name that the step has for it. -/
def Step.received (step : Step) (values : List OutputTensor) : List OutputTensor :=
  List.zipWith (fun declared found => { found with name := declared.name }) step.inputs values

def Step.published (step : Step) (step_outputs : List OutputTensor) : List (String × OutputTensor) :=
  step_outputs.map fun produced =>
    (step.graphOutput produced.name, { produced with name := step.graphOutput produced.name })

def StepFunction.node (function : StepFunction) (step : Step) : store.Node String OutputTensor where
  reads := step.graphInputs
  writes := step.graphOutputs
  fire values := (function.run step (step.received values)).toOption.map step.published
  within values entries hfire entry hentry := by
    cases hrun : function.run step (step.received values) with
    | error response =>
      rw [hrun] at hfire
      cases hfire
    | ok step_outputs =>
      rw [hrun] at hfire
      obtain rfl := Option.some.inj hfire
      obtain ⟨produced, hproduced, rfl⟩ := List.mem_map.mp hentry
      obtain ⟨declared, hdeclared, hname⟩ := List.mem_map.mp (function.declared step _ _ hrun produced hproduced)
      rw [← hname]
      exact List.mem_map.mpr ⟨declared, hdeclared, rfl⟩

/-- The values of a graph on a request: what the request brings, and of every step what it makes of the values
it reads. Nothing is said of an order of the steps. -/
abbrev PipelineExecutor.SolvedBy (pipeline : PipelineExecutor) (function : StepFunction) (request : ExecutionRequest)
    (values : Values) : Prop :=
  store.Solves (pipeline.steps.map function.node) (requestValues request) values

/-- Every tensor of the graph comes from one step, and none of them under the name of a composed input. -/
structure PipelineExecutor.SingleAssignment (pipeline : PipelineExecutor) : Prop where
  apart : pipeline.steps.Pairwise fun step other => List.Disjoint step.graphOutputs other.graphOutputs
  inputs : ∀ step ∈ pipeline.steps, List.Disjoint (pipeline.metadata.inputs.map (·.name)) step.graphOutputs

instance (pipeline : PipelineExecutor) : Decidable pipeline.SingleAssignment :=
  decidable_of_iff
    ((pipeline.steps.Pairwise fun (step other : Step) => ∀ name ∈ step.graphOutputs, name ∉ other.graphOutputs) ∧
      ∀ step ∈ pipeline.steps, ∀ name ∈ pipeline.metadata.inputs.map TensorMetadata.name, name ∉ step.graphOutputs)
    ⟨fun hsingle => ⟨hsingle.1, hsingle.2⟩, fun hsingle => ⟨hsingle.apart, hsingle.inputs⟩⟩

/-- A request brings nothing but composed inputs. The JSON codec refuses any other
input, while a gRPC request is not compared with the metadata. -/
def PipelineExecutor.Accepts (pipeline : PipelineExecutor) (request : ExecutionRequest) : Prop :=
  ∀ tensor ∈ request.inputs, tensor.name ∈ pipeline.metadata.inputs.map (·.name)

instance (pipeline : PipelineExecutor) (request : ExecutionRequest) : Decidable (pipeline.Accepts request) :=
  inferInstanceAs (Decidable (∀ tensor ∈ request.inputs, _))

variable {σ : Type*}

/-- Backends on which what a step answers does not depend on what ran before. -/
def Backends.Computes (backends : Backends σ) (function : StepFunction) : Prop :=
  ∀ step step_inputs state, (backends.runStep step step_inputs state).1 = function.run step step_inputs

/-- A step publishes its outputs under the graph's names. -/
theorem publish_eq (step : Step) (step_outputs : List OutputTensor) (values : Values) :
    publish step step_outputs values = store.writeAll values (step.published step_outputs) := by
  rw [publish, store.writeAll, Step.published, List.foldl_map]
  rfl

/-- A step reads its inputs from the graph's tensors, under its own names. -/
theorem copyInputs_eq (step : Step) (values : Values) (ahead : List TensorMetadata) :
    (copyInputs step values ahead).toOption = ((ahead.map step.graphInput).mapM values).map
      (List.zipWith (fun declared found => { found with name := declared.name }) ahead) := by
  induction ahead with
  | nil => rfl
  | cons declared ahead ih =>
    rw [List.map_cons, List.mapM_cons, copyInputs]
    cases values (step.graphInput declared) with
    | none => rfl
    | some found =>
      cases hrest : (ahead.map step.graphInput).mapM values with
      | none =>
        rw [hrest] at ih
        cases hcopy : copyInputs step values ahead with
        | error response => rfl
        | ok step_inputs =>
          rw [hcopy] at ih
          cases ih
      | some others =>
        rw [hrest] at ih
        cases hcopy : copyInputs step values ahead with
        | error response =>
          rw [hcopy] at ih
          cases ih
        | ok step_inputs =>
          rw [hcopy] at ih
          obtain rfl := Option.some.inj ih
          rfl

/-- The steps one after the other are a run of the network. -/
theorem runCopying_eq {backends : Backends σ} {function : StepFunction} (hcomputes : backends.Computes function)
    (steps : List Step) (values : Values) (state : σ) :
    (runCopying backends.runStep steps values state).1.toOption = store.run (steps.map function.node) values := by
  induction steps generalizing values state with
  | nil => rfl
  | cons step steps ih =>
    have hinputs := copyInputs_eq step values step.inputs
    rw [List.map_cons, store.run, runCopying]
    cases hcopy : copyInputs step values step.inputs with
    | error response =>
      rw [hcopy] at hinputs
      have hread : (function.node step).reads.mapM values = none := Option.map_eq_none_iff.mp hinputs.symm
      rw [hread]
      rfl
    | ok step_inputs =>
      rw [hcopy] at hinputs
      obtain ⟨found, hread, hreceived⟩ := Option.map_eq_some_iff.mp hinputs.symm
      have hread : (function.node step).reads.mapM values = some found := hread
      have hreceived : step.received found = step_inputs := hreceived
      have hfire : (function.node step).fire found =
          (backends.runStep step step_inputs state).1.toOption.map step.published := by
        rw [hcomputes, ← hreceived]
        rfl
      dsimp only
      rw [hread, Option.bind_some, hfire]
      cases backends.runStep step step_inputs state with
      | mk result next =>
        cases result with
        | error response => rfl
        | ok step_outputs =>
          dsimp only
          rw [ih, publish_eq]
          rfl

/-- An input that is not there ends the request. -/
theorem copyInputs_failed {step : Step} {values : Values} {ahead : List TensorMetadata} {response : ExecutionResponse}
    (hcopy : copyInputs step values ahead = .error response) : response.ok = false := by
  induction ahead with
  | nil => cases hcopy
  | cons declared ahead ih =>
    rw [copyInputs] at hcopy
    cases hfound : values (step.graphInput declared) with
    | none =>
      rw [hfound] at hcopy
      cases hcopy
      rfl
    | some found =>
      rw [hfound] at hcopy
      cases hrest : copyInputs step values ahead with
      | error other =>
        rw [hrest] at hcopy
        cases hcopy
        exact ih hrest
      | ok step_inputs =>
        rw [hrest] at hcopy
        cases hcopy

/-- A step that fails ends the request. -/
theorem runStep_failed (backends : Backends σ) {step : Step} {step_inputs : List OutputTensor} {state : σ}
    {response : ExecutionResponse} (hrun : (backends.runStep step step_inputs state).1 = .error response) :
    response.ok = false := by
  unfold Backends.runStep at hrun
  split at hrun
  · cases hok : (backends.runModelStep step step_inputs state).1.ok with
    | true =>
      simp only [hok, if_true] at hrun
      cases hrun
    | false =>
      simp only [hok, Bool.false_eq_true, if_false, Except.error.injEq] at hrun
      rw [← hrun]
      exact hok
  · split at hrun
    · cases hrun
    · cases hrun
      rfl

/-- Whatever ends a request before its response is an error. -/
theorem runCopying_failed (backends : Backends σ) {steps : List Step} {values : Values} {state : σ}
    {response : ExecutionResponse} (hrun : (runCopying backends.runStep steps values state).1 = .error response) :
    response.ok = false := by
  induction steps generalizing values state with
  | nil => cases hrun
  | cons step steps ih =>
    rw [runCopying] at hrun
    cases hcopy : copyInputs step values step.inputs with
    | error other =>
      rw [hcopy] at hrun
      cases hrun
      exact copyInputs_failed hcopy
    | ok step_inputs =>
      rw [hcopy] at hrun
      cases hanswer : backends.runStep step step_inputs state with
      | mk result next =>
        cases result with
        | error other =>
          simp only [hanswer] at hrun
          cases hrun
          apply runStep_failed backends
          rw [hanswer]
        | ok step_outputs =>
          simp only [hanswer] at hrun
          exact ih hrun

section Pipelines

variable {backends : Backends σ} {function : StepFunction} {pipeline : PipelineExecutor} {request : ExecutionRequest}
  {state : σ} {values : Values}

/-- A run of the network answers the request. -/
theorem infer_of_run (hcomputes : backends.Computes function)
    (hrun : store.run (pipeline.steps.map function.node) (requestValues request) = some values) :
    (pipeline.infer backends request state).1 = makeResponse request pipeline.outputNames values := by
  rw [← runCopying_eq hcomputes pipeline.steps (requestValues request) state] at hrun
  rw [PipelineExecutor.infer, PipelineExecutor.inferWith_eq_copyingWith, PipelineExecutor.copyingWith]
  cases hcopying : runCopying backends.runStep pipeline.steps (requestValues request) state with
  | mk result next =>
    rw [hcopying] at hrun
    cases result with
    | error response => cases hrun
    | ok final =>
      obtain rfl := Option.some.inj hrun
      rfl

/-- A response is one of a run. -/
theorem run_of_infer (hcomputes : backends.Computes function)
    (hok : (pipeline.infer backends request state).1.ok = true) :
    ∃ values, store.run (pipeline.steps.map function.node) (requestValues request) = some values := by
  rw [← runCopying_eq hcomputes pipeline.steps (requestValues request) state]
  rw [PipelineExecutor.infer, PipelineExecutor.inferWith_eq_copyingWith, PipelineExecutor.copyingWith] at hok
  cases hrun : runCopying backends.runStep pipeline.steps (requestValues request) state with
  | mk result next =>
    cases result with
    | ok values => exact ⟨values, rfl⟩
    | error response =>
      have hfailed : response.ok = false := by
        apply runCopying_failed backends
        rw [hrun]
      rw [hrun] at hok
      cases hfailed.symm.trans hok

/-- A request brings nothing under other names. -/
theorem requestValues_of_not_mem {name : String} (hname : ∀ tensor ∈ request.inputs, tensor.name ≠ name) :
    requestValues request name = none := by
  have hfold : ∀ (inputs : List InputTensor) (values : Values), (∀ tensor ∈ inputs, tensor.name ≠ name) →
      inputs.foldl Values.emplace values name = values name := by
    intro inputs
    induction inputs with
    | nil => exact fun _ _ => rfl
    | cons tensor inputs ih =>
      intro values hother
      obtain ⟨hfirst, hother⟩ := List.forall_mem_cons.mp hother
      rw [List.foldl_cons, ih _ hother, Values.emplace]
      split
      · rfl
      · exact Function.update_of_ne hfirst.symm _ _
  exact hfold request.inputs _ hname

/-- With single assignment the network writes every tensor once. -/
theorem PipelineExecutor.SingleAssignment.writesOnce (hsingle : pipeline.SingleAssignment)
    (haccepts : pipeline.Accepts request) :
    store.WritesOnce (pipeline.steps.map function.node) (requestValues request) where
  apart := List.pairwise_map.mpr hsingle.apart
  fresh := by
    rw [List.forall_mem_map]
    intro step hstep name hname
    apply requestValues_of_not_mem
    rintro tensor htensor rfl
    exact hsingle.inputs step hstep (haccepts tensor htensor) hname

/-- A graph that passes the wiring check has its steps in order. -/
theorem ordered_of_checkWiring {steps : List Step} {available : List String}
    (hcheck : checkWiring steps available = .ok ()) : store.Ordered (steps.map function.node) available := by
  induction steps generalizing available with
  | nil => trivial
  | cons step steps ih =>
    obtain ⟨hinputs, hcheck⟩ := checkWiring_cons hcheck
    refine ⟨?_, ih hcheck⟩
    intro name hname
    obtain ⟨declared, hdeclared, rfl⟩ := List.mem_map.mp hname
    exact hinputs declared hdeclared

/-- With single assignment no step writes a composed input. -/
theorem PipelineExecutor.SingleAssignment.available (hsingle : pipeline.SingleAssignment) :
    ∀ node ∈ pipeline.steps.map function.node,
      List.Disjoint (pipeline.metadata.inputs.map (·.name)) node.writes := by
  rw [List.forall_mem_map]
  exact hsingle.inputs

/-- A loaded pipeline runs into any solution of its graph. -/
theorem run_of_solvedBy (hloaded : assemble pipeline.model_name pipeline.steps = .ok pipeline)
    (hsingle : pipeline.SingleAssignment) (haccepts : pipeline.Accepts request)
    (hsolved : pipeline.SolvedBy function request values) :
    store.run (pipeline.steps.map function.node) (requestValues request) = some values :=
  store.run_of_solves (hsingle.writesOnce haccepts) (ordered_of_checkWiring (assemble_ok hloaded).2) hsingle.available
    hsolved

end Pipelines

/-- A pipeline computes the values of its graph: the response lists those that solve it, and there are some, and
but one of them, when a request succeeds. A graph of the same steps in another order that loads as well answers
alike. -/
theorem graph_solved {backends : Backends σ} {function : StepFunction} (hcomputes : backends.Computes function)
    {pipeline : PipelineExecutor} (hloaded : assemble pipeline.model_name pipeline.steps = .ok pipeline)
    (hsingle : pipeline.SingleAssignment) {request : ExecutionRequest} (haccepts : pipeline.Accepts request)
    (state : σ) :
    (∀ values, pipeline.SolvedBy function request values →
      (pipeline.infer backends request state).1 = makeResponse request pipeline.outputNames values) ∧
    ((pipeline.infer backends request state).1.ok = true →
      (∃! values, pipeline.SolvedBy function request values) ∧
      ∀ other : PipelineExecutor, assemble other.model_name other.steps = .ok other → other.SingleAssignment →
        other.steps.Perm pipeline.steps → other.outputNames = pipeline.outputNames →
        ∀ later, (other.infer backends request later).1 = (pipeline.infer backends request state).1) := by
  constructor
  · intro values hsolved
    exact infer_of_run hcomputes (run_of_solvedBy hloaded hsingle haccepts hsolved)
  · intro hok
    obtain ⟨values, hrun⟩ := run_of_infer hcomputes hok
    constructor
    · refine ⟨values, store.solves_of_run (hsingle.writesOnce haccepts) hrun, ?_⟩
      intro others hsolved
      apply Option.some.inj
      rw [← hrun, run_of_solvedBy hloaded hsingle haccepts hsolved]
    · intro other hother hotherSingle hperm houtputs later
      have hotherRun : store.run (other.steps.map function.node) (requestValues request) = some values :=
        store.run_perm (hperm.symm.map function.node) (hsingle.writesOnce haccepts)
          (ordered_of_checkWiring (assemble_ok hother).2) hotherSingle.available hrun
      rw [infer_of_run hcomputes hrun, infer_of_run hcomputes hotherRun, houtputs]

def joinStep (name : String) (inputs outputs : List String) : Step where
  config := { kind := .preprocess, name }
  inputs := inputs.map fun input => { name := input, datatype := "BYTES", shape := [1] }
  outputs := outputs.map fun output => { name := output, datatype := "BYTES", shape := [1] }

/-- Every output of a step has the bytes of its inputs behind one another. -/
def joinBackends : Backends Unit where
  run step step_inputs _ := (.ok (step.outputs.map fun declared =>
    { name := declared.name, datatype := declared.datatype, shape := declared.shape,
      bytes := step_inputs.flatMap (·.bytes) }), ())
  resolve _ _ _ := (none, ())

def joinFunction : StepFunction where
  run step step_inputs := (joinBackends.runStep step step_inputs ()).1
  declared step step_inputs step_outputs hrun := by
    unfold Backends.runStep at hrun
    split at hrun
    · cases hrun
    · obtain rfl := Except.ok.inj hrun
      intro produced hproduced
      obtain ⟨declared, hdeclared, rfl⟩ := List.mem_map.mp hproduced
      exact List.mem_map_of_mem hdeclared

def branching (second third : Step) : PipelineExecutor where
  model_name := "branching"
  steps := [joinStep "split" ["IMAGE"] ["a", "b"], second, third, joinStep "join" ["l", "r"] ["OUT"]]

/-- A graph of two branches, in either order of them. -/
theorem graph_solved_branching :
    let left := joinStep "left" ["a"] ["l"]
    let right := joinStep "right" ["b"] ["r"]
    let request : ExecutionRequest := { inputs := [⟨"IMAGE", "BYTES", [1], [7], []⟩] }
    let answer := ((branching left right).infer joinBackends request ()).1
    answer.ok = true ∧ ((branching right left).infer joinBackends request ()).1 = answer := by
  intro left right request answer
  have hok : answer.ok = true := by rfl
  have hcomputes : joinBackends.Computes joinFunction := fun _ _ _ => rfl
  have hloaded : assemble "branching" (branching left right).steps = .ok (branching left right) := by rfl
  have hother : assemble "branching" (branching right left).steps = .ok (branching right left) := by rfl
  have hperm : (branching right left).steps.Perm (branching left right).steps := (List.Perm.swap _ _ _).cons _
  have hsolved := graph_solved hcomputes hloaded (by decide) (by decide : (branching left right).Accepts request) ()
  exact ⟨hok, (hsolved.2 hok).2 (branching right left) hother (by decide) hperm rfl ()⟩

end neuriplo.pipeline
