import NeuriploRuntime.Pipeline.Moves

open neuriplo.model neuriplo.scheduler neuriplo.tensor

namespace neuriplo.pipeline

variable {σ : Type*}

structure StepRun where
  step : Step
  result : Except ExecutionResponse (List OutputTensor)

/-- A step that succeeds with at least the outputs its metadata declares. -/
def StepRun.Delivers (stepRun : StepRun) : Prop :=
  ∃ step_outputs, stepRun.result = .ok step_outputs ∧
    ∀ declared ∈ stepRun.step.outputs, ∃ produced ∈ step_outputs, produced.name = declared.name

/-- The same steps, with a log of every run beside their state. -/
def recording (run : StepRunner σ) : StepRunner (σ × List StepRun) := fun step step_inputs state =>
  let (result, next) := run step step_inputs state.1
  (result, next, state.2 ++ [{ step, result }])

/-- The step runs of one call of `infer`, in order. -/
def PipelineExecutor.stepRuns (backends : Backends σ) (pipeline : PipelineExecutor) (request : ExecutionRequest)
    (state : σ) : List StepRun :=
  (pipeline.inferWith (recording backends.runStep) request (state, [])).2.2

/-- Recording changes nothing, and a log only grows. -/
theorem runCopying_recording (run : StepRunner σ) (steps : List Step) (values : Values) (state : σ)
    (log : List StepRun) :
    ∃ runs, runCopying (recording run) steps values (state, log) =
      ((runCopying run steps values state).1, (runCopying run steps values state).2, log ++ runs) := by
  induction steps generalizing values state log with
  | nil => exact ⟨[], by rw [runCopying, runCopying, List.append_nil]⟩
  | cons step steps ih =>
    rw [runCopying, runCopying]
    cases copyInputs step values step.inputs with
    | error response => exact ⟨[], by rw [List.append_nil]⟩
    | ok step_inputs =>
      simp only [recording]
      obtain ⟨response | step_outputs, next⟩ := run step step_inputs state
      · exact ⟨[_], rfl⟩
      · obtain ⟨runs, hruns⟩ := ih (publish step step_outputs values) next (log ++ [⟨step, .ok step_outputs⟩])
        rw [List.append_assoc] at hruns
        exact ⟨⟨step, .ok step_outputs⟩ :: runs, hruns⟩

/-- The values a graph has so far: one for every available name, each named after
the graph. -/
structure Supplied (available : List String) (values : Values) : Prop where
  held : ∀ name ∈ available, ∃ tensor, values name = some tensor
  named : ∀ name tensor, values name = some tensor → tensor.name = name

/-- A tensor that is stored is supplied. -/
theorem Supplied.store {available : List String} {values : Values} (hsupplied : Supplied available values)
    {name : String} {tensor : OutputTensor} (hname : tensor.name = name) :
    Supplied (name :: available) (values.store name tensor) where
  held other hother := by
    unfold Values.store
    by_cases heq : other = name
    · exact ⟨tensor, by rw [heq, Function.update_self]⟩
    · obtain ⟨held, hheld⟩ := hsupplied.held other ((List.mem_cons.mp hother).resolve_left heq)
      exact ⟨held, by rw [Function.update_of_ne heq]; exact hheld⟩
  named other held hheld := by
    unfold Values.store at hheld
    by_cases heq : other = name
    · rw [heq, Function.update_self] at hheld
      cases hheld
      rw [heq, hname]
    · rw [Function.update_of_ne heq] at hheld
      exact hsupplied.named other held hheld

/-- What is supplied supplies less. -/
theorem Supplied.mono {available names : List String} {values : Values} (hsupplied : Supplied available values)
    (hsubset : names ⊆ available) : Supplied names values :=
  ⟨fun name hname => hsupplied.held name (hsubset hname), hsupplied.named⟩

theorem Supplied.emplace {available : List String} {values : Values} (hsupplied : Supplied available values)
    (tensor : OutputTensor) : Supplied (tensor.name :: available) (values.emplace tensor) := by
  unfold Values.emplace
  split
  · next hsome =>
    refine ⟨fun name hname => ?_, hsupplied.named⟩
    obtain rfl | hname := List.mem_cons.mp hname
    · exact Option.isSome_iff_exists.mp hsome
    · exact hsupplied.held name hname
  · exact hsupplied.store rfl

/-- A request supplies a value for each of its inputs. -/
theorem requestValues_supplied (request : ExecutionRequest) :
    Supplied (request.inputs.map (·.name)) (requestValues request) := by
  have hfold : ∀ (inputs : List InputTensor) (available : List String) (values : Values),
      Supplied available values →
      Supplied (available ++ inputs.map (·.name)) (inputs.foldl Values.emplace values) := by
    intro inputs
    induction inputs with
    | nil =>
      intro available values hsupplied
      simpa using hsupplied
    | cons input inputs ih =>
      intro available values hsupplied
      refine (ih _ _ (hsupplied.emplace input)).mono ?_
      intro name hname
      simp only [List.map_cons, List.mem_append, List.mem_cons] at hname ⊢
      tauto
  exact hfold request.inputs [] _ ⟨fun name hname => absurd hname List.not_mem_nil, fun name tensor h => nomatch h⟩

/-- Publishing keeps what was available and adds the graph name of every produced
tensor. -/
theorem Supplied.publish {available : List String} {values : Values} (hsupplied : Supplied available values)
    (step : Step) (step_outputs : List OutputTensor) :
    Supplied (available ++ step_outputs.map fun produced => step.graphOutput produced.name)
      (publish step step_outputs values) := by
  unfold pipeline.publish
  induction step_outputs generalizing available values with
  | nil => simpa using hsupplied
  | cons produced step_outputs ih =>
    have hstored := @hsupplied.store _ _ _ { produced with name := step.graphOutput produced.name } rfl
    refine (ih hstored).mono ?_
    intro name hname
    simp only [List.map_cons, List.mem_append, List.mem_cons] at hname ⊢
    tauto

/-- A step whose inputs are supplied can read them. -/
theorem copyInputs_ok {step : Step} {available : List String} {values : Values}
    (hsupplied : Supplied available values) (ahead : List TensorMetadata)
    (hahead : ∀ declared ∈ ahead, step.graphInput declared ∈ available) :
    ∃ step_inputs, copyInputs step values ahead = .ok step_inputs := by
  induction ahead with
  | nil => exact ⟨[], rfl⟩
  | cons declared ahead ih =>
    obtain ⟨found, hfound⟩ := hsupplied.held _ (hahead declared List.mem_cons_self)
    obtain ⟨step_inputs, hinputs⟩ := ih fun other hother => hahead other (List.mem_cons_of_mem _ hother)
    exact ⟨{ found with name := declared.name } :: step_inputs, by simp only [copyInputs, hfound, hinputs]⟩

/-- Outputs that are supplied are collected in their order. -/
theorem collectOutputs_ok {available : List String} {values : Values} (hsupplied : Supplied available values)
    (names : List String) (hnames : names ⊆ available) :
    ∃ outputs, collectOutputs values names = .ok outputs ∧ outputs.map (·.name) = names := by
  induction names with
  | nil => exact ⟨[], rfl, rfl⟩
  | cons name names ih =>
    obtain ⟨found, hfound⟩ := hsupplied.held name (hnames List.mem_cons_self)
    obtain ⟨outputs, houtputs, hmap⟩ := ih fun other hother => hnames (List.mem_cons_of_mem _ hother)
    refine ⟨found :: outputs, by simp only [collectOutputs, hfound, houtputs], ?_⟩
    rw [List.map_cons, hmap, hsupplied.named name found hfound]

/-- The wiring check looks at each step with what is supplied before it. -/
theorem checkWiring_cons {step : Step} {steps : List Step} {available : List String}
    (hcheck : checkWiring (step :: steps) available = .ok ()) :
    (∀ declared ∈ step.inputs, step.graphInput declared ∈ available) ∧
      checkWiring steps (available ++ step.graphOutputs) = .ok () := by
  rw [checkWiring] at hcheck
  split at hcheck
  · cases hcheck
  · next hnone =>
    refine ⟨fun declared hmem => ?_, hcheck⟩
    have hfound := List.find?_eq_none.mp hnone declared hmem
    simpa [Step.graphInput] using hfound

/-- The composed inputs are those of the first step, under the graph's names. -/
theorem metadata_inputs (pipeline : PipelineExecutor) :
    pipeline.metadata.inputs.map (·.name) =
      (pipeline.steps.head?.map fun step => step.inputs.map fun declared =>
        mapped step.config.input_map declared.name).getD [] := by
  cases hhead : pipeline.steps.head? with
  | none => simp [PipelineExecutor.metadata, hhead]
  | some step => simp [PipelineExecutor.metadata, hhead]

/-- The check starts from the composed inputs. -/
theorem assemble_ok {model_name : String} {steps : List Step} {pipeline : PipelineExecutor}
    (hassemble : assemble model_name steps = .ok pipeline) :
    pipeline = { model_name, steps } ∧
      checkWiring pipeline.steps (pipeline.metadata.inputs.map (·.name)) = .ok () := by
  unfold assemble at hassemble
  rw [← metadata_inputs ⟨model_name, steps⟩] at hassemble
  dsimp only at hassemble
  cases hcheck : checkWiring steps
      ((⟨model_name, steps⟩ : PipelineExecutor).metadata.inputs.map (·.name)) with
  | error error =>
    rw [hcheck] at hassemble
    cases hassemble
  | ok =>
    rw [hcheck] at hassemble
    obtain rfl := Except.ok.inj hassemble
    exact ⟨rfl, hcheck⟩

/-- As long as the steps deliver, the values stay ahead of the check: whatever is
available to it has a value when the copying interpreter gets there. -/
theorem runCopying_supplied (run : StepRunner σ) (steps : List Step) {available : List String} {values : Values}
    (hcheck : checkWiring steps available = .ok ()) (hsupplied : Supplied available values) (state : σ)
    (log : List StepRun)
    (hruns : ∀ stepRun ∈ (runCopying (recording run) steps values (state, log)).2.2, stepRun.Delivers) :
    ∃ values' state', runCopying run steps values state = (.ok values', state') ∧
      Supplied (available ++ steps.flatMap Step.graphOutputs) values' := by
  induction steps generalizing available values state log with
  | nil => exact ⟨values, state, rfl, by simpa using hsupplied⟩
  | cons step steps ih =>
    obtain ⟨hinputs, hcheck⟩ := checkWiring_cons hcheck
    obtain ⟨step_inputs, hcopy⟩ := copyInputs_ok hsupplied step.inputs hinputs
    rw [runCopying, hcopy] at hruns ⊢
    rcases hrun : run step step_inputs state with ⟨response | step_outputs, next⟩ <;>
      simp only [recording, hrun] at hruns ⊢
    · obtain ⟨step_outputs, hresult, -⟩ := hruns ⟨step, .error response⟩ (by simp)
      cases hresult
    · have hlogged : (⟨step, .ok step_outputs⟩ : StepRun) ∈ (runCopying (recording run) steps
          (publish step step_outputs values) (next, log ++ [⟨step, .ok step_outputs⟩])).2.2 := by
        obtain ⟨runs, hrecorded⟩ := runCopying_recording run steps (publish step step_outputs values) next
          (log ++ [⟨step, .ok step_outputs⟩])
        simp [hrecorded]
      obtain ⟨produced, hproduced, hdeclared⟩ := hruns _ hlogged
      cases hproduced
      have hpublished : Supplied (available ++ step.graphOutputs) (publish step step_outputs values) := by
        apply (hsupplied.publish step step_outputs).mono
        apply List.append_subset.mpr ⟨List.subset_append_left _ _, ?_⟩
        intro name hname
        obtain ⟨declared, hmem, rfl⟩ := List.mem_map.mp hname
        obtain ⟨tensor, htensor, hname⟩ := hdeclared declared hmem
        exact List.mem_append_right _ (List.mem_map.mpr ⟨tensor, htensor, by rw [hname]⟩)
      obtain ⟨values', state', hrun, hleft⟩ := ih hcheck hpublished next _ hruns
      exact ⟨values', state', hrun, by simpa [List.append_assoc] using hleft⟩

/-- The composed outputs are outputs of steps. -/
theorem outputNames_subset (pipeline : PipelineExecutor) :
    pipeline.outputNames ⊆ pipeline.steps.flatMap Step.graphOutputs := by
  intro name hname
  cases hlast : pipeline.steps.getLast? with
  | none => simp [PipelineExecutor.outputNames, PipelineExecutor.metadata, hlast] at hname
  | some last =>
    refine List.mem_flatMap.mpr ⟨last, List.mem_of_getLast? hlast, ?_⟩
    simpa [PipelineExecutor.outputNames, PipelineExecutor.metadata, hlast, Step.graphOutputs, Step.graphOutput]
      using hname

/-- Outputs that are supplied make a response. -/
theorem Supplied.makeResponse_ok {available : List String} {values : Values} (hsupplied : Supplied available values)
    (request : ExecutionRequest) {names : List String} (hnames : names ⊆ available) :
    (makeResponse request names values).ok = true ∧
      (makeResponse request names values).outputs.map (·.name) = wantedOutputs request names := by
  obtain ⟨outputs, houtputs, hmap⟩ := collectOutputs_ok hsupplied (wantedOutputs request names)
    fun name hname => hnames (List.mem_of_mem_filter hname)
  simp only [makeResponse, houtputs]
  exact ⟨trivial, hmap⟩

/-- A graph that loads is fully wired. When a request supplies the composed
inputs and every step that runs delivers its declared outputs, `infer` finds each
tensor it looks up, and the response has every composed output asked for. -/
theorem loaded_graph_wired (backends : Backends σ) {model_name : String} {steps : List Step}
    {pipeline : PipelineExecutor} (hassemble : assemble model_name steps = .ok pipeline)
    (request : ExecutionRequest)
    (hinputs : ∀ input ∈ pipeline.metadata.inputs, ∃ tensor ∈ request.inputs, tensor.name = input.name) (state : σ)
    (hruns : ∀ stepRun ∈ pipeline.stepRuns backends request state, stepRun.Delivers) :
    (pipeline.infer backends request state).1.ok = true ∧
      ∀ output ∈ pipeline.metadata.outputs,
        (request.requested_outputs = [] ∨ output.name ∈ request.requested_outputs) →
        ∃ tensor ∈ (pipeline.infer backends request state).1.outputs, tensor.name = output.name := by
  have hsupplied : Supplied (pipeline.metadata.inputs.map (·.name)) (requestValues request) := by
    apply (requestValues_supplied request).mono
    intro name hname
    obtain ⟨input, hmem, rfl⟩ := List.mem_map.mp hname
    obtain ⟨tensor, htensor, hname⟩ := hinputs input hmem
    exact List.mem_map.mpr ⟨tensor, htensor, hname⟩
  have hrecorded : ∀ stepRun ∈ (runCopying (recording backends.runStep) pipeline.steps (requestValues request)
      (state, [])).2.2, stepRun.Delivers := by
    intro stepRun hmem
    apply hruns
    rw [PipelineExecutor.stepRuns, PipelineExecutor.inferWith_eq_copyingWith, PipelineExecutor.copyingWith]
    split <;> simp_all
  obtain ⟨values, state', hrun, hleft⟩ := runCopying_supplied backends.runStep pipeline.steps
    (assemble_ok hassemble).2 hsupplied state [] hrecorded
  have hanswer : pipeline.infer backends request state =
      (makeResponse request pipeline.outputNames values, state') := by
    rw [PipelineExecutor.infer, PipelineExecutor.inferWith_eq_copyingWith, PipelineExecutor.copyingWith, hrun]
  obtain ⟨hok, houtputs⟩ := hleft.makeResponse_ok request
    (List.Subset.trans (outputNames_subset pipeline) (List.subset_append_right _ _))
  rw [hanswer]
  refine ⟨hok, fun output hmem hwanted => ?_⟩
  have hname : output.name ∈ wantedOutputs request pipeline.outputNames :=
    List.mem_filter.mpr ⟨List.mem_map_of_mem hmem, by simpa using hwanted⟩
  rw [← houtputs] at hname
  obtain ⟨tensor, htensor, heq⟩ := List.mem_map.mp hname
  exact ⟨tensor, htensor, heq⟩

/-- A model step behind a preprocess step, with a tensor renamed on the way and
the input read once more at the end. -/
theorem loaded_graph_wired_chain :
    let clean : Step :=
      ⟨{ name := "clean", model_name := "m", input_map := [("x", "IMAGE")] }, [⟨"x", "FP32", [1]⟩],
        [⟨"y", "FP32", [1]⟩]⟩
    let fuse : Step :=
      ⟨{ kind := .preprocess, name := "fuse", input_map := [("a", "y"), ("b", "IMAGE")], output_map := [("s", "OUT")] },
        [⟨"a", "FP32", [1]⟩, ⟨"b", "FP32", [1]⟩], [⟨"s", "FP32", [1]⟩]⟩
    let backends : Backends Unit :=
      { run := fun _ step_inputs _ => (.ok (step_inputs.take 1 |>.map fun tensor => { tensor with name := "s" }), ())
        resolve := fun _ _ _ => (some fun request _ =>
          ({ response := { outputs := request.inputs.map fun tensor => { tensor with name := "y" } } }, ()), ()) }
    let answer := (({ model_name := "p", steps := [clean, fuse] } : PipelineExecutor).infer backends
      { inputs := [⟨"IMAGE", "FP32", [1], [0, 0, 0, 0], []⟩] } ()).1
    answer.ok = true ∧ ∃ tensor ∈ answer.outputs, tensor.name = "OUT" := by
  intro clean fuse backends answer
  have hassemble : assemble "p" [clean, fuse] = .ok { model_name := "p", steps := [clean, fuse] } := rfl
  have hwired := loaded_graph_wired backends hassemble
    { inputs := [⟨"IMAGE", "FP32", [1], [0, 0, 0, 0], []⟩] } (by decide) ()
    (by
      intro stepRun hmem
      have hlog : stepRun ∈ [⟨clean, .ok [⟨"y", "FP32", [1], [0, 0, 0, 0], []⟩]⟩,
          ⟨fuse, .ok [⟨"s", "FP32", [1], [0, 0, 0, 0], []⟩]⟩] := hmem
      rw [List.mem_pair] at hlog
      obtain rfl | rfl := hlog
      · exact ⟨_, rfl, by decide⟩
      · exact ⟨_, rfl, by decide⟩)
  exact ⟨hwired.1, hwired.2 ⟨"OUT", "FP32", [1]⟩ (by decide) (.inl rfl)⟩

end neuriplo.pipeline
