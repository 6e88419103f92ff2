import NeuriploRuntime.Pipeline.Infer

open neuriplo.tensor

namespace neuriplo.pipeline

variable {σ : Type*}

/-- Every input is a copy of the value under its graph name; the values stay. -/
def copyInputs (step : Step) (values : Values) : List TensorMetadata → Except ExecutionResponse (List OutputTensor)
  | [] => .ok []
  | declared :: ahead =>
    match values (step.graphInput declared) with
    | none => .error (missingInput step (step.graphInput declared))
    | some found =>
      match copyInputs step values ahead with
      | .error response => .error response
      | .ok step_inputs => .ok ({ found with name := declared.name } :: step_inputs)

def runCopying (run : StepRunner σ) : List Step → Values → σ → Except ExecutionResponse Values × σ
  | [], values, state => (.ok values, state)
  | step :: steps, values, state =>
    match copyInputs step values step.inputs with
    | .error response => (.error response, state)
    | .ok step_inputs =>
      match run step step_inputs state with
      | (.error response, state) => (.error response, state)
      | (.ok step_outputs, state) => runCopying run steps (publish step step_outputs values) state

def PipelineExecutor.copyingWith (run : StepRunner σ) (pipeline : PipelineExecutor) (request : ExecutionRequest)
    (state : σ) : ExecutionResponse × σ :=
  match runCopying run pipeline.steps (requestValues request) state with
  | (.error response, state) => (response, state)
  | (.ok values, state) => (makeResponse request pipeline.outputNames values, state)

/-- `infer` without its moves. -/
def PipelineExecutor.inferCopying (backends : Backends σ) (pipeline : PipelineExecutor)
    (request : ExecutionRequest) (state : σ) : ExecutionResponse × σ :=
  pipeline.copyingWith backends.runStep request state

/-- The graph names that a step from `step_index` on may read, or the response. -/
def PipelineExecutor.neededFrom (pipeline : PipelineExecutor) (step_index : Nat) : Set String :=
  { name | name ∈ pipeline.outputNames ∨
      ∃ position step, step_index ≤ position ∧ pipeline.steps[position]? = some step ∧ name ∈ step.graphInputs }

/-- Later steps need no more. -/
theorem PipelineExecutor.neededFrom_anti (pipeline : PipelineExecutor) {first second : Nat} (hle : first ≤ second) :
    pipeline.neededFrom second ⊆ pipeline.neededFrom first := by
  rintro name (hout | ⟨position, step, hposition, hstep, hmem⟩)
  · exact .inl hout
  · exact .inr ⟨position, step, hle.trans hposition, hstep, hmem⟩

/-- A step's inputs are needed at the step. -/
theorem PipelineExecutor.neededFrom_read {pipeline : PipelineExecutor} {position : Nat} {step : Step}
    (hstep : pipeline.steps[position]? = some step) {declared : TensorMetadata} (hmem : declared ∈ step.inputs) :
    step.graphInput declared ∈ pipeline.neededFrom position :=
  .inr ⟨position, step, le_refl position, hstep, List.mem_map_of_mem hmem⟩

/-- A tensor's last use is what its name says: afterwards neither a step nor the
response needs it. -/
theorem PipelineExecutor.indexLastUse_dead {pipeline : PipelineExecutor} {name : String} {step_index : Nat}
    (hlast : pipeline.indexLastUse name = some step_index) : name ∉ pipeline.neededFrom (step_index + 1) := by
  rw [indexLastUse, store.foldl_update] at hlast
  split at hlast
  · cases hlast
  · next hout =>
    rintro (hmem | ⟨position, step, hposition, hstep, hmem⟩)
    · exact hout hmem
    · have hgroup : (pipeline.steps.map Step.graphInputs)[position]? = some step.graphInputs := by
        rw [List.getElem?_map, hstep, Option.map_some]
      have hle := store.le_of_lastRead hlast hgroup hmem
      omega

/-- Taking a step's inputs gives the copies, and leaves every value that is
needed by a later step. -/
theorem takeInputs_agrees {pipeline : PipelineExecutor} {step_index : Nat} {step : Step}
    (ahead : List TensorMetadata) {values full : Values}
    (hagree : Set.EqOn values full
      ({ name | name ∈ ahead.map step.graphInput } ∪ pipeline.neededFrom (step_index + 1))) :
    match copyInputs step full ahead with
    | .error response => takeInputs pipeline.indexLastUse step_index step ahead values = .error response
    | .ok step_inputs =>
      ∃ values', takeInputs pipeline.indexLastUse step_index step ahead values = .ok (step_inputs, values') ∧
        Set.EqOn values' full (pipeline.neededFrom (step_index + 1)) := by
  induction ahead generalizing values with
  | nil => exact ⟨values, rfl, hagree.mono Set.subset_union_right⟩
  | cons declared ahead ih =>
    have hfound : values (step.graphInput declared) = full (step.graphInput declared) :=
      hagree (.inl (by simp))
    rw [copyInputs, takeInputs]
    simp only [hfound]
    cases full (step.graphInput declared) with
    | none => rfl
    | some found =>
      have hrest : Set.EqOn values full
          ({ name | name ∈ ahead.map step.graphInput } ∪ pipeline.neededFrom (step_index + 1)) := by
        apply hagree.mono
        apply Set.union_subset_union_left
        intro name hname
        exact List.mem_cons_of_mem _ hname
      -- A value that is moved is needed neither ahead in this step nor later.
      have hmoved : Set.EqOn
          (if !(ahead.any fun other => step.graphInput other = step.graphInput declared) &&
              pipeline.indexLastUse (step.graphInput declared) = some step_index then
            values.erase (step.graphInput declared) else values) full
          ({ name | name ∈ ahead.map step.graphInput } ∪ pipeline.neededFrom (step_index + 1)) := by
        split
        · next hmove =>
          rw [Bool.and_eq_true, Bool.not_eq_true', decide_eq_true_eq] at hmove
          apply store.eqOn_update_left hrest
          rintro (hahead | hlater)
          · obtain ⟨other, hother, heq⟩ := List.mem_map.mp hahead
            have hany : (ahead.any fun other => step.graphInput other = step.graphInput declared) = true :=
              List.any_eq_true.mpr ⟨other, hother, decide_eq_true heq⟩
            rw [hmove.1] at hany
            cases hany
          · exact pipeline.indexLastUse_dead hmove.2 hlater
        · exact hrest
      have htail := ih hmoved
      cases hcopy : copyInputs step full ahead with
      | error response =>
        rw [hcopy] at htail
        simp only [htail]
      | ok step_inputs =>
        rw [hcopy] at htail
        obtain ⟨values', htake, hleft⟩ := htail
        exact ⟨values', by simp only [htake], hleft⟩

/-- Published outputs cover whatever was or was not left under their names. -/
theorem publish_agrees (step : Step) (step_outputs : List OutputTensor) {values full : Values} {live : Set String}
    (hagree : Set.EqOn values full live) :
    Set.EqOn (publish step step_outputs values) (publish step step_outputs full) live := by
  unfold publish
  induction step_outputs generalizing values full with
  | nil => exact hagree
  | cons produced step_outputs ih =>
    apply ih
    exact store.eqOn_update (hagree.mono Set.sdiff_subset) _

/-- Steps that move tensors and steps that copy them agree on what is needed. -/
theorem runSteps_agrees (run : StepRunner σ) (pipeline : PipelineExecutor) (step_index : Nat) {steps : List Step}
    (hsteps : pipeline.steps.drop step_index = steps) {values full : Values}
    (hagree : Set.EqOn values full (pipeline.neededFrom step_index)) (state : σ) :
    match runCopying run steps full state with
    | (.error response, state') =>
      runSteps run pipeline.indexLastUse step_index steps values state = (.error response, state')
    | (.ok full', state') =>
      ∃ values', runSteps run pipeline.indexLastUse step_index steps values state = (.ok values', state') ∧
        Set.EqOn values' full' { name | name ∈ pipeline.outputNames } := by
  induction steps generalizing step_index values full state with
  | nil =>
    refine ⟨values, rfl, hagree.mono ?_⟩
    intro name hname
    exact .inl hname
  | cons step steps ih =>
    have hstep : pipeline.steps[step_index]? = some step := by
      rw [← List.head?_drop, hsteps, List.head?_cons]
    have hnext : pipeline.steps.drop (step_index + 1) = steps := by
      rw [← List.tail_drop, hsteps, List.tail_cons]
    have hlive : Set.EqOn values full
        ({ name | name ∈ step.inputs.map step.graphInput } ∪ pipeline.neededFrom (step_index + 1)) := by
      apply hagree.mono
      rintro name (hread | hlater)
      · obtain ⟨declared, hmem, rfl⟩ := List.mem_map.mp hread
        exact pipeline.neededFrom_read hstep hmem
      · exact pipeline.neededFrom_anti (by omega) hlater
    have htake := takeInputs_agrees step.inputs hlive
    rw [runCopying, runSteps]
    cases hcopy : copyInputs step full step.inputs with
    | error response =>
      rw [hcopy] at htake
      simp only [htake]
    | ok step_inputs =>
      rw [hcopy] at htake
      obtain ⟨left, htake, hleft⟩ := htake
      simp only [htake]
      obtain ⟨response | step_outputs, state'⟩ := run step step_inputs state
      · rfl
      · exact ih (step_index + 1) hnext (publish_agrees step step_outputs hleft) state'

/-- Outputs are collected alike from tables that agree on them. -/
theorem collectOutputs_congr {values full : Values} {names : List String}
    (hagree : Set.EqOn values full { name | name ∈ names }) :
    collectOutputs values names = collectOutputs full names := by
  induction names with
  | nil => rfl
  | cons name names ih =>
    have hname : values name = full name := hagree (by simp)
    have hnames := ih (hagree.mono fun other hother => List.mem_cons_of_mem name hother)
    rw [collectOutputs, collectOutputs, hname, hnames]

/-- Tables that agree on the outputs make one response. -/
theorem makeResponse_congr (request : ExecutionRequest) {names : List String} {values full : Values}
    (hagree : Set.EqOn values full { name | name ∈ names }) :
    makeResponse request names values = makeResponse request names full := by
  have hwanted : Set.EqOn values full { name | name ∈ wantedOutputs request names } := by
    apply hagree.mono
    intro name hname
    exact List.mem_of_mem_filter hname
  rw [makeResponse, makeResponse, collectOutputs_congr hwanted]

/-- However the steps behave, moving a tensor out at its last use changes neither
the answer nor what the steps are run on. -/
theorem PipelineExecutor.inferWith_eq_copyingWith (run : StepRunner σ) (pipeline : PipelineExecutor)
    (request : ExecutionRequest) (state : σ) :
    pipeline.inferWith run request state = pipeline.copyingWith run request state := by
  have hrun := runSteps_agrees run pipeline 0 List.drop_zero
    (Set.eqOn_refl (requestValues request) _) state
  rw [inferWith, copyingWith]
  rcases hcopy : runCopying run pipeline.steps (requestValues request) state with ⟨response | full, state'⟩
  · rw [hcopy] at hrun
    rw [hrun]
  · rw [hcopy] at hrun
    obtain ⟨values, hrun, hagree⟩ := hrun
    rw [hrun]
    exact congrArg (·, state') (makeResponse_congr request hagree)

/-- Moving tensors is invisible: `infer` answers every request as the
interpreter does that copies every tensor and erases none, and leaves the
backends it ran the steps on in the same state. -/
theorem PipelineExecutor.moves_invisible (backends : Backends σ) (pipeline : PipelineExecutor)
    (request : ExecutionRequest) (state : σ) :
    pipeline.infer backends request state = pipeline.inferCopying backends request state :=
  pipeline.inferWith_eq_copyingWith backends.runStep request state

end neuriplo.pipeline
