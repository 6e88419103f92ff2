import NeuriploRuntime.Codec.Json
import NeuriploRuntime.Fallible.Except
import NeuriploRuntime.Pipeline.Config

open neuriplo.codec fallible

namespace neuriplo.pipeline

/-- How `parsePipelineConfig` ends without a graph: with the error it sets, or
by an exception of the JSON library over a field of another type. -/
inductive ParseFailure where
  | rejected (error : String)
  | typeError
deriving DecidableEq, Repr

def pipelineImageInputName : String := "IMAGE"

/-- `node.value(key, std::string{})`. -/
def stringValue (node : Json) (key : String) : Except ParseFailure String :=
  match node.field key with
  | none => .ok ""
  | some (.string value) => .ok value
  | some _ => .error .typeError

def parseKind (text : String) : Except ParseFailure PipelineStepKind :=
  if text = "model" then .ok .model
  else if text = "preprocess" then .ok .preprocess
  else if text = "postprocess" then .ok .postprocess
  else .error (.rejected ("unknown pipeline step kind: " ++ text))

def checkEnvelope (node : Json) (kind : PipelineStepKind) (step_name : String) : Except ParseFailure Unit :=
  match node.field "envelope" with
  | none => .ok ()
  | some envelope =>
    if kind ≠ .postprocess then .ok ()
    else
      match envelope with
      | .string text =>
        if text ∈ ["detection", "mask", "polygon"] then .ok ()
        else .error (.rejected ("unknown pipeline envelope: " ++ text))
      | _ => .error (.rejected ("pipeline step '" ++ step_name ++ "': envelope must be a string"))

def checkFloat (node : Json) (step_name field : String) : Except ParseFailure Unit :=
  match node.field field with
  | none => .ok ()
  | some value =>
    if value.asNumber.isSome then .ok ()
    else .error (.rejected ("pipeline step '" ++ step_name ++ "': " ++ field ++ " must be a number"))

/-- `std::map::emplace`: a key that is there keeps its value. -/
def emplace (target : List (String × String)) (key value : String) : List (String × String) :=
  if (target.lookup key).isSome then target else target ++ [(key, value)]

/-- The members of a JSON object come in the order of their keys. -/
def readTensorMap (node : Json) (field step_name : String) : Except ParseFailure (List (String × String)) :=
  match node.field field with
  | none => .ok []
  | some (.object entries) => do
    let entries ← entries.mapM fun entry =>
      match entry.2 with
      | .string value => .ok (entry.1, value)
      | _ => .error (.rejected ("pipeline step '" ++ step_name ++ "': " ++ field ++ " values must be strings"))
    return entries.foldl (fun target entry => emplace target entry.1 entry.2) []
  | some _ => .error (.rejected ("pipeline step '" ++ step_name ++ "': " ++ field ++ " must be an object"))

def parseStepName (step_names : List String) (node : Json) : Except ParseFailure String := do
  let name ← stringValue node "name"
  if name.isEmpty then .error (.rejected "every pipeline step needs a name")
  else if name ∈ step_names then .error (.rejected ("duplicate pipeline step name: " ++ name))
  else return name

def parseStepKind (node : Json) (name : String) : Except ParseFailure PipelineStepKind := do
  let kind_text ← stringValue node "kind"
  if kind_text.isEmpty then .error (.rejected ("pipeline step '" ++ name ++ "' has no kind"))
  else parseKind kind_text

/-- The model of a model step; any other step must have a task. -/
def parseTarget (node : Json) (kind : PipelineStepKind) (name : String) : Except ParseFailure (String × String) := do
  if kind = .model then
    let model_name ← stringValue node "model_name"
    if model_name.isEmpty then
      .error (.rejected ("pipeline step '" ++ name ++ "' is a model step without a model_name"))
    else
      let model_version ← stringValue node "model_version"
      return (model_name, model_version)
  else
    let task_type ← stringValue node "task_type"
    if task_type.isEmpty then .error (.rejected ("pipeline step '" ++ name ++ "' needs a task_type"))
    else return ("", "")

/-- A step, before its wiring is looked at. Task, envelope and thresholds are
read by the builtin steps only, so only their errors are kept. -/
def parseStep (step_names : List String) (node : Json) : Except ParseFailure PipelineStepConfig := do
  if !node.isObject then .error (.rejected "pipeline steps must be objects")
  else
    let name ← parseStepName step_names node
    let kind ← parseStepKind node name
    let (model_name, model_version) ← parseTarget node kind name
    checkEnvelope node kind name
    checkFloat node name "confidence_threshold"
    checkFloat node name "nms_threshold"
    checkFloat node name "mask_threshold"
    let input_map ← readTensorMap node "input_map" name
    let output_map ← readTensorMap node "output_map" name
    return { kind, name, model_name, model_version, input_map, output_map }

def unproducedTensor (step_name tensor : String) : ParseFailure :=
  .rejected ("pipeline step '" ++ step_name ++ "' consumes tensor '" ++ tensor ++ "' that no earlier step produces")

/-- The check of one step's input map, while names are knowable. -/
def unavailableEntry (available : List String) (names_knowable : Bool) (step : PipelineStepConfig) :
    Option (String × String) :=
  if names_knowable then step.input_map.find? (·.2 ∉ available) else none

/-- The loop over the steps. The names seen, the tensors available so far and
whether all of them are known go along. -/
def parseSteps : List String → List String → Bool → List Json → Except ParseFailure (List PipelineStepConfig)
  | _, _, _, [] => .ok []
  | step_names, available, names_knowable, node :: nodes =>
    match parseStep step_names node with
    | .error failure => .error failure
    | .ok step =>
      match unavailableEntry available names_knowable step with
      | some entry => .error (unproducedTensor step.name entry.2)
      | none =>
        match parseSteps (step_names ++ [step.name]) (available ++ step.output_map.map (·.2))
            (names_knowable && step.output_map ≠ []) nodes with
        | .error failure => .error failure
        | .ok steps => .ok (step :: steps)

def parsePipelineConfig (lib : JsonLibrary) (json_text : List UInt8) : Except ParseFailure PipelineConfig :=
  match lib.parse json_text with
  | none => .error (.rejected "pipeline graph must be a JSON object")
  | some root =>
    if !root.isObject then .error (.rejected "pipeline graph must be a JSON object")
    else
      match root.field "steps" with
      | some (.array (node :: nodes)) => do
        let steps ← parseSteps [] [pipelineImageInputName] true (node :: nodes)
        return { steps }
      | _ => .error (.rejected "pipeline graph must declare a non-empty 'steps' array")

/-- The steps that nodes spell, whatever they are wired to. -/
def Spells : List String → List Json → List PipelineStepConfig → Prop
  | _, [], [] => True
  | step_names, node :: nodes, step :: steps =>
    parseStep step_names node = .ok step ∧ Spells (step_names ++ [step.name]) nodes steps
  | _, _, _ => False

/-- A text that has nothing wrong but perhaps its wiring. -/
def SpellsGraph (lib : JsonLibrary) (json_text : List UInt8) (graph : PipelineConfig) : Prop :=
  ∃ root nodes, lib.parse json_text = some root ∧ root.isObject = true ∧ root.field "steps" = some (.array nodes) ∧
    nodes ≠ [] ∧ Spells [] nodes graph.steps

/-- A map filled by `emplace` has each key once. -/
theorem emplace_nodup {target : List (String × String)} (hnodup : (target.map (·.1)).Nodup) (key value : String) :
    ((emplace target key value).map (·.1)).Nodup := by
  unfold emplace
  split
  · exact hnodup
  · next hnone =>
    have hfresh : ∀ entry ∈ target, entry.1 ≠ key := by
      rw [Option.not_isSome_iff_eq_none, List.lookup_eq_none_iff] at hnone
      intro entry hmem
      exact fun heq => by simpa [heq] using hnone entry hmem
    rw [List.map_append, List.nodup_append]
    refine ⟨hnodup, by simp, ?_⟩
    intro name hname other hother
    obtain ⟨entry, hmem, rfl⟩ := List.mem_map.mp hname
    obtain rfl : other = key := by simpa using hother
    exact hfresh entry hmem

/-- A tensor map names no tensor twice. -/
theorem readTensorMap_nodup {node : Json} {field step_name : String} {target : List (String × String)}
    (hread : readTensorMap node field step_name = .ok target) : (target.map (·.1)).Nodup := by
  have hfold : ∀ (entries target : List (String × String)), (target.map (·.1)).Nodup →
      ((entries.foldl (fun target entry => emplace target entry.1 entry.2) target).map (·.1)).Nodup := by
    intro entries
    induction entries with
    | nil => exact fun _ hnodup => hnodup
    | cons entry entries ih => exact fun target hnodup => ih _ (emplace_nodup hnodup entry.1 entry.2)
  unfold readTensorMap at hread
  split at hread
  · cases hread
    exact List.nodup_nil
  · obtain ⟨entries, -, hreturn⟩ := bind_ok hread
    cases hreturn
    exact hfold entries [] List.nodup_nil
  · cases hread

/-- The input map of a parsed step names no input twice. -/
theorem parseStep_nodup {step_names : List String} {node : Json} {step : PipelineStepConfig}
    (hparse : parseStep step_names node = .ok step) : (step.input_map.map (·.1)).Nodup := by
  unfold parseStep at hparse
  split at hparse
  · cases hparse
  · obtain ⟨name, -, hparse⟩ := bind_ok hparse
    obtain ⟨kind, -, hparse⟩ := bind_ok hparse
    obtain ⟨model, -, hparse⟩ := bind_ok hparse
    obtain ⟨-, -, hparse⟩ := bind_ok hparse
    obtain ⟨-, -, hparse⟩ := bind_ok hparse
    obtain ⟨-, -, hparse⟩ := bind_ok hparse
    obtain ⟨-, -, hparse⟩ := bind_ok hparse
    obtain ⟨input_map, hinput, hparse⟩ := bind_ok hparse
    obtain ⟨output_map, -, hparse⟩ := bind_ok hparse
    cases hparse
    exact readTensorMap_nodup hinput

/-- The input maps of parsed steps name no input twice. -/
theorem Spells.nodup {step_names : List String} {nodes : List Json} {steps : List PipelineStepConfig}
    (hspells : Spells step_names nodes steps) : ∀ step ∈ steps, (step.input_map.map (·.1)).Nodup := by
  induction steps generalizing step_names nodes with
  | nil => simp
  | cons step steps ih =>
    cases nodes with
    | nil => cases hspells
    | cons node nodes => exact List.forall_mem_cons.mpr ⟨parseStep_nodup hspells.1, ih hspells.2⟩

end neuriplo.pipeline
