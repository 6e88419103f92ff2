import NeuriploRuntime.Pipeline.Parse
import NeuriploRuntime.Pipeline.Wiring

open neuriplo.codec neuriplo.model neuriplo.tensor fallible stream

namespace neuriplo.pipeline

/-- The graph names that the output maps of some steps give. -/
def mappedOutputs (steps : List PipelineStepConfig) : List String :=
  steps.flatMap fun step => step.output_map.map (·.2)

/-- An entry of an input map that the check over names takes for a mistake: every
step before it has an output map, and none of these maps gives the tensor. -/
structure Unnamed (available : List String) (steps : List PipelineStepConfig) (index : Nat)
    (step : PipelineStepConfig) (entry : String × String) : Prop where
  at_index : steps[index]? = some step
  knowable : ∀ earlier ∈ steps.take index, earlier.output_map ≠ []
  listed : entry ∈ step.input_map
  unnamed : entry.2 ∉ available ++ mappedOutputs (steps.take index)

/-- The first step reads a tensor that nothing names. -/
theorem unnamed_zero {available : List String} {step found : PipelineStepConfig} {steps : List PipelineStepConfig}
    {entry : String × String} :
    Unnamed available (step :: steps) 0 found entry ↔ found = step ∧ entry ∈ step.input_map ∧ entry.2 ∉ available := by
  constructor
  · rintro ⟨hindex, -, hlisted, hunnamed⟩
    obtain rfl : step = found := by simpa using hindex
    exact ⟨rfl, hlisted, by simpa [mappedOutputs] using hunnamed⟩
  · rintro ⟨rfl, hlisted, hunnamed⟩
    exact ⟨rfl, by simp, hlisted, by simpa [mappedOutputs] using hunnamed⟩

/-- A later step reads a tensor that no mapped step before it names. -/
theorem unnamed_succ {available : List String} {index : Nat} {step found : PipelineStepConfig}
    {steps : List PipelineStepConfig} {entry : String × String} :
    Unnamed available (step :: steps) (index + 1) found entry ↔
      step.output_map ≠ [] ∧ Unnamed (available ++ step.output_map.map (·.2)) steps index found entry := by
  constructor
  · rintro ⟨hindex, hknowable, hlisted, hunnamed⟩
    rw [List.take_succ_cons] at hknowable hunnamed
    obtain ⟨hfirst, hrest⟩ := List.forall_mem_cons.mp hknowable
    exact ⟨hfirst, hindex, hrest, hlisted, by simpa [mappedOutputs, List.append_assoc] using hunnamed⟩
  · rintro ⟨hfirst, hindex, hrest, hlisted, hunnamed⟩
    refine ⟨hindex, ?_, hlisted, by simpa [mappedOutputs, List.append_assoc] using hunnamed⟩
    rw [List.take_succ_cons]
    exact List.forall_mem_cons.mpr ⟨hfirst, hrest⟩

/-- Over steps with nothing else wrong, the loop fails on an unnamed entry and on
nothing else. -/
theorem parseSteps_spelled (available : List String) (names_knowable : Bool) {step_names : List String}
    {nodes : List Json} {steps : List PipelineStepConfig} (hspells : Spells step_names nodes steps) :
    (parseSteps step_names available names_knowable nodes = .ok steps ∧
        ¬ (names_knowable = true ∧ ∃ index step entry, Unnamed available steps index step entry)) ∨
      ((∃ step_name tensor, parseSteps step_names available names_knowable nodes =
          .error (unproducedTensor step_name tensor)) ∧
        names_knowable = true ∧ ∃ index step entry, Unnamed available steps index step entry) := by
  induction steps generalizing step_names available names_knowable nodes with
  | nil =>
    cases nodes with
    | cons node nodes => cases hspells
    | nil =>
      refine .inl ⟨rfl, ?_⟩
      rintro ⟨-, index, step, entry, hindex, -⟩
      simp at hindex
  | cons step steps ih =>
    cases nodes with
    | nil => cases hspells
    | cons node nodes =>
      obtain ⟨hparse, hrest⟩ := hspells
      simp only [parseSteps, hparse]
      cases hentry : unavailableEntry available names_knowable step with
      | some entry =>
        unfold unavailableEntry at hentry
        split at hentry
        · next hknowable =>
          have hunnamed : entry.2 ∉ available := by simpa using List.find?_some hentry
          exact .inr ⟨⟨_, _, rfl⟩, hknowable, 0, step, entry,
            unnamed_zero.mpr ⟨rfl, List.mem_of_find?_eq_some hentry, hunnamed⟩⟩
        · cases hentry
      | none =>
        have hhead : names_knowable = true → ∀ entry ∈ step.input_map, entry.2 ∈ available := by
          intro hknowable entry hmem
          rw [unavailableEntry, if_pos hknowable] at hentry
          simpa using List.find?_eq_none.mp hentry entry hmem
        have hshift :
            (names_knowable = true ∧ ∃ index found entry, Unnamed available (step :: steps) index found entry) ↔
            (names_knowable && step.output_map ≠ []) = true ∧ ∃ index found entry,
              Unnamed (available ++ step.output_map.map (·.2)) steps index found entry := by
          constructor
          · rintro ⟨hknowable, index, found, entry, hunnamed⟩
            cases index with
            | zero =>
              obtain ⟨rfl, hlisted, hunnamed⟩ := unnamed_zero.mp hunnamed
              exact absurd (hhead hknowable entry hlisted) hunnamed
            | succ index =>
              obtain ⟨hmap, hunnamed⟩ := unnamed_succ.mp hunnamed
              exact ⟨by simp [hknowable, hmap], index, found, entry, hunnamed⟩
          · rintro ⟨hboth, index, found, entry, hunnamed⟩
            rw [Bool.and_eq_true, decide_eq_true_eq] at hboth
            exact ⟨hboth.1, index + 1, found, entry, unnamed_succ.mpr ⟨hboth.2, hunnamed⟩⟩
        rw [hshift]
        obtain ⟨hok, hnever⟩ | ⟨⟨step_name, tensor, herror⟩, hstray⟩ :=
          ih (available ++ step.output_map.map (·.2)) (names_knowable && step.output_map ≠ []) hrest
        · exact .inl ⟨by rw [hok], hnever⟩
        · exact .inr ⟨⟨step_name, tensor, by rw [herror]⟩, hstray⟩

/-- Where the exact check passes, each step's inputs are available before it. -/
theorem checkWiring_available {steps : List Step} {available : List String}
    (hcheck : checkWiring steps available = .ok ()) {index : Nat} {step : Step} (hstep : steps[index]? = some step)
    {declared : TensorMetadata} (hmem : declared ∈ step.inputs) :
    step.graphInput declared ∈ available ++ (steps.take index).flatMap Step.graphOutputs := by
  induction steps generalizing available index with
  | nil => simp at hstep
  | cons first steps ih =>
    obtain ⟨hinputs, hcheck⟩ := checkWiring_cons hcheck
    cases index with
    | zero =>
      obtain rfl : first = step := by simpa using hstep
      exact List.mem_append_left _ (hinputs declared hmem)
    | succ index =>
      have hrest := ih hcheck (by simpa using hstep)
      simpa [List.append_assoc] using hrest

/-- What an input map may name that the output maps do not. -/
inductive OwnName (steps : List Step) (index : Nat) (step : Step) (entry : String × String) : Prop
  /-- An output that an earlier step's output map leaves out. -/
  | output (earlier : Step) (hearlier : earlier ∈ steps.take index) (produced : TensorMetadata)
      (hproduced : produced ∈ earlier.outputs) (hname : produced.name = entry.2)
      (hunmapped : earlier.config.output_map.lookup produced.name = none)
  /-- An input of the first step that its input map leaves out. -/
  | input (first : Step) (hfirst : steps.head? = some first) (declared : TensorMetadata)
      (hdeclared : declared ∈ first.inputs) (hname : declared.name = entry.2)
      (hunmapped : first.config.input_map.lookup declared.name = none)
  /-- Any tensor, for an input that the step does not have. -/
  | unused (hunused : ∀ declared ∈ step.inputs, declared.name ≠ entry.1)

/-- An entry by which parsing rejects a graph that the exact check accepts. -/
structure Stray (steps : List Step) (index : Nat) (step : Step) (entry : String × String) : Prop where
  at_index : steps[index]? = some step
  knowable : ∀ earlier ∈ steps.take index, earlier.config.output_map ≠ []
  listed : entry ∈ step.config.input_map
  not_image : entry.2 ≠ pipelineImageInputName
  unnamed : ∀ earlier ∈ steps.take index, ∀ given ∈ earlier.config.output_map, given.2 ≠ entry.2
  own : OwnName steps index step entry

/-- An entry of a map without repetitions is found under its key. -/
theorem lookup_of_mem {map : List (String × String)} (hnodup : (map.map (·.1)).Nodup) {entry : String × String}
    (hmem : entry ∈ map) : map.lookup entry.1 = some entry.2 := by
  induction map with
  | nil => cases hmem
  | cons first map ih =>
    rw [List.map_cons, List.nodup_cons] at hnodup
    obtain rfl | hrest := List.mem_cons.mp hmem
    · rw [List.lookup_cons, beq_self_eq_true]
    · have hne : entry.1 ≠ first.1 := fun heq => hnodup.1 (heq ▸ List.mem_map_of_mem hrest)
      rw [List.lookup_cons, beq_false_of_ne hne]
      exact ih hnodup.2 hrest

theorem lookup_mem {map : List (String × String)} {key value : String} (hlookup : map.lookup key = some value) :
    ∃ entry ∈ map, entry.2 = value := by
  obtain ⟨before, after, hmap, -⟩ := List.lookup_eq_some_iff.mp hlookup
  exact ⟨(key, value), by simp [hmap], rfl⟩

/-- The exact check leaves an unnamed entry only three ways to its tensor. -/
theorem ownName_of_available {steps : List Step} {available : List String}
    (havailable : available = (steps.head?.map Step.graphInputs).getD [])
    (hcheck : checkWiring steps available = .ok ())
    (hfirst : ∀ first, steps.head? = some first → ∀ entry ∈ first.config.input_map, entry.2 = pipelineImageInputName)
    {index : Nat} {step : Step} {entry : String × String} (hstep : steps[index]? = some step)
    (hnodup : (step.config.input_map.map (·.1)).Nodup) (hlisted : entry ∈ step.config.input_map)
    (hnot_image : entry.2 ≠ pipelineImageInputName)
    (hunnamed : ∀ earlier ∈ steps.take index, ∀ given ∈ earlier.config.output_map, given.2 ≠ entry.2) :
    OwnName steps index step entry := by
  by_cases hused : ∃ declared ∈ step.inputs, declared.name = entry.1
  · obtain ⟨declared, hmem, hname⟩ := hused
    have hgraph : step.graphInput declared = entry.2 := by
      rw [Step.graphInput, mapped, hname, lookup_of_mem hnodup hlisted, Option.getD_some]
    have hreach := checkWiring_available hcheck hstep hmem
    rw [hgraph, havailable] at hreach
    obtain hinput | houtput := List.mem_append.mp hreach
    · cases hhead : steps.head? with
      | none => simp [hhead] at hinput
      | some first =>
        rw [hhead, Option.map_some, Option.getD_some] at hinput
        obtain ⟨composed, hcomposed, heq⟩ := List.mem_map.mp hinput
        cases hlookup : first.config.input_map.lookup composed.name with
        | some value =>
          rw [Step.graphInput, mapped, hlookup, Option.getD_some] at heq
          obtain ⟨given, hgiven, hvalue⟩ := lookup_mem hlookup
          have himage := hfirst first hhead given hgiven
          exact absurd (by rw [← heq, ← hvalue, himage]) hnot_image
        | none =>
          rw [Step.graphInput, mapped, hlookup, Option.getD_none] at heq
          exact .input first hhead composed hcomposed heq hlookup
    · obtain ⟨earlier, hearlier, hname⟩ := List.mem_flatMap.mp houtput
      obtain ⟨produced, hproduced, heq⟩ := List.mem_map.mp hname
      cases hlookup : earlier.config.output_map.lookup produced.name with
      | some value =>
        rw [Step.graphOutput, mapped, hlookup, Option.getD_some] at heq
        obtain ⟨given, hgiven, hvalue⟩ := lookup_mem hlookup
        exact absurd (hvalue.trans heq) (hunnamed earlier hearlier given hgiven)
      | none =>
        rw [Step.graphOutput, mapped, hlookup, Option.getD_none] at heq
        exact .output earlier hearlier produced hproduced heq hlookup
  · refine .unused fun declared hmem hname => hused ⟨declared, hmem, hname⟩

/-- A tensor is unnamed when it is not the image and no output map before the
step gives it. -/
theorem mappedOutputs_unnamed {steps : List Step} {index : Nat} {tensor : String} :
    tensor ∉ [pipelineImageInputName] ++ mappedOutputs ((steps.map (·.config)).take index) ↔
      tensor ≠ pipelineImageInputName ∧
        ∀ earlier ∈ steps.take index, ∀ given ∈ earlier.config.output_map, given.2 ≠ tensor := by
  rw [← List.map_take, mappedOutputs, List.flatMap_map, List.mem_append, not_or, List.mem_singleton]
  refine and_congr_right fun _ => ?_
  constructor
  · intro hnever earlier hearlier given hgiven heq
    exact hnever (List.mem_flatMap.mpr ⟨earlier, hearlier, List.mem_map.mpr ⟨given, hgiven, heq⟩⟩)
  · intro hnever hmem
    obtain ⟨earlier, hearlier, hgiven⟩ := List.mem_flatMap.mp hmem
    obtain ⟨given, hgiven, heq⟩ := List.mem_map.mp hgiven
    exact hnever earlier hearlier given hgiven heq

/-- A graph passes the check at the parse exactly when each of its tensors is
named before it is read. -/
theorem parsePipelineConfig_spelled {lib : JsonLibrary} {json_text : List UInt8} {graph : PipelineConfig}
    (hspells : SpellsGraph lib json_text graph) :
    (∀ step_name tensor, parsePipelineConfig lib json_text ≠ .error (unproducedTensor step_name tensor)) ↔
      ¬ ∃ index step entry, Unnamed [pipelineImageInputName] graph.steps index step entry := by
  obtain ⟨root, nodes, hparse, hobject, hfield, hnonempty, hsteps⟩ := hspells
  obtain ⟨node, rest, rfl⟩ := List.exists_cons_of_ne_nil hnonempty
  simp only [parsePipelineConfig, hparse, hobject, hfield, Bool.not_true, Bool.false_eq_true, if_false]
  obtain ⟨hok, hnever⟩ | ⟨⟨step_name, tensor, herror⟩, hstray⟩ := 
      parseSteps_spelled [pipelineImageInputName] true hsteps
  · rw [hok]
    refine iff_of_true ?_ fun hstray => hnever ⟨rfl, hstray⟩
    intro step_name tensor heq
    cases heq
  · rw [herror]
    exact iff_of_false (fun hnever => hnever step_name tensor rfl) (not_not_intro hstray.2)

/-- Where the check over names is stricter than the exact one. Take a graph with
nothing wrong but perhaps its wiring, and steps whose tensors make the exact
check accept it. Then parsing rejects the graph for its wiring just when some
input map names a tensor that goes by a step's own name for it, or names one for
an input its step does not have. -/
theorem parse_not_stricter_iff {lib : JsonLibrary} {json_text : List UInt8} {graph : PipelineConfig}
    (hspells : SpellsGraph lib json_text graph)
    (hfirst : ∀ first, graph.steps.head? = some first → ∀ entry ∈ first.input_map, entry.2 = pipelineImageInputName)
    {model_name : String} {steps : List Step} (hsteps : steps.map (·.config) = graph.steps)
    {pipeline : PipelineExecutor} (haccepted : assemble model_name steps = .ok pipeline) :
    (∀ step_name tensor, parsePipelineConfig lib json_text ≠ .error (unproducedTensor step_name tensor)) ↔
      ∀ index step entry, ¬ Stray steps index step entry := by
  obtain ⟨rfl, hcheck⟩ := assemble_ok haccepted
  rw [parsePipelineConfig_spelled hspells, ← hsteps]
  rw [← hsteps] at hfirst
  constructor
  · rintro hnever index step entry ⟨hindex, hknowable, hlisted, hnot_image, hunnamed, -⟩
    refine hnever ⟨index, step.config, entry, ?_, ?_, hlisted, ?_⟩
    · rw [List.getElem?_map, hindex, Option.map_some]
    · rw [← List.map_take]
      exact List.forall_mem_map.mpr hknowable
    · exact mappedOutputs_unnamed.mpr ⟨hnot_image, hunnamed⟩
  · rintro hnever ⟨index, config, entry, hindex, hknowable, hlisted, hunnamed⟩
    rw [List.getElem?_map, Option.map_eq_some_iff] at hindex
    obtain ⟨step, hindex, rfl⟩ := hindex
    rw [← List.map_take] at hknowable
    obtain ⟨hnot_image, hunnamed⟩ := mappedOutputs_unnamed.mp hunnamed
    have hnodup : (step.config.input_map.map (·.1)).Nodup := by
      obtain ⟨root, nodes, -, -, -, -, hspelled⟩ := hspells
      apply hspelled.nodup
      rw [← hsteps]
      exact List.mem_map_of_mem (List.mem_of_getElem? hindex)
    refine hnever index step entry ⟨hindex, fun earlier hearlier => hknowable _ (List.mem_map_of_mem hearlier),
      hlisted, hnot_image, hunnamed, ?_⟩
    have hinputs := metadata_inputs ⟨model_name, steps⟩
    refine ownName_of_available hinputs hcheck ?_ hindex hnodup hlisted hnot_image hunnamed
    intro first hhead
    apply hfirst
    rw [List.head?_map, hhead, Option.map_some]

/-- `split` renames one of its two outputs; `join` reads the other one. -/
def partialMapRoot (tensor : String) : Json :=
  .object [("steps", .array [
    .object [("kind", .string "model"), ("model_name", .string "m"), ("name", .string "split"),
      ("output_map", .object [("x", .string "X")])],
    .object [("input_map", .object [("in", .string tensor)]), ("kind", .string "model"), ("model_name", .string "n"),
      ("name", .string "join")]])]

def partialMapText (tensor : String) : String :=
  "\x7b\"steps\":[\x7b\"kind\":\"model\",\"model_name\":\"m\",\"name\":\"split\",\"output_map\":\x7b\"x\":\"X\"\x7d\x7d," ++
    "\x7b\"input_map\":\x7b\"in\":\"" ++ tensor ++ "\"\x7d,\"kind\":\"model\",\"model_name\":\"n\",\"name\":\"join\"\x7d]\x7d"

def partialMapGraph (tensor : String) : PipelineConfig where
  steps := [{ name := "split", model_name := "m", output_map := [("x", "X")] },
    { name := "join", model_name := "n", input_map := [("in", tensor)] }]

def partialMapSteps (tensor : String) : List Step :=
  [⟨{ name := "split", model_name := "m", output_map := [("x", "X")] }, [⟨"in", "FP32", [1]⟩],
      [⟨"x", "FP32", [1]⟩, ⟨"y", "FP32", [1]⟩]⟩,
    ⟨{ name := "join", model_name := "n", input_map := [("in", tensor)] }, [⟨"in", "FP32", [1]⟩],
      [⟨"z", "FP32", [1]⟩]⟩]

def partialMapLibrary (tensor : String) : JsonLibrary := .onText (partialMapText tensor) (partialMapRoot tensor)

/-- The JSON library reads the graph from its text. -/
theorem partialMap_spelled (tensor : String) :
    SpellsGraph (partialMapLibrary tensor) (octets (partialMapText tensor)) (partialMapGraph tensor) :=
  ⟨partialMapRoot tensor, _, JsonLibrary.parse_onText _ _, rfl, rfl, List.cons_ne_nil _ _, rfl, rfl, trivial⟩

theorem parse_not_stricter_iff_mapped :
    assemble "p" (partialMapSteps "X") = .ok ⟨"p", partialMapSteps "X"⟩ ∧
      ∀ step_name tensor, parsePipelineConfig (partialMapLibrary "X") (octets (partialMapText "X")) ≠
        .error (unproducedTensor step_name tensor) := by
  have hassemble : assemble "p" (partialMapSteps "X") = .ok ⟨"p", partialMapSteps "X"⟩ := rfl
  refine ⟨hassemble, (parse_not_stricter_iff (partialMap_spelled "X") ?_ rfl hassemble).mpr ?_⟩
  · intro first hfirst
    obtain rfl : _ = first := Option.some.inj hfirst
    exact fun entry hmem => absurd hmem List.not_mem_nil
  · rintro index step entry ⟨hindex, -, hlisted, -, hunnamed, -⟩
    obtain _ | _ | index := index
    · obtain rfl : _ = step := Option.some.inj hindex
      exact absurd hlisted List.not_mem_nil
    · obtain rfl : _ = step := Option.some.inj hindex
      obtain rfl := List.mem_singleton.mp hlisted
      exact hunnamed _ List.mem_cons_self ("x", "X") List.mem_cons_self rfl
    · cases hindex

/-- The exact check accepts the graph that reads the unmapped output under its own
name; parsing rejects it. -/
theorem unmapped_output_rejected :
    SpellsGraph (partialMapLibrary "y") (octets (partialMapText "y")) (partialMapGraph "y") ∧
      (∀ first, (partialMapGraph "y").steps.head? = some first → first.input_map = []) ∧
      (partialMapSteps "y").map (·.config) = (partialMapGraph "y").steps ∧
      assemble "p" (partialMapSteps "y") = .ok ⟨"p", partialMapSteps "y"⟩ ∧
      parsePipelineConfig (partialMapLibrary "y") (octets (partialMapText "y")) =
        .error (unproducedTensor "join" "y") := by
  refine ⟨partialMap_spelled "y", ?_, rfl, rfl, ?_⟩
  · intro first hfirst
    obtain rfl : _ = first := Option.some.inj hfirst
    rfl
  · rw [parsePipelineConfig, partialMapLibrary, JsonLibrary.parse_onText]
    rfl

end neuriplo.pipeline
