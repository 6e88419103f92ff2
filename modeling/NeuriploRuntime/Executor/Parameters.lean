import NeuriploRuntime.Batch.Exchange
import NeuriploRuntime.Batch.Invisible
import NeuriploRuntime.Batch.Merged
import NeuriploRuntime.Codec.Parameters
import NeuriploRuntime.Executor.NeuriploExecutor
import NeuriploRuntime.Fallible.Except
import NeuriploRuntime.Transport.InferRoutes

open neuriplo.batch neuriplo.codec neuriplo.tensor neuriplo.transport transition fallible stream

namespace neuriplo.executor

variable {σ : Type*}

/-- What an executor answers, and the calls of its adapter on the way. -/
structure Execution where
  response : Except (Option String) ExecutionResponse
  calls : List AdapterCall

def NeuriploExecutor.execution (executor : NeuriploExecutor) (adapter : NeuriploAdapter σ) (request : ExecutionRequest)
    (tokens : Nat → Bool) (state : σ) : Execution :=
  let outcome := executor.infer adapter.recording request tokens (state, [])
  { response := outcome.1, calls := outcome.2.2 }

/-- The adapter infers from the same inputs, if it does, generates nothing, and the
responses are the same. -/
structure Alike (left right : Execution) : Prop where
  calls : right.calls = left.calls
  tensors : ∀ params, .llmInfer params ∉ left.calls
  response : right.response = left.response

/-- The inputs of a request pass the checks of the executor. -/
def NeuriploExecutor.Accepts (executor : NeuriploExecutor) (request : ExecutionRequest) : Prop :=
  ∃ inputs, orderedInputs executor.metadata_ request = .ok inputs

/-- Inputs that do not pass are an invalid argument. -/
theorem orderedInputs_error {metadata : ModelMetadata} {request : ExecutionRequest} {response : ExecutionResponse}
    (herror : orderedInputs metadata request = .error response) : response.error_code = "INVALID_ARGUMENT" := by
  unfold orderedInputs at herror
  split at herror
  · cases herror
    rfl
  · obtain ⟨metadata_input, -, hmissing⟩ := mapM_error herror
    split at hmissing <;> cases hmissing
    rfl

section Executions

variable {request other : ExecutionRequest} (executor : NeuriploExecutor) (adapter : NeuriploAdapter σ)
  (tokens : Nat → Bool) (state : σ)

/-- With generation parameters there is one generation, whatever the inputs are. -/
theorem execution_of_params {llm_params : LlmGenerationParams} (hparams : request.llm_params = some llm_params) :
    ∃ response, executor.execution adapter request tokens state =
      if tokens 0 then { response := .ok NeuriploExecutor.cancelled, calls := [] }
      else { response, calls := [.llmInfer (NeuriploExecutor.llmInferenceParams request llm_params)] } := by
  obtain ⟨hcalls, hcancelled⟩ := executor.inferStreaming_recording adapter hparams tokens state
  unfold NeuriploExecutor.execution
  rw [executor.infer_of_params adapter.recording hparams]
  refine ⟨(executor.inferStreaming adapter.recording request tokens (state, [])).1, ?_⟩
  dsimp only
  rw [hcalls]
  cases htoken : tokens 0 with
  | true => rw [if_pos rfl, if_pos rfl, hcancelled htoken]
  | false => rw [if_neg Bool.false_ne_true, if_neg Bool.false_ne_true]

/-- Without, the inputs are checked, and inferred from. -/
theorem execution_of_tensors (hparams : request.llm_params = none) :
    (∀ response, orderedInputs executor.metadata_ request = .error response →
      executor.execution adapter request tokens state = { response := .ok response, calls := [] }) ∧
    (∀ inputs, orderedInputs executor.metadata_ request = .ok inputs → ∃ response,
      executor.execution adapter request tokens state =
        if tokens 0 then { response := .ok NeuriploExecutor.cancelled, calls := [] }
        else { response, calls := [.infer inputs] }) := by
  unfold NeuriploExecutor.execution NeuriploExecutor.infer NeuriploExecutor.inferTensors
  rw [hparams]
  refine ⟨?_, ?_⟩
  · intro response herror
    rw [herror]
  · intro inputs hinputs
    rw [hinputs]
    cases tokens 0 with
    | true => exact ⟨.ok {}, rfl⟩
    | false =>
      simp only [Bool.false_eq_true, if_false, respond_state]
      exact ⟨_, rfl⟩

/-- Without generation parameters the backend generates nothing. -/
theorem tensors_of_execution (hparams : request.llm_params = none) (params : LlmInferenceParams) :
    .llmInfer params ∉ (executor.execution adapter request tokens state).calls := by
  obtain ⟨herror, hok⟩ := execution_of_tensors executor adapter tokens state hparams
  cases hordered : orderedInputs executor.metadata_ request with
  | error response =>
    rw [herror response hordered]
    exact List.not_mem_nil
  | ok inputs =>
    obtain ⟨response, hexecution⟩ := hok inputs hordered
    rw [hexecution]
    split <;> simp

/-- Requests for the same tensors without parameters are executed alike. -/
theorem execution_congr (hsame : SameTensors request other) (hparams : request.llm_params = none)
    (hother : other.llm_params = none) :
    executor.execution adapter other tokens state = executor.execution adapter request tokens state := by
  have hresponse : executor.tensorResponse other = executor.tensorResponse request := by
    funext result
    rw [NeuriploExecutor.tensorResponse, NeuriploExecutor.tensorResponse, selectedOutputNames, selectedOutputNames,
      hsame.requested_outputs]
  have hordered : orderedInputs executor.metadata_ other = orderedInputs executor.metadata_ request := by
    rw [orderedInputs, orderedInputs, hsame.inputs]
  unfold NeuriploExecutor.execution NeuriploExecutor.infer NeuriploExecutor.inferTensors
  rw [hparams, hother, hresponse, hordered]

/-- Every execution that is over before it began. -/
def Execution.cancelled : Execution where
  response := .ok NeuriploExecutor.cancelled
  calls := []

/-- With the token set nothing is called, and only the checks of the inputs come
before it. -/
theorem execution_of_cancelled (htoken : tokens 0 = true) :
    (executor.execution adapter request tokens state).calls = [] ∧
      (executor.execution adapter request tokens state = .cancelled ↔
        request.llm_params ≠ none ∨ executor.Accepts request) := by
  cases hparams : request.llm_params with
  | some llm_params =>
    obtain ⟨response, hexecution⟩ := execution_of_params executor adapter tokens state hparams
    rw [hexecution, if_pos htoken]
    exact ⟨rfl, iff_of_true rfl (.inl nofun)⟩
  | none =>
    obtain ⟨herror, hok⟩ := execution_of_tensors executor adapter tokens state hparams
    cases hordered : orderedInputs executor.metadata_ request with
    | ok inputs =>
      obtain ⟨response, hexecution⟩ := hok inputs hordered
      rw [hexecution, if_pos htoken]
      exact ⟨rfl, iff_of_true rfl (.inr ⟨inputs, hordered⟩)⟩
    | error response =>
      have hcode := orderedInputs_error hordered
      rw [herror response hordered]
      refine ⟨rfl, iff_of_false ?_ ?_⟩
      · intro hcancelled
        rw [Execution.cancelled, Execution.mk.injEq, Except.ok.injEq] at hcancelled
        rw [hcancelled.1] at hcode
        exact absurd hcode (by decide)
      · rintro (hnone | ⟨inputs, haccepts⟩)
        · exact hnone rfl
        · rw [hordered] at haccepts
          cases haccepts

/-- Executions of cancelled requests are alike exactly when they are the same. -/
theorem alike_iff_eq (htoken : tokens 0 = true) :
    Alike (executor.execution adapter request tokens state) (executor.execution adapter other tokens state) ↔
      executor.execution adapter other tokens state = executor.execution adapter request tokens state := by
  obtain ⟨hcalls, -⟩ := @execution_of_cancelled σ request executor adapter tokens state htoken
  constructor
  · rintro ⟨hsame, -, hresponse⟩
    generalize executor.execution adapter other tokens state = right at hsame hresponse ⊢
    generalize executor.execution adapter request tokens state = left at hsame hresponse ⊢
    obtain ⟨response, calls⟩ := right
    rw [Execution.mk.injEq]
    exact ⟨hresponse, hsame⟩
  · intro heq
    rw [heq]
    refine ⟨rfl, ?_, rfl⟩
    intro params
    rw [hcalls]
    exact List.not_mem_nil

/-- With generation parameters the backend generates with them. -/
theorem llmInfer_of_execution {llm_params : LlmGenerationParams} (hparams : request.llm_params = some llm_params)
    (htoken : tokens 0 = false) :
    .llmInfer (NeuriploExecutor.llmInferenceParams request llm_params) ∈
      (executor.execution adapter request tokens state).calls := by
  obtain ⟨response, hexecution⟩ := execution_of_params executor adapter tokens state hparams
  rw [hexecution, if_neg (by rw [htoken]; exact Bool.false_ne_true)]
  exact List.mem_cons_self

/-- When one of them has parameters they are executed alike only if they are
cancelled before, and nothing else stands in the way. -/
theorem alike_iff (hsame : SameTensors request other) :
    Alike (executor.execution adapter request tokens state) (executor.execution adapter other tokens state) ↔
      (request.llm_params = none ∧ other.llm_params = none) ∨
        tokens 0 = true ∧ ((request.llm_params ≠ none ∧ other.llm_params ≠ none) ∨ executor.Accepts request) := by
  have haccepts : executor.Accepts other ↔ executor.Accepts request := by
    rw [NeuriploExecutor.Accepts, NeuriploExecutor.Accepts, orderedInputs, orderedInputs, hsame.inputs]
  by_cases hneither : request.llm_params = none ∧ other.llm_params = none
  · refine iff_of_true ?_ (.inl hneither)
    rw [execution_congr executor adapter tokens state hsame hneither.1 hneither.2]
    exact ⟨rfl, tensors_of_execution executor adapter tokens state hneither.1, rfl⟩
  · rw [or_iff_right hneither]
    cases htoken : tokens 0 with
    | false =>
      refine iff_of_false ?_ (fun hset => Bool.false_ne_true hset.1)
      intro halike
      cases hparams : request.llm_params with
      | some llm_params =>
        exact halike.tensors _ (llmInfer_of_execution executor adapter tokens state hparams htoken)
      | none =>
        obtain ⟨llm_params, hother⟩ := Option.ne_none_iff_exists'.mp (not_and.mp hneither hparams)
        have hcalled := llmInfer_of_execution executor adapter tokens state hother htoken
        rw [halike.calls] at hcalled
        exact halike.tensors _ hcalled
    | true =>
      obtain ⟨-, hrequest⟩ := @execution_of_cancelled σ request executor adapter tokens state htoken
      obtain ⟨-, hother⟩ := @execution_of_cancelled σ other executor adapter tokens state htoken
      rw [haccepts] at hother
      rw [alike_iff_eq executor adapter tokens state htoken]
      by_cases hparams : request.llm_params = none
      · have hgiven := hother.mpr (.inl (not_and.mp hneither hparams))
        rw [hgiven, eq_comm, hrequest]
        simp [hparams]
      · have hgiven := hrequest.mpr (.inl hparams)
        rw [hgiven, hother]
        simp [hparams]

end Executions

/-- The requests of a job are merged into one. -/
def isMerged : Job → Bool
  | .single _ => false
  | .batched _ _ => true

theorem ne_default_of_parse {lib : JsonLibrary} {metadata : ModelMetadata} {binary_blob : List UInt8} {root : Json}
    {request : InferenceRequest} (hparse : parseRoot lib metadata binary_blob root = .ok request) : request ≠ {} := by
  obtain ⟨nodes, -, hnonempty, hinputs, -⟩ := parseRoot_ok hparse
  rintro rfl
  have hlength := (parseInputs_strings hinputs).1
  exact hnonempty (List.length_eq_zero_iff.mp hlength.symm)

/-- Two bodies for a tensor model that differ in their generation parameters only,
in two runs of its scheduler that are the same but for them. The scheduler does
not notice; the executor does unless neither has the field, or the request is
merged with others, whose parameters are dropped. -/
theorem parameters_unnoticed_iff {lib : JsonLibrary} {model_name : String} {handle : InferSnapshot}
    {body body' binary_blob : List UInt8} {header_length header_length' : Option Nat} {root root' : Json}
    (hread : ReadOverHttp lib body root header_length binary_blob)
    (hread' : ReadOverHttp lib body' root' header_length' binary_blob) (hsame : SameButParameters root root')
    {call call' : ExecutionRequest} (haccepted : infer lib model_name (some handle) body header_length = .ok call)
    (haccepted' : infer lib model_name (some handle) body' header_length' = .ok call')
    {setup : Setup} {start : Int} {events : List (Event setup)} {s : State setup}
    (hrun : System.replay State.step { now := start } events = some s) {request : Nat}
    (hcall : (s.requests request).map (·.request) = some call) {worker : Fin setup.config.instances} {job : Job}
    {executor_index : Nat} {execution_started : Int}
    (hexecuting : s.workers worker = .executing job executor_index execution_started) (hmember : request ∈ job.members)
    (executor : NeuriploExecutor) (adapter : NeuriploAdapter σ) (tokens : Nat → Bool) (state : σ) :
    ∃ (exchange : Exchange) (s' : State setup), exchange.call request call = call' ∧
      (∀ other made, other ≠ request → exchange.call other made = made) ∧
      System.replay State.step { now := start } (events.map exchange.event) = some s' ∧
      (s'.requests request).map (·.request) = some call' ∧ s'.workers = s.workers ∧
      (Alike (executor.execution adapter (s.jobRequest job) tokens state)
          (executor.execution adapter (s'.jobRequest job) tokens state) ↔
        (root.field "parameters" = none ∧ root'.field "parameters" = none) ∨ isMerged job = true ∨
          tokens 0 = true ∧ ((root.field "parameters" ≠ none ∧ root'.field "parameters" ≠ none) ∨
            executor.Accepts call)) := by
  have hparse := hread.parseRoot_of_infer haccepted
  have hparse' := hread'.parseRoot_of_infer haccepted'
  have htensors := sameTensors_of_parse hsame hparse hparse'
  have hparams := (parseRoot_params hparse).2
  have hparams' := (parseRoot_params hparse').2
  let exchange : Exchange :=
    .swap request call call' htensors.inputs htensors.requested_outputs (ne_default_of_parse hparse)
  have hswapped : exchange.call request call = call' := if_pos ⟨rfl, rfl⟩
  have hcalled : (s.pending request).request = call := by
    unfold State.pending
    obtain ⟨found, hfound, hrequest⟩ := Option.map_eq_some_iff.mp hcall
    rw [hfound, Option.getD_some, hrequest]
  refine ⟨exchange, exchange.state s, hswapped, ?_, ?_, ?_, rfl, ?_⟩
  · intro other made hother
    exact if_neg fun hboth => hother hboth.1
  · have hreplay := exchange.replay_state { now := start } events
    rw [hrun] at hreplay
    exact hreplay
  · obtain ⟨found, hfound, rfl⟩ := Option.map_eq_some_iff.mp hcall
    change ((s.requests request).map (exchange.pending request)).map (·.request) = some call'
    rw [hfound, ← hswapped]
    rfl
  · cases job with
    | single other =>
      obtain rfl := List.mem_singleton.mp hmember
      have hother : (exchange.state s).jobRequest (.single request) = call' := by
        simp only [State.jobRequest, exchange.pending_state]
        rw [← hswapped, ← hcalled]
        rfl
      have hunmerged : ¬ isMerged (.single request) = true := Bool.false_ne_true
      rw [hother, State.jobRequest, hcalled, alike_iff executor adapter tokens state htensors, hparams, hparams',
        or_iff_right hunmerged]
      simp only [ne_eq, hparams, hparams']
    | batched active_batch merged =>
      refine iff_of_true ?_ (.inr (.inl rfl))
      have hplain : merged.request.llm_params = none := by
        have hjob : (s.workers worker).job = some (.batched active_batch merged) := by rw [hexecuting]; rfl
        exact plain_of_reachable (System.reachable_of_replay hrun) hjob
      exact ⟨rfl, tensors_of_execution executor adapter tokens state hplain, rfl⟩

/-- The point's body with generation parameters that say nothing. -/
def openRoot : Json :=
  .object [("inputs", ((pointRoot 12).field "inputs").getD .null), ("parameters", .object [])]

def openHeader : String :=
  "\x7b\"inputs\":[\x7b\"name\":\"point\",\"datatype\":\"FP32\",\"shape\":[1,3]," ++
    "\"parameters\":\x7b\"binary_data_size\":12\x7d\x7d],\"parameters\":\x7b\x7d\x7d"

def openBody : List UInt8 := octets openHeader ++ List.replicate 12 0

/-- The JSON library on the two texts. -/
def pointsLibrary : JsonLibrary :=
  .reading [(octets openHeader, openRoot), (octets (pointHeader (toString 12)), pointRoot 12)] fun _ => []

def pointHandle : InferSnapshot where
  name := "points"
  state := .ready
  metadata := pointMetadata
  scheduler := some { isReady := true, isDraining := false }

def openRequest : ExecutionRequest :=
  { pointRequest 12 with llm_params := some {} }

def pointExecutor : NeuriploExecutor where
  metadata_ := pointMetadata

def pointAdapter : NeuriploAdapter Unit :=
  .ofInfer fun _ state => (.ok { outputs := [{ name := "label", datatype := "FP32", shape := [1, 1] }] }, state)

/-- One worker, which merges two requests. -/
def pointSetup : Setup where
  config := { dynamic_batching := { enabled := true, max_batch_size := 2 } }
  executors := 1
  hexecutors := Nat.one_pos
  hinstances := Nat.one_pos

def pointWorker : Fin pointSetup.config.instances := ⟨0, pointSetup.hinstances⟩

def submitted (request : Nat) (call : ExecutionRequest) : List (Event pointSetup) :=
  [.submit request call, .submitter request, .submitter request, .submitter request, .notifySubmitted request none]

/-- A request is brought to the executor alone. -/
def aloneRun (call : ExecutionRequest) : List (Event pointSetup) :=
  submitted 0 call ++ List.replicate 15 (.worker pointWorker)

/-- A request is brought to it with another. -/
def mergedRun : List (Event pointSetup) :=
  submitted 0 (pointRequest 12) ++ submitted 1 (pointRequest 12) ++ List.replicate 4 (.worker pointWorker) ++
    [.notifyErased pointWorker none] ++ List.replicate 13 (.worker pointWorker)

theorem point_bodies :
    ReadOverHttp pointsLibrary (pointBody 12) (pointRoot 12) (some 98) (List.replicate 12 0) ∧
      ReadOverHttp pointsLibrary openBody openRoot (some (octets openHeader).length) (List.replicate 12 0) ∧
      SameButParameters (pointRoot 12) openRoot := by
  have hpoint : (pointBody 12).take 98 = octets (pointHeader (toString 12)) := by decide +kernel
  have hopen : openBody.take (octets openHeader).length = octets openHeader := List.take_left
  have hpointBlob : (pointBody 12).drop 98 = List.replicate 12 0 := by decide +kernel
  have hopenBlob : openBody.drop (octets openHeader).length = List.replicate 12 0 := List.drop_left
  have hlength : (octets openHeader).length ≤ openBody.length := by
    rw [openBody, List.length_append]
    exact Nat.le_add_right ..
  have hdiffer : octets (pointHeader (toString 12)) ≠ octets openHeader := by decide +kernel
  refine ⟨?_, ?_, ?_⟩
  · rw [← hpointBlob]
    refine .binary (by decide +kernel) ?_
    rw [hpoint, pointsLibrary, JsonLibrary.parse_reading_of_ne hdiffer]
    exact List.lookup_cons_self
  · rw [← hopenBlob]
    refine .binary hlength ?_
    rw [hopen, pointsLibrary]
    exact JsonLibrary.parse_reading
  · intro key hkey
    by_cases hinputs : key = "inputs"
    · rw [hinputs]
      rfl
    · have hkey' : (key == "parameters") = false := beq_eq_false_iff_ne.mpr hkey
      have hinputs' : (key == "inputs") = false := beq_eq_false_iff_ne.mpr hinputs
      simp only [openRoot, pointRoot, Json.field, List.lookup_cons, hinputs', hkey']

theorem point_accepted :
    infer pointsLibrary "points" (some pointHandle) (pointBody 12) (some 98) = .ok (pointRequest 12) ∧
      infer pointsLibrary "points" (some pointHandle) openBody (some (octets openHeader).length) =
        .ok openRequest := by
  decide +kernel

/-- Two requests that differ in a parameter end in the same batch. -/
theorem parameters_unnoticed_merged :
    ∃ (exchange : Exchange) (s s' : State pointSetup) (job : Job), exchange.call 0 (pointRequest 12) = openRequest ∧
      System.replay State.step { now := 0 } mergedRun = some s ∧
      System.replay State.step { now := 0 } (mergedRun.map exchange.event) = some s' ∧
      s.workers pointWorker = .executing job 0 0 ∧
      Alike (pointExecutor.execution pointAdapter (s.jobRequest job) (fun _ => false) ())
        (pointExecutor.execution pointAdapter (s'.jobRequest job) (fun _ => false) ()) := by
  have hreplay : ∃ s merged, System.replay State.step { now := 0 } mergedRun = some s ∧
      (s.requests 0).map (·.request) = some (pointRequest 12) ∧
      s.workers pointWorker = .executing (.batched [0, 1] merged) 0 0 := ⟨_, _, rfl, rfl, rfl⟩
  obtain ⟨s, merged, hrun, hcall, hexecuting⟩ := hreplay
  obtain ⟨hread, hread', hsame⟩ := point_bodies
  obtain ⟨haccepted, haccepted'⟩ := point_accepted
  obtain ⟨exchange, s', hexchange, -, hrun', -, -, halike⟩ := parameters_unnoticed_iff hread hread' hsame haccepted
    haccepted' hrun hcall hexecuting List.mem_cons_self pointExecutor pointAdapter (fun _ => false) ()
  exact ⟨exchange, s, s', _, hexchange, hrun, hrun', hexecuting, halike.mpr (.inr (.inl rfl))⟩

/-- Alone, the same request generates from no inputs once the body has empty
parameters. -/
theorem parameters_noticed_alone :
    infer pointsLibrary "points" (some pointHandle) (pointBody 12) (some 98) = .ok (pointRequest 12) ∧
      infer pointsLibrary "points" (some pointHandle) openBody (some (octets openHeader).length) =
        .ok openRequest ∧
      SameButParameters (pointRoot 12) openRoot ∧
      ∃ s s', System.replay State.step { now := 0 } (aloneRun (pointRequest 12)) = some s ∧
        System.replay State.step { now := 0 } (aloneRun openRequest) = some s' ∧
        s.workers pointWorker = .executing (.single 0) 0 0 ∧ s'.workers pointWorker = .executing (.single 0) 0 0 ∧
        ¬ Alike (pointExecutor.execution pointAdapter (s.jobRequest (.single 0)) (fun _ => false) ())
          (pointExecutor.execution pointAdapter (s'.jobRequest (.single 0)) (fun _ => false) ()) := by
  have hreplay : ∃ s s', System.replay State.step { now := 0 } (aloneRun (pointRequest 12)) = some s ∧
      System.replay State.step { now := 0 } (aloneRun openRequest) = some s' ∧
      s.workers pointWorker = .executing (.single 0) 0 0 ∧ s'.workers pointWorker = .executing (.single 0) 0 0 ∧
      s.jobRequest (.single 0) = pointRequest 12 ∧ s'.jobRequest (.single 0) = openRequest :=
    ⟨_, _, rfl, rfl, rfl, rfl, rfl, rfl⟩
  obtain ⟨s, s', hrun, hrun', hexecuting, hexecuting', hrequest, hrequest'⟩ := hreplay
  refine ⟨point_accepted.1, point_accepted.2, point_bodies.2.2, s, s', hrun, hrun', hexecuting, hexecuting', ?_⟩
  have hsame : SameTensors (pointRequest 12) openRequest := ⟨rfl, rfl, rfl⟩
  rw [hrequest, hrequest', alike_iff pointExecutor pointAdapter (fun _ => false) () hsame]
  rintro (⟨-, hother⟩ | ⟨htoken, -⟩)
  · cases hother
  · cases htoken

end neuriplo.executor
