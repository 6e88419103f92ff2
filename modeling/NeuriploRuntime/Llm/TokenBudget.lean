import NeuriploRuntime.Executor.NeuriploExecutor
import NeuriploRuntime.Llm.Deadline
import NeuriploRuntime.Llm.Validation

open neuriplo.executor neuriplo.scheduler neuriplo.tensor transition

namespace neuriplo.llm

variable {σ : Type*}

/-- How a worker runs a request: streaming when the request asks for it. -/
def runInference (executor : NeuriploExecutor) (adapter : NeuriploAdapter σ) (request : ExecutionRequest)
    (tokens : Nat → Bool) (state : σ) : Except (Option String) ExecutionResponse × σ :=
  if request.llm_params.any (·.streaming) then executor.inferStreaming adapter request tokens state
  else executor.infer adapter request tokens state

/-- The calls of the adapter that this makes, in order. -/
def adapterCalls (executor : NeuriploExecutor) (adapter : NeuriploAdapter σ) (request : ExecutionRequest)
    (tokens : Nat → Bool) (state : σ) : List AdapterCall :=
  (runInference executor adapter.recording request tokens (state, [])).2.2

/-- A request with parameters is streamed. -/
theorem runInference_of_params {request : ExecutionRequest} {llm_params : LlmGenerationParams}
    (hparams : request.llm_params = some llm_params) (executor : NeuriploExecutor) (adapter : NeuriploAdapter σ)
    (tokens : Nat → Bool) (state : σ) :
    runInference executor adapter request tokens state = executor.inferStreaming adapter request tokens state := by
  rw [runInference, executor.infer_of_params adapter hparams, ite_self]

/-- A request with generation parameters is one generation, unless it was cancelled
before. -/
theorem adapterCalls_of_params {request : ExecutionRequest} {llm_params : LlmGenerationParams}
    (hparams : request.llm_params = some llm_params) (executor : NeuriploExecutor) (adapter : NeuriploAdapter σ)
    (tokens : Nat → Bool) (state : σ) :
    adapterCalls executor adapter request tokens state =
      if tokens 0 then [] else [.llmInfer (NeuriploExecutor.llmInferenceParams request llm_params)] := by
  rw [adapterCalls, runInference_of_params hparams]
  exact (executor.inferStreaming_recording adapter hparams tokens state).1

/-- Every generation stays below the limit, and fits the context behind its prompt. -/
def HonoursBudget (setup : Setup) (request : ExecutionRequest) (calls : List AdapterCall) : Prop :=
  ∀ params, .llmInfer params ∈ calls →
    params.max_tokens ≤ setup.config.max_tokens ∧
      setup.estimated_tokens request + params.max_tokens ≤ setup.config.context_length

/-- The default of the executor is not above the one of the scheduler, and the sum
that the scheduler checked did not wrap; or else there is room for the default. -/
def FitsDefault (setup : Setup) (request : ExecutionRequest) (llm_params : LlmGenerationParams) : Prop :=
  (llm_params.max_tokens = none → 256 ≤ setup.config.max_tokens) ∧
    (setup.estimated_tokens request + effectiveMaxTokens request setup.config < 2 ^ 64 ∨
      llm_params.max_tokens = none ∧ setup.estimated_tokens request + 256 ≤ setup.config.context_length)

/-- A wrapped sum within the bound is the sum exactly when that fits. -/
theorem wrapSize_add_le_iff {left right bound : Nat} (hbound : bound < 2 ^ 64)
    (hwrapped : wrapSize (left + right) ≤ bound) :
    left + right ≤ bound ↔ left + right < 2 ^ 64 := by
  constructor
  · intro hle
    omega
  · intro hlt
    rwa [wrapSize, Nat.mod_eq_of_lt hlt] at hwrapped

/-- A given limit is the one the scheduler checked, in wrapping sums; without one
the scheduler checks its own default and the executor asks for 256 tokens. -/
theorem budget_honoured_iff {setup : Setup} {start : Int} (hcontext : setup.config.context_length < 2 ^ 64)
    {s : State setup} (hreach : (system setup start).Reachable s) {request : Nat} {pending : PendingRequest}
    (hpending : s.requests request = some pending) {llm_params : LlmGenerationParams}
    (hparams : pending.request.llm_params = some llm_params) (executor : NeuriploExecutor) (adapter : NeuriploAdapter σ)
    (tokens : Nat → Bool) (state : σ) :
    HonoursBudget setup pending.request (adapterCalls executor adapter pending.request tokens state) ↔
      tokens 0 = true ∨ FitsDefault setup pending.request llm_params := by
  have hlimits := withinLimits_of_valid ((valid_of_reachable hreach).requests request pending hpending)
  have heffective : effectiveMaxTokens pending.request setup.config =
      llm_params.max_tokens.getD setup.config.max_tokens := by
    rw [effectiveMaxTokens, hparams]
    rfl
  unfold HonoursBudget FitsDefault
  rw [adapterCalls_of_params hparams]
  cases htoken : tokens 0 with
  | true => simp
  | false =>
    have hsum := wrapSize_add_le_iff hcontext hlimits.context
    have hmax := hlimits.max_tokens
    simp only [Bool.false_eq_true, if_false, List.mem_singleton, AdapterCall.llmInfer.injEq, forall_eq, false_or,
      NeuriploExecutor.llmInferenceParams]
    rw [heffective] at hsum hmax ⊢
    cases hgiven : llm_params.max_tokens with
    | some max_tokens =>
      rw [hgiven, Option.getD_some] at hsum hmax
      simp only [Option.getD_some, hsum, hmax, true_and, reduceCtorEq, false_implies, false_and, or_false]
    | none =>
      rw [hgiven, Option.getD_none] at hsum
      simp only [Option.getD_none, true_implies, true_and]
      constructor
      · rintro ⟨hdefault, hroom⟩
        exact ⟨hdefault, .inr hroom⟩
      · rintro ⟨hdefault, hwrapped | hroom⟩
        · have hchecked := hsum.mpr hwrapped
          exact ⟨hdefault, by omega⟩
        · exact ⟨hdefault, hroom⟩

/-- One slot, a token for each character, and a limit on what is generated. -/
def answering (max_tokens : Nat) : Setup :=
  { singleSlot with config := { max_tokens } }

/-- A prompt with generation parameters that leave everything open. -/
def generating : ExecutionRequest :=
  { prompted with llm_params := some {} }

def generatingRun (max_tokens : Nat) : List (Event (answering max_tokens)) :=
  .submit 0 generating :: List.replicate 5 (.submitter 0)

def silentAdapter : NeuriploAdapter Unit := .ofInfer fun _ state => (.ok {}, state)

def textExecutor : NeuriploExecutor where
  metadata_ := { inputs := [{ name := "prompt", datatype := "BYTES", shape := [1] }] }

/-- A request whose prompt and tokens fit the context. -/
theorem budget_honoured_generating :
    ∃ s pending, System.replay State.step { now := 0 } (generatingRun 512) = some s ∧ s.requests 0 = some pending ∧
      HonoursBudget (answering 512) pending.request
        (adapterCalls textExecutor silentAdapter pending.request (fun _ => false) ()) := by
  have hreplay : ∃ s pending, System.replay State.step { now := 0 } (generatingRun 512) = some s ∧
      s.requests 0 = some pending ∧ pending.request = generating := ⟨_, _, rfl, rfl, rfl⟩
  obtain ⟨s, pending, hrun, hpending, hrequest⟩ := hreplay
  have hparams : pending.request.llm_params = some {} := by rw [hrequest, generating]
  refine ⟨s, pending, hrun, hpending, ?_⟩
  refine (budget_honoured_iff (by decide) (System.reachable_of_replay hrun) hpending hparams textExecutor silentAdapter
    (fun _ => false) ()).mpr (.inr ⟨fun _ => by decide, .inl ?_⟩)
  rw [hrequest]
  decide

/-- A model limited to 128 tokens is asked for 256. -/
theorem default_exceeds_limit :
    ∃ s pending, (system (answering 128) 0).Reachable s ∧ s.requests 0 = some pending ∧
      pending.request.llm_params = some {} ∧
      ¬ HonoursBudget (answering 128) pending.request
        (adapterCalls textExecutor silentAdapter pending.request (fun _ => false) ()) := by
  have hreplay : ∃ s pending, System.replay State.step { now := 0 } (generatingRun 128) = some s ∧
      s.requests 0 = some pending ∧ pending.request.llm_params = some {} := ⟨_, _, rfl, rfl, rfl⟩
  obtain ⟨s, pending, hrun, hpending, hparams⟩ := hreplay
  refine ⟨s, pending, System.reachable_of_replay hrun, hpending, hparams, ?_⟩
  intro hhonours
  rw [adapterCalls_of_params hparams, if_neg Bool.false_ne_true] at hhonours
  obtain ⟨hlimit, -⟩ := hhonours _ List.mem_cons_self
  have hbelow : ¬ 256 ≤ 128 := by decide
  exact hbelow hlimit

end neuriplo.llm
