import NeuriploRuntime.Llm.MemoryBudget

open neuriplo.scheduler neuriplo.tensor transition

namespace neuriplo.llm

variable {setup : Setup}

/-- `submit` has nothing to say against a call. -/
def Setup.Valid (setup : Setup) (call : ExecutionRequest) : Prop :=
  validateLlmRequest call setup.config (setup.estimated_tokens call) = none

/-- What a valid call keeps to, as `size_t` adds. -/
structure WithinLimits (call : ExecutionRequest) (config : LlmSchedulerConfig) (estimated_tokens : Nat) : Prop where
  prompt : estimated_tokens ≤ config.context_length
  max_tokens : effectiveMaxTokens call config ≤ config.max_tokens
  context : wrapSize (estimated_tokens + effectiveMaxTokens call config) ≤ config.context_length

/-- What passes the validation is within the limits. -/
theorem withinLimits_of_valid {call : ExecutionRequest} {config : LlmSchedulerConfig} {estimated_tokens : Nat}
    (hvalid : validateLlmRequest call config estimated_tokens = none) :
    WithinLimits call config estimated_tokens := by
  have hprompt := context_of_valid hvalid
  unfold validateLlmRequest at hvalid
  split at hvalid
  · cases hvalid
  · dsimp only at hvalid
    split_ifs at hvalid with hempty hlong hlimit hcontext
    rw [Bool.or_eq_true, decide_eq_true_eq, decide_eq_true_eq, not_or] at hlimit
    exact ⟨hprompt, Nat.le_of_not_lt hlimit.2, Nat.le_of_not_lt hcontext⟩

/-- The call that `submit` goes on with once it is validated. -/
def SubmitPc.validated : SubmitPc → Option ExecutionRequest
  | .checkingDraining call _ => some call
  | .checkingMemory call _ => some call
  | .dating call => some call
  | .enqueuing call _ _ => some call
  | _ => none

/-- No invalid call gets past its validation. -/
structure State.Valid (s : State setup) : Prop where
  submits : ∀ request call, (s.submits request).validated = some call → setup.Valid call
  requests : ∀ request pending, s.requests request = some pending → setup.Valid pending.request

section Steps

variable {s s' : State setup}

/-- A step of `submit` validates its own call only. -/
theorem State.runSubmit_validated {request : Nat} (hstep : s.runSubmit request = some s') {call : ExecutionRequest}
    (hcall : (s'.submits request).validated = some call) :
    (s.submits request).validated = some call ∨ setup.Valid call := by
  have hsubmit {t : State setup} {pc' : SubmitPc}
      (hvalidated : ((t.setSubmit request pc').submits request).validated = some call) :
      pc'.validated = some call := by
    change (Function.update t.submits request pc' request).validated = some call at hvalidated
    rwa [Function.update_self] at hvalidated
  unfold runSubmit at hstep
  cases hpc : s.submits request with
  | idle | returned => simp [hpc] at hstep
  | validating other =>
    simp only [hpc] at hstep
    split at hstep <;> cases hstep
    · cases hsubmit hcall
    · cases hsubmit hcall
      exact .inr ‹_›
  | checkingDraining other estimated_tokens =>
    simp only [hpc] at hstep
    cases hstep
    have hkept := hsubmit hcall
    split at hkept
    · cases hkept
    · exact .inl hkept
  | checkingMemory other estimated_tokens =>
    simp only [hpc] at hstep
    split at hstep <;> cases hstep
    · cases hsubmit hcall
    · have hkept := hsubmit hcall
      exact .inl hkept
  | dating other =>
    simp only [hpc] at hstep
    cases hstep
    have hkept := hsubmit hcall
    exact .inl hkept
  | enqueuing other enqueued_at deadline =>
    simp only [hpc] at hstep
    cases hstep
    unfold enqueue at hcall
    split at hcall
    · cases hsubmit hcall
    · split at hcall
      · cases hsubmit hcall
      · cases hsubmit hcall
  | waiting =>
    simp only [hpc] at hstep
    split at hstep
    · cases hstep
    · split at hstep
      · cases hstep
        cases hsubmit hcall
      · split at hstep <;> cases hstep
        cases hsubmit hcall
  | expiring expiry =>
    cases expiry with
    | setCancelled =>
      simp only [hpc] at hstep
      split at hstep <;> cases hstep
      cases hsubmit hcall
    | _ =>
      simp only [hpc] at hstep
      cases hstep
      cases hsubmit hcall

/-- What is kept stays valid. -/
theorem State.Valid.next (hvalid : s.Valid) (hcalls : s.KeepsCalls s')
    (hsubmits : ∀ request call, (s'.submits request).validated = some call →
      (s.submits request).validated = some call ∨ setup.Valid call) : s'.Valid := by
  refine ⟨?_, ?_⟩
  · intro request call hcall
    obtain hwas | hnew := hsubmits request call hcall
    · exact hvalid.submits request call hwas
    · exact hnew
  · intro request pending hpending
    have hcall := hcalls request
    rw [hpending, Option.map_some, eq_comm, Option.map_eq_some_iff] at hcall
    obtain ⟨was, hwas, hsame⟩ := hcall
    rw [← hsame]
    exact hvalid.requests request was hwas

theorem State.Valid.kept (hvalid : s.Valid) (hcalls : s.KeepsCalls s') (hsubmits : s'.submits = s.submits) : s'.Valid :=
  hvalid.next hcalls fun _ _ hcall => .inl (hsubmits ▸ hcall)

/-- A step of `submit` keeps everything accepted valid. -/
theorem State.Valid.runSubmit (hvalid : s.Valid) {request : Nat} (hstep : s.runSubmit request = some s') :
    s'.Valid := by
  have hsubmits (hothers : ∀ other, other ≠ request → s'.submits other = s.submits other) (other : Nat)
      (call : ExecutionRequest) (hcall : (s'.submits other).validated = some call) :
      (s.submits other).validated = some call ∨ setup.Valid call := by
    by_cases hother : other = request
    · subst hother
      exact State.runSubmit_validated hstep hcall
    · rw [hothers other hother] at hcall
      exact .inl hcall
  have hothers {t : State setup} {pc' : SubmitPc} (hsame : t.submits = s.submits) (other : Nat)
      (hother : other ≠ request) :
      (t.setSubmit request pc').submits other = s.submits other := by
    rw [← hsame]
    exact Function.update_of_ne hother ..
  cases State.runSubmit_submits hstep with
  | enqueued call enqueued_at deadline hpc =>
    refine ⟨?_, ?_⟩
    · intro other otherCall hcall
      obtain hwas | hnew := hsubmits (hothers rfl) other otherCall hcall
      · exact hvalid.submits other otherCall hwas
      · exact hnew
    · intro other pending hpending
      change Function.update s.requests request (some { request := call, enqueued_at, deadline }) other = some pending
        at hpending
      by_cases hother : other = request
      · rw [hother, Function.update_self, Option.some.injEq] at hpending
        subst hpending
        exact hvalid.submits request call (by rw [hpc]; rfl)
      · rw [Function.update_of_ne hother] at hpending
        exact hvalid.requests other pending hpending
  | cancelled pending hpc hpending => exact hvalid.next (.setRequest hpending rfl rfl) (hsubmits (hothers rfl))
  | _ => exact hvalid.next (.of_same rfl) (hsubmits (hothers rfl))

/-- Every step keeps everything accepted valid. -/
theorem State.Valid.step (hvalid : s.Valid) {event : Event setup} (hstep : s.step event = some s') : s'.Valid := by
  have hworks {worker : Fin setup.config.kv_cache_slots} (hworks : s.Works worker s') : s'.Valid :=
    hvalid.kept hworks.serves.calls hworks.serves.submits
  cases event with
  | tick | cancel | stopAccepting =>
    cases hstep
    exact hvalid.kept (.of_same rfl) rfl
  | submit request call =>
    simp only [State.step] at hstep
    split at hstep <;> cases hstep
    refine hvalid.next (.of_same rfl) ?_
    intro other otherCall hcall
    change (Function.update s.submits request (.validating call) other).validated = some otherCall at hcall
    by_cases hother : other = request
    · rw [hother, Function.update_self] at hcall
      cases hcall
    · rw [Function.update_of_ne hother] at hcall
      exact .inl hcall
  | submitter request => exact hvalid.runSubmit hstep
  | worker worker => exact hworks (State.runWorker_works hstep)
  | infer worker outcome => exact hworks (State.infer_works hstep)
  | beginDrain thread =>
    simp only [State.step] at hstep
    split at hstep <;> cases hstep
    exact hvalid.kept (.of_same rfl) rfl
  | drain thread =>
    cases State.runDrain_drains hstep with
    | moved queue_ pc' => exact hvalid.kept (.of_same rfl) rfl
    | answered request found pc' hfound hpromise => exact hvalid.kept (.setRequest hfound rfl rfl) rfl

end Steps

/-- In every run everything accepted is valid. -/
theorem valid_of_reachable {start : Int} {s : State setup} (hreach : (system setup start).Reachable s) : s.Valid := by
  refine hreach.invariant ?_ ?_
  · rintro s rfl
    refine ⟨?_, ?_⟩
    · rintro request call ⟨⟩
    · rintro request pending ⟨⟩
  · intro s event s' _ hvalid hstep
    exact hvalid.step hstep

end neuriplo.llm
