import NeuriploRuntime.Llm.Slots

open neuriplo.scheduler neuriplo.tensor transition

namespace neuriplo.llm

variable {setup : Setup}

/-- The request's deadline has passed, or its cancel token is set, whoever set it. -/
def State.CutOff (s : State setup) (request : Nat) : Prop :=
  s.cancel_tokens request = true ∨ ∃ pending, s.requests request = some pending ∧ pending.deadline ≤ s.now

/-- A timeout is being made for the request. -/
def State.Expires (s : State setup) (request : Nat) : Prop :=
  s.submits request = .expiring .answer ∨
    ∃ worker ops, s.workers worker = .finishing request (.fulfillResult makeTimeoutResult :: ops)

/-- The request is inside an executor. -/
def State.Executes (s : State setup) (request : Nat) : Prop :=
  ∃ worker executor_index execution_started, s.workers worker = .executing request executor_index execution_started

/-- What an accepted request may be answered: a timeout made when it was cut
off, that the model is draining, or what an executor it was inside returned. -/
inductive State.Answers (past : List (State setup)) (s : State setup) (request : Nat) : SchedulerResult → Prop
  | timeout (moment : State setup) (hmem : moment ∈ past) (hexpires : moment.Expires request)
      (hthen : moment.CutOff request) (hdue : s.CutOff request) : Answers past s request makeTimeoutResult
  | draining : Answers past s request makeDrainingResult
  | completed (moment : State setup) (hmem : moment ∈ past) (hexecutes : moment.Executes request)
      (pending : PendingRequest) (hpending : s.requests request = some pending)
      (execution_started execution_finished : Int) (response : ExecutionResponse) :
      Answers past s request
        (completedResult pending.enqueued_at execution_started execution_finished 1 response)

/-- What one state keeps of an earlier one: time goes on, tokens stay set, and an
accepted request keeps its times. -/
structure State.Grows (s s' : State setup) : Prop where
  now : s.now ≤ s'.now
  tokens : ∀ request, s.cancel_tokens request = true → s'.cancel_tokens request = true
  requests : ∀ request pending, s.requests request = some pending → ∃ pending', s'.requests request = some pending' ∧
    pending'.enqueued_at = pending.enqueued_at ∧ pending'.deadline = pending.deadline

/-- What is cut off stays so. -/
theorem State.Grows.cutOff {s s' : State setup} (hgrows : s.Grows s') {request : Nat} (hdue : s.CutOff request) :
    s'.CutOff request := by
  obtain htoken | ⟨pending, hpending, hlate⟩ := hdue
  · exact .inl (hgrows.tokens request htoken)
  · obtain ⟨pending', hpending', -, hdeadline⟩ := hgrows.requests request pending hpending
    refine .inr ⟨pending', hpending', ?_⟩
    have hnow := hgrows.now
    omega

/-- A result that answers goes on doing so. -/
theorem State.Grows.answers {s s' : State setup} (hgrows : s.Grows s') {past : List (State setup)} {request : Nat}
    {result : SchedulerResult} (hanswers : s.Answers past request result) :
    s'.Answers (s :: past) request result := by
  cases hanswers with
  | timeout moment hmem hexpires hthen hdue =>
    exact .timeout moment (List.mem_cons_of_mem s hmem) hexpires hthen (hgrows.cutOff hdue)
  | draining => exact .draining
  | completed moment hmem hexecutes pending hpending started finished response =>
    obtain ⟨pending', hpending', henqueued, -⟩ := hgrows.requests request pending hpending
    rw [← henqueued]
    exact .completed moment (List.mem_cons_of_mem s hmem) hexecutes pending' hpending' started finished response

/-- What a step that a worker is bound to needs. -/
def WorkerOp.Sound (past : List (State setup)) (s : State setup) (request : Nat) : WorkerOp → Prop
  | .setToken => s.CutOff request
  | .countTimedOut => s.CutOff request
  | .settle _ execution_finished _ =>
    execution_finished ≤ s.now ∧ ∃ moment ∈ past, moment.Executes request
  | .fulfillResult result => (result = makeTimeoutResult ∧ s.CutOff request) ∨ s.Answers past request result
  | .setValue result => s.Answers past request result
  | _ => True

def WorkerPc.Sound (past : List (State setup)) (s : State setup) : WorkerPc → Prop
  | .acquiring request (.predDraining true) => s.CutOff request
  | .acquiring request (.predActive true) => s.CutOff request
  | .readingToken request _ _ _ => ∃ moment ∈ past, moment.Executes request
  | .executed request _ _ _ completed =>
    (∃ moment ∈ past, moment.Executes request) ∧ (completed = false → s.CutOff request)
  | .finishing request ops => ∀ op ∈ ops, op.Sound past s request
  | _ => True

/-- What a call of `submit` has returned, and what it needs to give up. -/
def SubmitPc.Sound (past : List (State setup)) (s : State setup) (request : Nat) : SubmitPc → Prop
  | .waiting => True
  | .expiring _ => s.CutOff request
  | .returned result =>
    (s.requests request = none ∧ result.scheduler_error ≠ .timeout) ∨ s.Answers past request result
  | _ => s.requests request = none

section Grows

variable {past : List (State setup)} {s s' : State setup}

theorem State.Grows.executed (s : State setup) {request : Nat} (hexecuted : ∃ moment ∈ past, moment.Executes request) :
    ∃ moment ∈ s :: past, moment.Executes request := by
  obtain ⟨moment, hmem, hexecutes⟩ := hexecuted
  exact ⟨moment, List.mem_cons_of_mem s hmem, hexecutes⟩

/-- A sound step stays sound. -/
theorem WorkerOp.Sound.grows (hgrows : s.Grows s') {request : Nat} {op : WorkerOp} (hsound : op.Sound past s request) :
    op.Sound (s :: past) s' request := by
  cases op with
  | setToken => exact hgrows.cutOff hsound
  | countTimedOut => exact hgrows.cutOff hsound
  | settle started finished response => exact ⟨hsound.1.trans hgrows.now, State.Grows.executed s hsound.2⟩
  | fulfillResult result =>
    obtain ⟨hresult, hdue⟩ | hanswers := hsound
    · exact .inl ⟨hresult, hgrows.cutOff hdue⟩
    · exact .inr (hgrows.answers hanswers)
  | setValue => exact hgrows.answers hsound
  | _ => trivial

/-- A sound place stays sound. -/
theorem WorkerPc.Sound.grows (hgrows : s.Grows s') {pc : WorkerPc} (hsound : pc.Sound past s) :
    pc.Sound (s :: past) s' := by
  unfold WorkerPc.Sound at hsound ⊢
  split at hsound
  · exact hgrows.cutOff hsound
  · exact hgrows.cutOff hsound
  · exact State.Grows.executed s hsound
  · exact ⟨State.Grows.executed s hsound.1, fun hfailed => hgrows.cutOff (hsound.2 hfailed)⟩
  · intro op hmem
    exact (hsound op hmem).grows hgrows
  · trivial

/-- A call of `submit` stays sound. -/
theorem SubmitPc.Sound.grows (hgrows : s.Grows s') {request : Nat} {pc : SubmitPc} (hsound : pc.Sound past s request)
    (hfresh : s.requests request = none → s'.requests request = none) : pc.Sound (s :: past) s' request := by
  cases pc with
  | waiting => trivial
  | expiring => exact hgrows.cutOff hsound
  | returned result =>
    obtain ⟨hnone, hresult⟩ | hanswers := hsound
    · exact .inl ⟨hfresh hnone, hresult⟩
    · exact .inr (hgrows.answers hanswers)
  | _ => exact hfresh hsound

theorem SubmitPc.Sound.of_isEarly {request : Nat} {pc : SubmitPc} (hearly : pc.isEarly = true) :
    pc.Sound past s request ↔ s.requests request = none := by
  cases pc with
  | waiting | expiring | returned => simp [isEarly] at hearly
  | _ => exact Iff.rfl

/-- Nothing accepted is touched. -/
theorem State.Grows.of_same (hnow : s.now ≤ s'.now)
    (htokens : ∀ request, s.cancel_tokens request = true → s'.cancel_tokens request = true)
    (hrequests : s'.requests = s.requests) : s.Grows s' := by
  refine ⟨hnow, htokens, ?_⟩
  intro request pending hpending
  exact ⟨pending, by rw [hrequests, hpending], rfl, rfl⟩

/-- Neither the clock nor the tokens nor what is accepted is touched. -/
theorem State.Grows.of_unchanged (hnow : s'.now = s.now) (htokens : s'.cancel_tokens = s.cancel_tokens)
    (hrequests : s'.requests = s.requests) : s.Grows s' :=
  .of_same (hnow ▸ le_refl _) (fun _ htoken => htokens ▸ htoken) hrequests

theorem State.setToken_mono {request other : Nat} (htoken : s.cancel_tokens other = true) :
    (s.setToken request).cancel_tokens other = true := by
  by_cases hother : other = request
  · subst hother
    exact Function.update_self ..
  · exact (Function.update_of_ne hother ..).trans htoken

/-- One accepted request is touched, but not its times. -/
theorem State.Grows.setRequest {request : Nat} {pending : PendingRequest} (pending' : PendingRequest)
    (hpending : s.requests request = some pending)
    (hrequests : s'.requests = Function.update s.requests request (some pending'))
    (henqueued : pending'.enqueued_at = pending.enqueued_at) (hdeadline : pending'.deadline = pending.deadline)
    (hnow : s'.now = s.now) (htokens : s'.cancel_tokens = s.cancel_tokens) : s.Grows s' := by
  refine ⟨hnow ▸ le_refl _, fun _ htoken => htokens ▸ htoken, ?_⟩
  intro other found hfound
  by_cases hother : other = request
  · subst hother
    rw [hpending, Option.some.injEq] at hfound
    subst hfound
    exact ⟨pending', by rw [hrequests, Function.update_self], henqueued, hdeadline⟩
  · exact ⟨found, by rw [hrequests, Function.update_of_ne hother, hfound], rfl, rfl⟩

end Grows

/-- Every answer under way, set or returned is one the request may be given. -/
structure State.Sound (past : List (State setup)) (s : State setup) : Prop where
  workers : ∀ worker, (s.workers worker).Sound past s
  submits : ∀ request, (s.submits request).Sound past s request
  promises : ∀ request pending result, s.requests request = some pending → pending.promise = some result →
    s.Answers past request result

end neuriplo.llm
