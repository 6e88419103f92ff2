import NeuriploRuntime.Llm.Accounts

open neuriplo.scheduler neuriplo.tensor transition

namespace neuriplo.llm

variable {setup : Setup}

/-- What `submit` estimates of a call. -/
def Setup.estimated_tokens (setup : Setup) (call : ExecutionRequest) : Nat := setup.countTokens (promptText call)

/-- The step of a call of `submit` from its memory check on, which finds room beside
the decodes of that moment. -/
structure PassesMemory (request : Nat) (call : ExecutionRequest) (moment next : State setup) : Prop where
  checking : moment.submits request = .checkingMemory call (setup.estimated_tokens call)
  passed : next.submits request = .dating call
  room : memoryPressure setup.config moment.active_decodes_ (setup.estimated_tokens call) = false

/-- A call passed the checks of its own `submit`, the one of the memory at a step of
the run, whose states are given latest first. -/
structure Admitted (run : List (State setup)) (request : Nat) (call : ExecutionRequest) : Prop where
  context : setup.estimated_tokens call ≤ setup.config.context_length
  memory : ∃ moment next, [next, moment] <:+: run ∧ PassesMemory request call moment next

/-- The request a worker has taken from the queue. -/
def WorkerPc.request : WorkerPc → Option Nat
  | .checkingCancelled request => some request
  | .checkingDeadline request => some request
  | .acquiring request _ => some request
  | .recheckingDraining request => some request
  | .recheckingDeadline request => some request
  | .selecting request => some request
  | .starting request _ => some request
  | .executing request _ _ => some request
  | .readingToken request _ _ _ => some request
  | .executed request _ _ _ _ => some request
  | .finishing request _ => some request
  | _ => none

/-- The bytes estimated for the request that a worker holds a decode slot for. -/
def State.decodingBytes (s : State setup) (worker : Fin setup.config.kv_cache_slots) : Nat :=
  if s.held worker = 0 then 0
  else (((s.workers worker).request.bind s.requests).map fun pending =>
    setup.estimated_tokens pending.request * memory_per_token_bytes).getD 0

/-- What a call of `submit` has checked so far. -/
def SubmitPc.Checked (run : List (State setup)) (request : Nat) : SubmitPc → Prop
  | .checkingDraining call estimated_tokens =>
    estimated_tokens = setup.estimated_tokens call ∧ estimated_tokens ≤ setup.config.context_length
  | .checkingMemory call estimated_tokens =>
    estimated_tokens = setup.estimated_tokens call ∧ estimated_tokens ≤ setup.config.context_length
  | .dating call => Admitted run request call
  | .enqueuing call _ _ => Admitted run request call
  | _ => True

/-- Whatever is queued or with a worker was admitted. -/
structure State.Checked (run : List (State setup)) (s : State setup) : Prop where
  submits : ∀ request, (s.submits request).Checked run request
  requests : ∀ request pending, s.requests request = some pending → Admitted run request pending.request
  queue : ∀ request ∈ s.queue_, s.requests request ≠ none
  workers : ∀ worker request, (s.workers worker).request = some request → s.requests request ≠ none

theorem Admitted.mono {run : List (State setup)} {request : Nat} {call : ExecutionRequest}
    (hadmitted : Admitted run request call) (s : State setup) : Admitted (s :: run) request call := by
  obtain ⟨hcontext, moment, next, hnext, hpasses⟩ := hadmitted
  exact ⟨hcontext, moment, next, List.infix_cons hnext, hpasses⟩

theorem SubmitPc.Checked.mono {run : List (State setup)} {request : Nat} {pc : SubmitPc}
    (hchecked : pc.Checked run request) (s : State setup) : pc.Checked (s :: run) request := by
  cases pc with
  | checkingDraining | checkingMemory => exact hchecked
  | dating call => exact Admitted.mono hchecked s
  | enqueuing call enqueued_at deadline => exact Admitted.mono hchecked s
  | _ => trivial

/-- What was validated fits the context. -/
theorem context_of_valid {request : ExecutionRequest} {config : LlmSchedulerConfig} {estimated_tokens : Nat}
    (hvalid : validateLlmRequest request config estimated_tokens = none) :
    estimated_tokens ≤ config.context_length := by
  unfold validateLlmRequest at hvalid
  split at hvalid
  · cases hvalid
  · split at hvalid
    · cases hvalid
    · split at hvalid
      · cases hvalid
      · omega

section Steps

variable {past : List (State setup)} {s s' : State setup} {worker : Fin setup.config.kv_cache_slots}

/-- A call goes on as its checks allow. -/
theorem SubmitPc.Checked.runSubmit {request : Nat} (hchecked : (s.submits request).Checked (s :: past) request)
    (hstep : s.runSubmit request = some s') : (s'.submits request).Checked (s' :: s :: past) request := by
  have hsubmit {t : State setup} {run : List (State setup)} {pc' : SubmitPc} (hpc' : pc'.Checked run request) :
      ((t.setSubmit request pc').submits request).Checked run request := by
    change (Function.update t.submits request pc' request).Checked run request
    rw [Function.update_self]
    exact hpc'
  unfold State.runSubmit at hstep
  cases hpc : s.submits request with
  | idle | returned => simp [hpc] at hstep
  | validating call =>
    simp only [hpc] at hstep
    split at hstep <;> cases hstep
    · exact hsubmit trivial
    · exact hsubmit ⟨rfl, context_of_valid ‹_›⟩
  | checkingDraining call estimated_tokens =>
    rw [hpc] at hchecked
    simp only [hpc] at hstep
    cases hstep
    apply hsubmit
    split
    · trivial
    · exact hchecked
  | checkingMemory call estimated_tokens =>
    rw [hpc] at hchecked
    obtain ⟨rfl, hcontext⟩ := hchecked
    simp only [hpc] at hstep
    split at hstep <;> cases hstep
    · exact hsubmit trivial
    · refine hsubmit ⟨hcontext, s, _, ⟨[], past, rfl⟩, hpc, Function.update_self .., eq_false_of_ne_true ‹_›⟩
  | dating call =>
    rw [hpc] at hchecked
    simp only [hpc] at hstep
    cases hstep
    exact hsubmit (Admitted.mono hchecked _)
  | enqueuing call enqueued_at deadline =>
    simp only [hpc] at hstep
    cases hstep
    unfold State.enqueue
    split
    · exact hsubmit trivial
    · split
      · exact hsubmit trivial
      · exact hsubmit trivial
  | waiting =>
    simp only [hpc] at hstep
    split at hstep
    · cases hstep
    · split at hstep
      · cases hstep
        exact hsubmit trivial
      · split at hstep <;> cases hstep
        exact hsubmit trivial
  | expiring expiry =>
    cases expiry with
    | setCancelled =>
      simp only [hpc] at hstep
      split at hstep <;> cases hstep
      exact hsubmit trivial
    | _ =>
      simp only [hpc] at hstep
      cases hstep
      exact hsubmit trivial

/-- The requests stay the calls they were made of. -/
def State.KeepsCalls (s s' : State setup) : Prop :=
  ∀ request, (s'.requests request).map (·.request) = (s.requests request).map (·.request)

theorem State.KeepsCalls.of_same (hrequests : s'.requests = s.requests) : s.KeepsCalls s' := by
  intro request
  rw [hrequests]

/-- A change of a request that leaves its call keeps the calls. -/
theorem State.KeepsCalls.setRequest {request : Nat} {pending pending' : PendingRequest}
    (hpending : s.requests request = some pending)
    (hrequests : s'.requests = Function.update s.requests request (some pending'))
    (hcall : pending'.request = pending.request) : s.KeepsCalls s' := by
  intro other
  rw [hrequests]
  by_cases hother : other = request
  · subst hother
    rw [Function.update_self, hpending, Option.map_some, Option.map_some, hcall]
  · rw [Function.update_of_ne hother]

/-- What a worker does to the requests: it takes one from the queue, or goes on
with its own. -/
structure State.Works.Serves (s : State setup) (worker : Fin setup.config.kv_cache_slots) (s' : State setup) :
    Prop where
  calls : s.KeepsCalls s'
  queue : ∀ request ∈ s'.queue_, request ∈ s.queue_
  submits : s'.submits = s.submits
  request : ∃ pc' : WorkerPc, s'.workers = Function.update s.workers worker pc' ∧
    ∀ request, pc'.request = some request → (s.workers worker).request = some request ∨ request ∈ s.queue_

/-- A quiet step takes no request on. -/
theorem WorkerPc.Quiet.request {pc pc' : WorkerPc} (hquiet : pc.Quiet pc') {request : Nat}
    (hrequest : pc'.request = some request) : pc.request = some request := by
  cases hquiet <;> first | exact hrequest | cases hrequest

/-- A straight-line step serves the request it served. -/
theorem State.perform_serves {request : Nat} {pending : PendingRequest} {op : WorkerOp} {ops : List WorkerOp}
    (hpc : s.workers worker = .finishing request (op :: ops)) (hpending : s.requests request = some pending) :
    State.Works.Serves s worker (s.perform worker request pending ops op) := by
  have hkept {t : State setup} {ops' : List WorkerOp} (hcalls : s.KeepsCalls t) (hqueue : t.queue_ = s.queue_)
      (hsubmits : t.submits = s.submits)
      (hworkers : t.workers = Function.update s.workers worker (.finishing request ops')) :
      State.Works.Serves s worker t := by
    refine ⟨hcalls, fun _ hmem => hqueue ▸ hmem, hsubmits, _, hworkers, ?_⟩
    intro other hrequest
    rw [hpc]
    exact .inl hrequest
  cases op with
  | releaseDecodeSlot =>
    have hreleased (active_decodes_ : Nat) : State.Works.Serves s worker
        ({ s with active_decodes_ }.setWorker worker (.finishing request ops)) :=
      hkept (.of_same rfl) rfl rfl rfl
    exact hreleased (fetchSub s.active_decodes_)
  | settle =>
    simp only [State.perform]
    split
    · exact hkept (.of_same rfl) rfl rfl rfl
    · split
      · exact hkept (.of_same rfl) rfl rfl rfl
      · exact hkept (.of_same rfl) rfl rfl rfl
  | setValue =>
    simp only [State.perform]
    split
    · exact hkept (.setRequest hpending rfl rfl) rfl rfl rfl
    · exact ⟨.of_same rfl, fun _ hmem => hmem, rfl, _, rfl, by rintro _ ⟨⟩⟩
  | _ => exact hkept (.of_same rfl) rfl rfl rfl

/-- A worker's step serves the request it served, or one from the queue. -/
theorem State.Works.serves (hworks : s.Works worker s') : State.Works.Serves s worker s' := by
  have hmove {t : State setup} {pc pc' : WorkerPc} (hpc : s.workers worker = pc)
      (hworkers : t.workers = Function.update s.workers worker pc') (hrequest : pc'.request = pc.request)
      (hrequests : t.requests = s.requests) (hqueue : t.queue_ = s.queue_) (hsubmits : t.submits = s.submits) :
      State.Works.Serves s worker t := by
    refine ⟨.of_same hrequests, fun _ hmem => hqueue ▸ hmem, hsubmits, pc', hworkers, ?_⟩
    intro request hsome
    rw [hpc, ← hrequest]
    exact .inl hsome
  cases hworks with
  | quiet pc' hquiet =>
    exact ⟨.of_same rfl, fun _ hmem => hmem, rfl, pc', rfl, fun _ hrequest => .inl (hquiet.request hrequest)⟩
  | popped request queue_ hpc hqueue =>
    refine ⟨.of_same rfl, ?_, rfl, _, rfl, ?_⟩
    · intro other hmem
      rw [hqueue]
      exact List.mem_cons_of_mem request hmem
    · rintro other ⟨⟩
      rw [hqueue]
      exact .inr List.mem_cons_self
  | late _ _ hpc => exact hmove hpc rfl rfl rfl rfl rfl
  | locked _ _ _ hpc => exact hmove hpc rfl rfl rfl rfl rfl
  | parked _ hpc => exact hmove hpc rfl rfl rfl rfl rfl
  | refused _ _ hpc => exact hmove hpc rfl rfl rfl rfl rfl
  | acquired request hpc =>
    have hadded (active_decodes_ : Nat) : State.Works.Serves s worker
        ({ s with active_decodes_, slots_mutex_ := none }.setWorker worker (.recheckingDraining request)) :=
      hmove hpc rfl rfl rfl rfl rfl
    exact hadded (wrapSize (s.active_decodes_ + 1))
  | drained _ hpc => exact hmove hpc rfl rfl rfl rfl rfl
  | overdue _ _ hpc => exact hmove hpc rfl rfl rfl rfl rfl
  | selected _ hpc => exact hmove hpc rfl rfl rfl rfl rfl
  | readToken _ _ _ _ hpc => exact hmove hpc rfl rfl rfl rfl rfl
  | executed _ _ _ _ _ hpc => exact hmove hpc rfl rfl rfl rfl rfl
  | performed request op ops pending hpc hpending => exact State.perform_serves hpc hpending

theorem State.KeepsCalls.accepted (hcalls : s.KeepsCalls s') {request : Nat} (haccepted : s.requests request ≠ none) :
    s'.requests request ≠ none := by
  intro hnone
  have hcall := hcalls request
  rw [hnone, Option.map_none, eq_comm, Option.map_eq_none_iff] at hcall
  exact haccepted hcall

theorem State.Checked.next (hchecked : s.Checked (s :: past)) (hcalls : s.KeepsCalls s')
    (hsubmits : ∀ request, s'.submits request = s.submits request ∨
      (s'.submits request).Checked (s' :: s :: past) request)
    (hqueue : ∀ request ∈ s'.queue_, request ∈ s.queue_)
    (hworkers : ∀ worker request, (s'.workers worker).request = some request →
      (s.workers worker).request = some request ∨ request ∈ s.queue_) : s'.Checked (s' :: s :: past) := by
  refine ⟨?_, ?_, ?_, ?_⟩
  · intro request
    obtain hsame | hnew := hsubmits request
    · rw [hsame]
      exact (hchecked.submits request).mono s'
    · exact hnew
  · intro request pending hpending
    have hcall := hcalls request
    rw [hpending, Option.map_some, eq_comm, Option.map_eq_some_iff] at hcall
    obtain ⟨was, hwas, hsame⟩ := hcall
    rw [← hsame]
    exact (hchecked.requests request was hwas).mono s'
  · intro request hmem
    exact hcalls.accepted (hchecked.queue request (hqueue request hmem))
  · intro worker request hrequest
    obtain hwas | hqueued := hworkers worker request hrequest
    · exact hcalls.accepted (hchecked.workers worker request hwas)
    · exact hcalls.accepted (hchecked.queue request hqueued)

/-- A worker's step keeps what was checked. -/
theorem State.Checked.works (hchecked : s.Checked (s :: past)) (hworks : s.Works worker s') :
    s'.Checked (s' :: s :: past) := by
  obtain ⟨hcalls, hqueue, hsubmits, pc', hworkers, hrequest⟩ := hworks.serves
  refine hchecked.next hcalls (fun request => .inl (by rw [hsubmits])) hqueue ?_
  intro other request hsome
  by_cases hother : other = worker
  · subst hother
    rw [hworkers, Function.update_self] at hsome
    exact hrequest request hsome
  · rw [hworkers, Function.update_of_ne hother] at hsome
    exact .inl hsome

/-- A call that is queued has passed the checks. -/
theorem State.Checked.enqueued (hchecked : s.Checked (s :: past)) {request : Nat} {call : ExecutionRequest}
    {enqueued_at deadline : Int} (hpc : s.submits request = .enqueuing call enqueued_at deadline)
    (hrequests : s'.requests = Function.update s.requests request (some { request := call, enqueued_at, deadline }))
    (hqueue : s'.queue_ = s.queue_ ++ [request]) (hworkers : s'.workers = s.workers)
    (hsubmits : ∀ other, other ≠ request → s'.submits other = s.submits other)
    (hself : (s'.submits request).Checked (s' :: s :: past) request) : s'.Checked (s' :: s :: past) := by
  have hadmitted := hchecked.submits request
  rw [hpc] at hadmitted
  have haccepted {other : Nat} (hwas : s.requests other ≠ none) : s'.requests other ≠ none := by
    rw [hrequests]
    by_cases hother : other = request
    · subst hother
      rw [Function.update_self]
      exact nofun
    · rwa [Function.update_of_ne hother]
  refine ⟨?_, ?_, ?_, ?_⟩
  · intro other
    by_cases hother : other = request
    · subst hother
      exact hself
    · rw [hsubmits other hother]
      exact (hchecked.submits other).mono s'
  · intro other pending hpending
    rw [hrequests] at hpending
    obtain ⟨rfl, rfl⟩ | ⟨-, hbefore⟩ := update_some_eq_some_iff.mp hpending
    · exact Admitted.mono hadmitted s'
    · exact (hchecked.requests other pending hbefore).mono s'
  · intro other hmem
    rw [hqueue] at hmem
    obtain hmem | hmem := List.mem_append.mp hmem
    · exact haccepted (hchecked.queue other hmem)
    · rw [List.mem_singleton.mp hmem, hrequests, Function.update_self]
      exact nofun
  · intro worker other hrequest
    rw [hworkers] at hrequest
    exact haccepted (hchecked.workers worker other hrequest)

/-- A step of `submit` keeps what was checked, and checks its own request. -/
theorem State.Checked.runSubmit (hchecked : s.Checked (s :: past)) {request : Nat}
    (hstep : s.runSubmit request = some s') : s'.Checked (s' :: s :: past) := by
  have hself := (hchecked.submits request).runSubmit hstep
  have hmoved (hothers : ∀ other, other ≠ request → s'.submits other = s.submits other) (hcalls : s.KeepsCalls s')
      (hqueue : s'.queue_ = s.queue_) (hworkers : s'.workers = s.workers) : s'.Checked (s' :: s :: past) := by
    refine hchecked.next hcalls ?_ (fun _ hmem => hqueue ▸ hmem) (fun _ _ hrequest => .inl (hworkers ▸ hrequest))
    intro other
    by_cases hother : other = request
    · subst hother
      exact .inr hself
    · exact .inl (hothers other hother)
  have hsubmits {t : State setup} {pc' : SubmitPc} (hsame : t.submits = s.submits) (other : Nat)
      (hother : other ≠ request) :
      (t.setSubmit request pc').submits other = s.submits other := by
    rw [← hsame]
    exact Function.update_of_ne hother ..
  cases State.runSubmit_submits hstep with
  | enqueued call enqueued_at deadline hpc =>
    exact hchecked.enqueued hpc rfl rfl rfl (hsubmits rfl) hself
  | cancelled pending hpc hpending => exact hmoved (hsubmits rfl) (.setRequest hpending rfl rfl) rfl rfl
  | _ => exact hmoved (hsubmits rfl) (.of_same rfl) rfl rfl

/-- Every step keeps what was checked. -/
theorem State.Checked.step (hchecked : s.Checked (s :: past)) {event : Event setup} (hstep : s.step event = some s') :
    s'.Checked (s' :: s :: past) := by
  have hkept {t : State setup} (hcalls : s.KeepsCalls t) (hsubmits : t.submits = s.submits)
      (hqueue : ∀ request ∈ t.queue_, request ∈ s.queue_) (hworkers : t.workers = s.workers) :
      t.Checked (t :: s :: past) :=
    hchecked.next hcalls (fun _ => .inl (by rw [hsubmits])) hqueue (fun _ _ hrequest => .inl (hworkers ▸ hrequest))
  cases event with
  | tick | cancel | stopAccepting =>
    cases hstep
    exact hkept (.of_same rfl) rfl (fun _ hmem => hmem) rfl
  | submit request call =>
    simp only [State.step] at hstep
    split at hstep <;> cases hstep
    refine hchecked.next (.of_same rfl) ?_ (fun _ hmem => hmem) (fun _ _ hrequest => .inl hrequest)
    intro other
    by_cases hother : other = request
    · subst hother
      right
      change (Function.update s.submits other (.validating call) other).Checked _ other
      rw [Function.update_self]
      trivial
    · exact .inl (Function.update_of_ne hother ..)
  | submitter request => exact hchecked.runSubmit hstep
  | worker worker => exact hchecked.works (State.runWorker_works hstep)
  | infer worker outcome => exact hchecked.works (State.infer_works hstep)
  | beginDrain thread =>
    simp only [State.step] at hstep
    split at hstep <;> cases hstep
    exact hkept (.of_same rfl) rfl (fun _ hmem => hmem) rfl
  | drain thread =>
    have hqueue : ∀ request ∈ s'.queue_, request ∈ s.queue_ := by
      simp only [State.step, State.runDrain] at hstep
      split at hstep
      · split at hstep <;> cases hstep
        exact fun _ hmem => hmem
      · cases hstep
        rintro _ ⟨⟩
      · cases hstep
        exact fun _ hmem => hmem
      · obtain ⟨found, -, rfl⟩ := Option.map_eq_some_iff.mp hstep
        split <;> exact fun _ hmem => hmem
      · cases hstep
    cases State.runDrain_drains hstep with
    | moved queue_ pc' => exact hkept (.of_same rfl) rfl hqueue rfl
    | answered request found pc' hfound hpromise => exact hkept (.setRequest hfound rfl rfl) rfl hqueue rfl

end Steps

/-- In every run what was accepted was checked. -/
theorem checked_of_run {start : Int} {history : List (State setup)} {s : State setup}
    (hrun : (system setup start).Run history s) : s.Checked (s :: history) := by
  refine @System.Run.induction _ _ (system setup start) (fun history s => s.Checked (s :: history)) ?_ ?_ _ _ hrun
  · rintro s rfl
    refine ⟨fun _ => trivial, ?_, ?_, ?_⟩
    · rintro request pending ⟨⟩
    · rintro request ⟨⟩
    · intro worker request hrequest
      change none = some request at hrequest
      cases hrequest
  · intro history s event s' _ hchecked hstep
    exact hchecked.step hstep

/-- Where nothing wraps, there is no pressure exactly when the budget holds. -/
theorem memoryPressure_eq_false {config : LlmSchedulerConfig} {active_decodes estimated_tokens : Nat}
    (hbudget : 0 < config.memory_budget_bytes)
    (hfits : (active_decodes + 1) * (estimated_tokens * memory_per_token_bytes) < 2 ^ 64) :
    memoryPressure config active_decodes estimated_tokens = false ↔
      (active_decodes + 1) * (estimated_tokens * memory_per_token_bytes) ≤ config.memory_budget_bytes := by
  generalize hbytes : estimated_tokens * memory_per_token_bytes = bytes at hfits ⊢
  rw [Nat.add_mul, Nat.one_mul] at hfits ⊢
  have hwrap {value : Nat} (hlt : value < 2 ^ 64) : wrapSize value = value := Nat.mod_eq_of_lt hlt
  have hown : wrapSize bytes = bytes := hwrap (by omega)
  have hactive : wrapSize (active_decodes * bytes) = active_decodes * bytes := hwrap (by omega)
  have hsum : wrapSize (active_decodes * bytes + bytes) = active_decodes * bytes + bytes := hwrap hfits
  simp only [memoryPressure, hbytes, hown, hactive, hsum, hbudget, decide_true, Bool.true_and, decide_eq_false_iff_not,
    Nat.not_lt]

/-- What is decoded was let in by the check of its own `submit`, which was about its
own size only: a slot never holds more than the budget. -/
theorem decodes_admitted {start : Int} {history : List (State setup)} {s : State setup}
    (hrun : (system setup start).Run history s) :
    (∀ worker request, (s.workers worker).request = some request →
      ∃ pending, s.requests request = some pending ∧ Admitted (s :: history) request pending.request) ∧
    (0 < setup.config.memory_budget_bytes →
      (setup.config.kv_cache_slots + 1) * (setup.config.context_length * memory_per_token_bytes) < 2 ^ 64 →
      (∀ worker request pending, (s.workers worker).request = some request → s.requests request = some pending →
        ∃ moment next, [next, moment] <:+: s :: history ∧ PassesMemory request pending.request moment next ∧
          (moment.active_decodes_ + 1) * (setup.estimated_tokens pending.request * memory_per_token_bytes) ≤
            setup.config.memory_budget_bytes) ∧
      tally s.decodingBytes ≤ s.active_decodes_ * setup.config.memory_budget_bytes ∧
      s.active_decodes_ ≤ setup.config.kv_cache_slots) := by
  have hchecked := checked_of_run hrun
  have hheld := slotsHeld_reachable hrun.reachable
  refine ⟨?_, ?_⟩
  · intro worker request hrequest
    obtain ⟨pending, hpending⟩ := Option.ne_none_iff_exists'.mp (hchecked.workers worker request hrequest)
    exact ⟨pending, hpending, hchecked.requests request pending hpending⟩
  · intro hbudget hfits
    have hwithin {request : Nat} {pending : PendingRequest} (hpending : s.requests request = some pending) :
        ∃ moment next, [next, moment] <:+: s :: history ∧ PassesMemory request pending.request moment next ∧
          (moment.active_decodes_ + 1) * (setup.estimated_tokens pending.request * memory_per_token_bytes) ≤
            setup.config.memory_budget_bytes := by
      obtain ⟨hcontext, moment, next, hnext, hpasses⟩ := hchecked.requests request pending hpending
      have hreach : (system setup start).Reachable moment := by
        obtain rfl | hmem := List.mem_cons.mp (hnext.subset (List.mem_cons_of_mem _ List.mem_cons_self))
        · exact hrun.reachable
        · exact hrun.reachable_of_mem hmem
      have hslots := (slotsHeld_reachable hreach).le_slots
      refine ⟨moment, next, hnext, hpasses,
        (memoryPressure_eq_false hbudget (lt_of_le_of_lt ?_ hfits)).mp hpasses.room⟩
      exact Nat.mul_le_mul (Nat.succ_le_succ hslots) (Nat.mul_le_mul_right _ hcontext)
    refine ⟨fun worker request pending _ hpending => hwithin hpending, ?_, hheld.le_slots⟩
    rw [hheld.active]
    apply tally_le_mul
    intro worker
    unfold State.decodingBytes
    split
    · exact Nat.zero_le _
    · rename_i hholds
      have hone : 1 ≤ s.held worker := Nat.one_le_iff_ne_zero.mpr hholds
      have hbytes : (((s.workers worker).request.bind s.requests).map fun pending =>
          setup.estimated_tokens pending.request * memory_per_token_bytes).getD 0 ≤
            setup.config.memory_budget_bytes := by
        cases hpending : (s.workers worker).request.bind s.requests with
        | none => exact Nat.zero_le _
        | some pending =>
          obtain ⟨request, -, hfound⟩ := Option.bind_eq_some_iff.mp hpending
          obtain ⟨moment, next, -, -, hle⟩ := hwithin hfound
          rw [Nat.add_mul, Nat.one_mul] at hle
          exact (Nat.le_add_left ..).trans hle
      calc _ ≤ setup.config.memory_budget_bytes := hbytes
        _ = 1 * setup.config.memory_budget_bytes := (Nat.one_mul _).symm
        _ ≤ s.held worker * setup.config.memory_budget_bytes := Nat.mul_le_mul_right _ hone

/-- Two slots, a budget of ten bytes, and a token for each character. -/
def tightBudget : Setup where
  config := { kv_cache_slots := 2, memory_budget_bytes := 10 }
  countTokens := String.length
  executors := 1
  hexecutors := Nat.one_pos
  hslots := Nat.two_pos
  hsize := by decide

def prompting (prompt : String) : ExecutionRequest where
  inputs := [{ name := "prompt", datatype := "BYTES", shape := [1], string_data := [prompt] }]

/-- A long prompt is decoded, with a short one beside it. -/
def mixedRun : List (Event tightBudget) :=
  .submit 0 (prompting "hello") :: List.replicate 5 (.submitter 0) ++ List.replicate 10 (.worker ⟨0, by decide⟩) ++
    .submit 1 (prompting "a") :: List.replicate 5 (.submitter 1) ++ List.replicate 10 (.worker ⟨1, by decide⟩)

theorem decodes_admitted_mixedRun :
    ∃ history s, System.trace State.step [] { now := 0 } mixedRun = some (history, s) ∧
      tally s.decodingBytes ≤ s.active_decodes_ * 10 := by
  have hreplay : ∃ history s, System.trace State.step [] { now := 0 } mixedRun = some (history, s) ∧
      s.active_decodes_ = 2 := ⟨_, _, rfl, rfl⟩
  obtain ⟨history, s, htrace, -⟩ := hreplay
  obtain ⟨-, hbudget⟩ := decodes_admitted (System.run_of_trace htrace)
  exact ⟨history, s, htrace, (hbudget (by decide) (by decide)).2.1⟩

/-- Ten bytes are meant for both, and they decode with twelve. -/
theorem mixed_prompts_exceed_budget :
    ∃ s, (system tightBudget 0).Reachable s ∧ tightBudget.config.memory_budget_bytes = 10 ∧
      12 ≤ tally s.decodingBytes := by
  have hreplay : ∃ s, System.replay State.step { now := 0 } mixedRun = some s ∧
      s.decodingBytes ⟨0, by decide⟩ = 10 ∧ s.decodingBytes ⟨1, by decide⟩ = 2 := ⟨_, rfl, rfl, rfl⟩
  obtain ⟨s, hrun, hfirst, hsecond⟩ := hreplay
  refine ⟨s, System.reachable_of_replay hrun, rfl, ?_⟩
  have hle := @add_le_tally _ _ _ s.decodingBytes ⟨0, by decide⟩ ⟨1, by decide⟩ (by decide)
  omega

end neuriplo.llm
