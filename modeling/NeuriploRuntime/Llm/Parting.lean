import NeuriploRuntime.Llm.Queueing

open neuriplo.scheduler neuriplo.tensor transition

namespace neuriplo.llm

variable {setup : Setup}

/-- The request was accepted, and its promise is not set. -/
def State.Open (s : State setup) (request : Nat) : Prop :=
  ∃ pending, s.requests request = some pending ∧ pending.promise = none

/-- The submitter of the request has given it up. -/
def State.GivenUp (s : State setup) (request : Nat) : Prop :=
  ∃ pending, s.requests request = some pending ∧ pending.cancelled = true

section Steps

variable {s s' : State setup} {worker : Fin setup.config.kv_cache_slots}

/-- A worker parts with its request when the submitter has given it up, or by
setting its promise. -/
inductive State.Parts (s : State setup) (worker : Fin setup.config.kv_cache_slots) (s' : State setup)
    (pc' : WorkerPc) : Prop
  | unset (hrequests : s'.requests = s.requests)
      (hparts : ∀ request, (s.workers worker).owned = some request → pc'.owned = none → s.GivenUp request)
  | set (request : Nat) (pending : PendingRequest) (result : SchedulerResult)
      (howned : (s.workers worker).owned = some request) (hpending : s.requests request = some pending)
      (hopen : pending.promise = none)
      (hrequests : s'.requests = Function.update s.requests request (some { pending with promise := some result }))
      (hparts : pc'.owned = none)

/-- A worker answers its request at most once, and has not been terminated. -/
structure WorkerPc.Single (pc : WorkerPc) : Prop where
  answers : pc.ops.countP (·.answers) ≤ 1
  alive : ∀ ops, pc ≠ .terminated ops

theorem WorkerPc.Quiet.single {pc pc' : WorkerPc} (hquiet : pc.Quiet pc') : pc'.Single := by
  constructor
  · rw [hquiet.ops]
    exact Nat.zero_le 1
  · rintro ops rfl
    cases hquiet

/-- Steps with one answer among them answer once. -/
theorem WorkerPc.Single.finishing {request : Nat} {ops : List WorkerOp} (hanswers : ops.countP (·.answers) ≤ 1) :
    (WorkerPc.finishing request ops).Single :=
  ⟨hanswers, fun _ hterminated => by cases hterminated⟩

theorem owned_finishing_of_pos (request : Nat) {ops : List WorkerOp} (hanswers : 0 < ops.countP (·.answers)) :
    (WorkerPc.finishing request ops).owned = some request :=
  owned_finishing request (List.any_eq_true.mpr (List.countP_pos_iff.mp hanswers))

/-- Nothing is owned once nothing is left that answers. -/
theorem owned_finishing_none (request : Nat) {ops : List WorkerOp} (hanswers : ops.countP (·.answers) = 0) :
    (WorkerPc.finishing request ops).owned = none := by
  have hnone : ops.any (·.answers) = false := by
    rw [List.any_eq_false]
    exact List.countP_eq_zero.mp hanswers
  simp only [WorkerPc.owned, hnone, Bool.false_eq_true, ↓reduceIte]

/-- How a straight-line step parts with its request. -/
theorem State.perform_parts {request : Nat} {op : WorkerOp} {ops : List WorkerOp} {pending : PendingRequest}
    (hpc : s.workers worker = .finishing request (op :: ops)) (hpending : s.requests request = some pending)
    (hsingle : (s.workers worker).Single)
    (hopen : ∀ request, (s.workers worker).owned = some request → s.Open request) :
    ∃ pc', (s.perform worker request pending ops op).workers = Function.update s.workers worker pc' ∧ pc'.Single ∧
      s.Parts worker (s.perform worker request pending ops op) pc' := by
  have hcount : (op :: ops).countP (·.answers) ≤ 1 := by
    have hanswers := hsingle.answers
    rwa [hpc] at hanswers
  rw [List.countP_cons] at hcount
  have howned (hanswers : op.answers = true) : (s.workers worker).owned = some request := by
    rw [hpc, @owned_finishing request (op :: ops) (by rw [List.any_cons, hanswers, Bool.true_or])]
  have hrest (hanswers : op.answers = true) : ops.countP (·.answers) = 0 := by
    rw [hanswers, if_pos rfl] at hcount
    omega
  -- a step that does not answer leaves what answers
  have hkept {t : State setup} (hanswers : op.answers = false)
      (hworkers : t.workers = Function.update s.workers worker (.finishing request ops))
      (hrequests : t.requests = s.requests) :
      ∃ pc', t.workers = Function.update s.workers worker pc' ∧ pc'.Single ∧ s.Parts worker t pc' := by
    refine ⟨_, hworkers, .finishing (by omega), .unset hrequests ?_⟩
    intro other hother hparted
    have hsame : (WorkerPc.finishing request ops).owned = (s.workers worker).owned := by
      simp only [hpc, WorkerPc.owned, List.any_cons, hanswers, Bool.false_or]
    rw [hsame, hother] at hparted
    cases hparted
  -- one that does goes on to answer, unless the request was given up
  have hnext {t : State setup} {ops' : List WorkerOp} (hanswers : op.answers = true)
      (hworkers : t.workers = Function.update s.workers worker (.finishing request ops'))
      (hrequests : t.requests = s.requests)
      (hops' : ops'.countP (·.answers) = 1 ∨ pending.cancelled = true ∧ ops' = ops) :
      ∃ pc', t.workers = Function.update s.workers worker pc' ∧ pc'.Single ∧ s.Parts worker t pc' := by
    obtain hone | ⟨hcancelled, rfl⟩ := hops'
    · refine ⟨_, hworkers, .finishing hone.le, .unset hrequests ?_⟩
      intro other hother hparted
      rw [owned_finishing_of_pos request (by omega)] at hparted
      cases hparted
    · refine ⟨_, hworkers, .finishing (by rw [hrest hanswers]; exact Nat.zero_le 1), .unset hrequests ?_⟩
      intro other hother _
      rw [howned hanswers, Option.some.injEq] at hother
      subst hother
      exact ⟨pending, hpending, hcancelled⟩
  cases op with
  | setToken => exact hkept rfl rfl rfl
  | decrementInflight => exact hkept rfl rfl rfl
  | recordLatencies => exact hkept rfl rfl rfl
  | countTimedOut => exact hkept rfl rfl rfl
  | releaseDecodeSlot =>
    have hreleased (active_decodes_ : Nat) :
        ∃ pc', ({ s with active_decodes_ }.setWorker worker (.finishing request ops)).workers =
          Function.update s.workers worker pc' ∧ pc'.Single ∧
            s.Parts worker ({ s with active_decodes_ }.setWorker worker (.finishing request ops)) pc' :=
      hkept rfl rfl rfl
    exact hreleased (fetchSub s.active_decodes_)
  | fulfillResult result =>
    refine hnext rfl rfl rfl ?_
    split
    · exact .inr ⟨‹_›, rfl⟩
    · refine .inl ?_
      rw [List.countP_cons, hrest rfl]
      rfl
  | settle execution_started execution_finished response =>
    simp only [State.perform]
    split
    · exact hnext rfl rfl rfl (.inr ⟨‹_›, rfl⟩)
    · split
      · refine hnext rfl rfl rfl (.inl ?_)
        rw [List.countP_append, hrest rfl]
        rfl
      · refine hnext rfl rfl rfl (.inl ?_)
        rw [List.countP_cons, List.countP_cons, hrest rfl]
        rfl
  | setValue result =>
    obtain ⟨found, hfound, hpromise⟩ := hopen request (howned rfl)
    rw [hpending, Option.some.injEq] at hfound
    subst hfound
    simp only [State.perform, hpromise]
    refine ⟨_, rfl, .finishing (by rw [hrest rfl]; exact Nat.zero_le 1), ?_⟩
    exact .set request pending result (howned rfl) hpending hpromise rfl (owned_finishing_none request (hrest rfl))

/-- A request is dropped on sight only when it was given up. -/
theorem State.givenUp_of_dropped {request : Nat} (hpc : s.workers worker = .checkingCancelled request)
    (hstep : s.runWorker worker = some s') (hdropped : s'.workers worker = .popping) : s.GivenUp request := by
  simp only [runWorker, hpc] at hstep
  obtain ⟨pending, hpending, rfl⟩ := Option.map_eq_some_iff.mp hstep
  rw [State.setWorker_self] at hdropped
  refine ⟨pending, hpending, ?_⟩
  by_contra hnot
  rw [if_neg hnot] at hdropped
  cases hdropped

/-- How a worker's step parts with its request. -/
theorem State.Works.parts (hworks : s.Works worker s')
    (hstep : s.runWorker worker = some s' ∨ ∃ outcome, s.infer worker outcome = some s')
    (hsingle : (s.workers worker).Single)
    (hopen : ∀ request, (s.workers worker).owned = some request → s.Open request) :
    ∃ pc', s'.workers = Function.update s.workers worker pc' ∧ pc'.Single ∧ s.Parts worker s' pc' := by
  have hkept {t : State setup} {pc' : WorkerPc} (hworkers : t.workers = Function.update s.workers worker pc')
      (hpc' : pc'.Single) (hrequests : t.requests = s.requests)
      (howned : (s.workers worker).owned = none ∨ ∃ request, pc'.owned = some request) :
      ∃ pc', t.workers = Function.update s.workers worker pc' ∧ pc'.Single ∧ s.Parts worker t pc' := by
    refine ⟨pc', hworkers, hpc', .unset hrequests ?_⟩
    intro request hrequest hparted
    obtain hnone | ⟨other, hother⟩ := howned
    · rw [hrequest] at hnone
      cases hnone
    · rw [hother] at hparted
      cases hparted
  have hsingle' {pc' : WorkerPc} (hops : pc'.ops = []) (halive : ∀ ops, pc' ≠ .terminated ops) : pc'.Single :=
    ⟨by rw [hops]; exact Nat.zero_le 1, halive⟩
  have hfinishing {t : State setup} {request : Nat} {ops : List WorkerOp}
      (hworkers : t.workers = Function.update s.workers worker (.finishing request ops))
      (hrequests : t.requests = s.requests) (hone : ops.countP (·.answers) = 1) :
      ∃ pc', t.workers = Function.update s.workers worker pc' ∧ pc'.Single ∧ s.Parts worker t pc' := by
    exact hkept hworkers (.finishing hone.le) hrequests (.inr ⟨request, owned_finishing_of_pos request (by omega)⟩)
  cases hworks with
  | quiet pc' hquiet =>
    refine ⟨pc', rfl, hquiet.single, .unset rfl ?_⟩
    intro request hrequest hparted
    generalize hpc : s.workers worker = pc at hquiet hrequest
    cases hquiet with
    | dropped dropped =>
      cases hrequest
      obtain hstep | ⟨outcome, hstep⟩ := hstep
      · exact State.givenUp_of_dropped hpc hstep (State.setWorker_self ..)
      · simp [State.infer, hpc] at hstep
    | exited | finished => cases hrequest
    | _ => cases hparted
  | popped request queue_ hpc =>
    exact hkept rfl (hsingle' rfl (by rintro _ ⟨⟩)) rfl (.inr ⟨request, rfl⟩)
  | locked request => exact hkept rfl (hsingle' rfl (by rintro _ ⟨⟩)) rfl (.inr ⟨request, rfl⟩)
  | parked request => exact hkept rfl (hsingle' rfl (by rintro _ ⟨⟩)) rfl (.inr ⟨request, rfl⟩)
  | acquired request => exact hkept rfl (hsingle' rfl (by rintro _ ⟨⟩)) rfl (.inr ⟨request, rfl⟩)
  | selected request => exact hkept rfl (hsingle' rfl (by rintro _ ⟨⟩)) rfl (.inr ⟨request, rfl⟩)
  | readToken request => exact hkept rfl (hsingle' rfl (by rintro _ ⟨⟩)) rfl (.inr ⟨request, rfl⟩)
  | late => exact hfinishing rfl rfl rfl
  | refused => exact hfinishing rfl rfl rfl
  | drained => exact hfinishing rfl rfl rfl
  | overdue => exact hfinishing rfl rfl rfl
  | executed request executor_index execution_started response completed =>
    refine hfinishing rfl rfl ?_
    cases completed <;> rfl
  | performed request op ops pending hpc hpending => exact State.perform_parts hpc hpending hsingle hopen

end Steps

end neuriplo.llm
