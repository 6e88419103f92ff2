import NeuriploRuntime.Llm.Accounts

open neuriplo.scheduler neuriplo.tensor transition

namespace neuriplo.llm

variable {setup : Setup}

/-- The step answers its request, or gives it up. -/
def WorkerOp.answers : WorkerOp → Bool
  | .settle _ _ _ => true
  | .fulfillResult _ => true
  | .setValue _ => true
  | _ => false

/-- The request that a worker has popped and not parted with. -/
def WorkerPc.owned : WorkerPc → Option Nat
  | .checkingCancelled request => some request
  | .checkingDeadline request => some request
  | .acquiring request _ => some request
  | .recheckingDraining request => some request
  | .recheckingDeadline request => some request
  | .selecting request => some request
  | .starting request _ => some request
  | .executing request _ _ => some request
  | .readingToken request _ _ _ => some request
  | .executed request _ _ _ _ => some request
  | .finishing request ops => if ops.any (·.answers) then some request else none
  | _ => none

section Steps

variable {s s' : State setup} {worker : Fin setup.config.kv_cache_slots}

/-- What a worker's step leaves alone, and that it takes the first request of the
queue, or keeps or gives up the one it has. -/
structure State.Handles (s : State setup) (worker : Fin setup.config.kv_cache_slots) (s' : State setup)
    (pc' : WorkerPc) : Prop where
  workers : s'.workers = Function.update s.workers worker pc'
  now : s'.now = s.now
  draining : s'.draining_ = s.draining_
  submits : s'.submits = s.submits
  drains : s'.drains = s.drains
  owned : (s'.queue_ = s.queue_ ∧ (pc'.owned = (s.workers worker).owned ∨ pc'.owned = none)) ∨
    ∃ request, s.workers worker = .popping ∧ s.queue_ = request :: s'.queue_ ∧ pc'.owned = some request

/-- A quiet step keeps the request in the worker's hands or lets go of it. -/
theorem WorkerPc.Quiet.owned {pc pc' : WorkerPc} (hquiet : pc.Quiet pc') : pc'.owned = pc.owned ∨ pc'.owned = none := by
  cases hquiet with
  | dropped | finished => exact .inr rfl
  | _ => exact .inl rfl

/-- What is left to do about a request after a step, or before it. -/
theorem owned_finishing (request : Nat) {ops : List WorkerOp} (hany : ops.any (·.answers) = true) :
    (WorkerPc.finishing request ops).owned = some request := by
  simp only [WorkerPc.owned, hany, ↓reduceIte]

theorem owned_finishing_or (request : Nat) (ops : List WorkerOp) :
    (WorkerPc.finishing request ops).owned = some request ∨ (WorkerPc.finishing request ops).owned = none := by
  simp only [WorkerPc.owned]
  split
  · exact .inl rfl
  · exact .inr rfl

/-- How a straight-line step handles its request. -/
theorem State.perform_handles {request : Nat} {op : WorkerOp} {ops : List WorkerOp} {pending : PendingRequest}
    (hpc : s.workers worker = .finishing request (op :: ops)) :
    ∃ pc', s.Handles worker (s.perform worker request pending ops op) pc' := by
  -- a step that does not answer leaves what answers
  have hkept (hanswers : op.answers = false) :
      (WorkerPc.finishing request ops).owned = (s.workers worker).owned := by
    simp only [hpc, WorkerPc.owned, List.any_cons, hanswers, Bool.false_or]
  -- one that does may leave the request unanswered
  have hgiven (hanswers : op.answers = true) (ops' : List WorkerOp) :
      (WorkerPc.finishing request ops').owned = (s.workers worker).owned ∨
        (WorkerPc.finishing request ops').owned = none := by
    rw [hpc, @owned_finishing request (op :: ops) (by rw [List.any_cons, hanswers, Bool.true_or])]
    exact owned_finishing_or request ops'
  cases op with
  | setToken => exact ⟨_, rfl, rfl, rfl, rfl, rfl, .inl ⟨rfl, .inl (hkept rfl)⟩⟩
  | decrementInflight => exact ⟨_, rfl, rfl, rfl, rfl, rfl, .inl ⟨rfl, .inl (hkept rfl)⟩⟩
  | recordLatencies => exact ⟨_, rfl, rfl, rfl, rfl, rfl, .inl ⟨rfl, .inl (hkept rfl)⟩⟩
  | countTimedOut => exact ⟨_, rfl, rfl, rfl, rfl, rfl, .inl ⟨rfl, .inl (hkept rfl)⟩⟩
  | releaseDecodeSlot =>
    simp only [State.perform, State.setWorker]
    exact ⟨_, rfl, rfl, rfl, rfl, rfl, .inl ⟨rfl, .inl (hkept rfl)⟩⟩
  | fulfillResult result => exact ⟨_, rfl, rfl, rfl, rfl, rfl, .inl ⟨rfl, hgiven rfl _⟩⟩
  | settle execution_started execution_finished response =>
    simp only [State.perform]
    split
    · exact ⟨_, rfl, rfl, rfl, rfl, rfl, .inl ⟨rfl, hgiven rfl _⟩⟩
    · split
      · exact ⟨_, rfl, rfl, rfl, rfl, rfl, .inl ⟨rfl, hgiven rfl _⟩⟩
      · exact ⟨_, rfl, rfl, rfl, rfl, rfl, .inl ⟨rfl, hgiven rfl _⟩⟩
  | setValue result =>
    simp only [State.perform]
    split
    · exact ⟨_, rfl, rfl, rfl, rfl, rfl, .inl ⟨rfl, hgiven rfl _⟩⟩
    · exact ⟨_, rfl, rfl, rfl, rfl, rfl, .inl ⟨rfl, .inr rfl⟩⟩

/-- How a worker's step handles its request. -/
theorem State.Works.handles (hworks : s.Works worker s') : ∃ pc', s.Handles worker s' pc' := by
  have hkept {t : State setup} {pc pc' : WorkerPc} (hpc : s.workers worker = pc)
      (hworkers : t.workers = Function.update s.workers worker pc') (howned : pc'.owned = pc.owned)
      (hnow : t.now = s.now) (hdraining : t.draining_ = s.draining_) (hsubmits : t.submits = s.submits)
      (hdrains : t.drains = s.drains) (hqueue : t.queue_ = s.queue_) : ∃ pc', s.Handles worker t pc' :=
    ⟨pc', hworkers, hnow, hdraining, hsubmits, hdrains, .inl ⟨hqueue, .inl (by rw [hpc, howned])⟩⟩
  cases hworks with
  | quiet pc' hquiet => exact ⟨pc', rfl, rfl, rfl, rfl, rfl, .inl ⟨rfl, hquiet.owned⟩⟩
  | popped request queue_ hpc hqueue =>
    exact ⟨_, rfl, rfl, rfl, rfl, rfl, .inr ⟨request, hpc, hqueue, rfl⟩⟩
  | late request pending hpc => exact hkept hpc rfl rfl rfl rfl rfl rfl rfl
  | locked request stage timedOut hpc => exact hkept hpc rfl rfl rfl rfl rfl rfl rfl
  | parked request hpc => exact hkept hpc rfl rfl rfl rfl rfl rfl rfl
  | refused request stage hpc => exact hkept hpc rfl rfl rfl rfl rfl rfl rfl
  | acquired request hpc => exact hkept hpc rfl rfl rfl rfl rfl rfl rfl
  | drained request hpc => exact hkept hpc rfl rfl rfl rfl rfl rfl rfl
  | overdue request pending hpc => exact hkept hpc rfl rfl rfl rfl rfl rfl rfl
  | selected request hpc => exact hkept hpc rfl rfl rfl rfl rfl rfl rfl
  | readToken request executor_index execution_started response hpc => exact hkept hpc rfl rfl rfl rfl rfl rfl rfl
  | executed request executor_index execution_started response completed hpc =>
    refine hkept hpc rfl ?_ rfl rfl rfl rfl rfl
    cases completed <;> rfl
  | performed request op ops pending hpc => exact State.perform_handles hpc

/-- What a step keeps of an accepted request. -/
structure State.Keeps (s s' : State setup) (request : Nat) : Prop where
  accepted : s'.requests request = none ↔ s.requests request = none
  pending : ∀ pending', s'.requests request = some pending' → ∃ pending, s.requests request = some pending ∧
    pending'.deadline = pending.deadline ∧ (∀ result, pending.promise = some result → pending'.promise = some result) ∧
      (pending.cancelled = true → pending'.cancelled = true)

theorem State.Keeps.of_same {request : Nat} (hrequest : s'.requests request = s.requests request) :
    s.Keeps s' request := by
  refine ⟨by rw [hrequest], ?_⟩
  intro pending hpending
  rw [hrequest] at hpending
  exact ⟨pending, hpending, rfl, fun _ => id, id⟩

/-- A change of one request keeps it where its times stay and its promise is not
taken back. -/
theorem State.Keeps.of_update {request : Nat} {pending : PendingRequest} (pending' : PendingRequest)
    (hpending : s.requests request = some pending)
    (hrequests : s'.requests = Function.update s.requests request (some pending'))
    (hdeadline : pending'.deadline = pending.deadline)
    (hpromise : ∀ result, pending.promise = some result → pending'.promise = some result)
    (hcancelled : pending.cancelled = true → pending'.cancelled = true) (other : Nat) : s.Keeps s' other := by
  by_cases hother : other = request
  · subst hother
    have hself : s'.requests other = some pending' := by rw [hrequests, Function.update_self]
    refine ⟨by rw [hself, hpending]; simp, ?_⟩
    intro found hfound
    rw [hself, Option.some.injEq] at hfound
    subst hfound
    exact ⟨pending, hpending, hdeadline, hpromise, hcancelled⟩
  · exact .of_same (by rw [hrequests, Function.update_of_ne hother])

/-- A worker changes a request only by setting its promise, once. -/
theorem State.Works.keeps (hworks : s.Works worker s') (request : Nat) : s.Keeps s' request := by
  cases hworks with
  | performed answered op ops pending hpc hpending =>
    cases op with
    | setValue result =>
      simp only [State.perform]
      split
      · rename_i hpromise
        refine .of_update { pending with promise := some result } hpending rfl rfl ?_ id request
        intro other hother
        rw [hpromise] at hother
        cases hother
      · exact .of_same rfl
    | settle =>
      simp only [State.perform]
      split
      · exact .of_same rfl
      · split <;> exact .of_same rfl
    | _ => exact .of_same rfl
  | _ => exact .of_same rfl

/-- A drain keeps the requests. -/
theorem State.Drains.keeps {thread : Nat} (hdrains : s.Drains thread s') (request : Nat) : s.Keeps s' request := by
  cases hdrains with
  | moved => exact .of_same rfl
  | answered answered found pc' hfound hpromise =>
    refine .of_update { found with promise := some makeDrainingResult } hfound rfl rfl ?_ id request
    intro result hresult
    rw [hpromise] at hresult
    cases hresult

/-- Whether the locked section of `submit` queues its request. -/
def State.accepts (s : State setup) : Bool := !s.draining_ && s.queue_.length < setup.config.max_queue_size

theorem State.enqueue_of_accepts (haccepts : s.accepts = true) (request : Nat) (call : ExecutionRequest)
    (enqueued_at deadline : Int) :
    s.enqueue request call enqueued_at deadline = { s with
      queue_ := s.queue_ ++ [request]
      metrics_ := { s.metrics_ with requests_accepted := s.metrics_.requests_accepted + 1 }
      requests := Function.update s.requests request
        (some { request := call, enqueued_at, deadline }) }.setSubmit request .waiting := by
  simp only [accepts, Bool.and_eq_true, Bool.not_eq_true', decide_eq_true_eq] at haccepts
  unfold enqueue
  rw [if_neg (by rw [haccepts.1]; exact Bool.false_ne_true), if_neg (by omega)]

theorem State.enqueue_of_not_accepts (haccepts : s.accepts = false) (request : Nat) (call : ExecutionRequest)
    (enqueued_at deadline : Int) :
    ∃ metrics_ result, s.enqueue request call enqueued_at deadline =
      { s with metrics_ }.setSubmit request (.returned result) := by
  unfold enqueue
  split
  · exact ⟨s.metrics_, _, rfl⟩
  · split
    · exact ⟨_, _, rfl⟩
    · simp_all [accepts]

/-- A worker exits from where it pops. -/
theorem State.Works.popping_of_exits (hworks : s.Works worker s') (hexits : s'.workers worker = .exited) :
    s.workers worker = .popping := by
  cases hworks with
  | quiet pc' hquiet =>
    rw [State.setWorker_self] at hexits
    subst hexits
    generalize s.workers worker = pc at hquiet
    cases hquiet
    rfl
  | popped request queue_ hpc => exact hpc
  | performed request op ops pending hpc =>
    cases op <;> simp only [State.perform] at hexits <;> (try split at hexits) <;> (try split at hexits) <;>
      rw [State.setWorker_self] at hexits <;> cases hexits
  | refused =>
    rw [State.refuseSlot, State.setWorker_self] at hexits
    cases hexits
  | _ =>
    rw [State.setWorker_self] at hexits
    cases hexits

/-- The model drains and the queue is empty: it stays so. -/
def State.Closed (s : State setup) : Prop := s.draining_ = true ∧ s.queue_ = []

def State.AllExited (s : State setup) : Prop := ∀ worker, s.workers worker = .exited

/-- What a drain has waited for: it finds nothing to reject. -/
def DrainPc.Shut (s : State setup) : DrainPc → Prop
  | .rejecting => s.AllExited
  | .answering pending => s.AllExited ∧ pending = []
  | .returned => s.AllExited
  | _ => True

structure State.Shut (s : State setup) : Prop where
  exited : ∀ worker, s.workers worker = .exited → s.Closed
  drains : ∀ thread, (s.drains thread).Shut s

/-- Where all workers have exited, the scheduler is closed. -/
theorem State.Shut.closed (hshut : s.Shut) (hexited : s.AllExited) : s.Closed :=
  hshut.exited ⟨0, setup.hslots⟩ (hexited _)

theorem DrainPc.Shut.mono {pc : DrainPc} (hexited : s.AllExited → s'.AllExited) (hshut : pc.Shut s) : pc.Shut s' := by
  cases pc with
  | rejecting => exact hexited hshut
  | answering pending => exact ⟨hexited hshut.1, hshut.2⟩
  | returned => exact hexited hshut
  | _ => trivial

/-- The workers stay where they are, and the queue as it is once it is closed. -/
theorem State.Shut.keep (hshut : s.Shut) (hworkers : s'.workers = s.workers) (hclosed : s.Closed → s'.Closed)
    (hdrains : ∀ thread, s'.drains thread = s.drains thread ∨ (s'.drains thread).Shut s) : s'.Shut := by
  have hmono : s.AllExited → s'.AllExited := by
    intro hexited worker
    rw [hworkers]
    exact hexited worker
  constructor
  · intro worker hexited
    rw [hworkers] at hexited
    exact hclosed (hshut.exited worker hexited)
  · intro thread
    obtain hsame | hpc := hdrains thread
    · rw [hsame]
      exact (hshut.drains thread).mono hmono
    · exact hpc.mono hmono

/-- A worker that exits, or has exited, leaves the queue closed. -/
theorem State.Shut.handle (hshut : s.Shut) {pc' : WorkerPc} (hhandles : s.Handles worker s' pc')
    (hrunning : s.workers worker ≠ .exited) (hexits : pc' = .exited → s.Closed) : s'.Shut := by
  have hclosed : s.Closed → s'.Closed := by
    rintro ⟨hdraining, hempty⟩
    refine ⟨hhandles.draining.trans hdraining, ?_⟩
    obtain ⟨hqueue, -⟩ | ⟨request, -, hqueue, -⟩ := hhandles.owned
    · rw [hqueue, hempty]
    · rw [hempty] at hqueue
      cases hqueue
  constructor
  · intro other hexited
    rw [hhandles.workers] at hexited
    by_cases hother : other = worker
    · subst hother
      rw [Function.update_self] at hexited
      exact hclosed (hexits hexited)
    · rw [Function.update_of_ne hother] at hexited
      exact hclosed (hshut.exited other hexited)
  · intro thread
    rw [hhandles.drains]
    exact (hshut.drains thread).mono fun hexited => absurd (hexited worker) hrunning

/-- A worker exits when the scheduler is closed. -/
theorem State.closed_of_exits (hstep : s.runWorker worker = some s') (hexits : s'.workers worker = .exited) :
    s.Closed := by
  have hpopping := (State.runWorker_works hstep).popping_of_exits hexits
  simp only [runWorker, hpopping] at hstep
  split at hstep
  · cases hstep
    rw [State.setWorker_self] at hexits
    cases hexits
  · rename_i hempty
    split at hstep <;> cases hstep
    exact ⟨‹_›, hempty⟩

theorem State.allExited_of_all
    (hall : ((List.finRange setup.config.kv_cache_slots).all fun worker => (s.workers worker).isExited) = true) :
    s.AllExited := by
  intro worker
  have hexited := List.all_eq_true.mp hall worker (List.mem_finRange worker)
  cases hpc : s.workers worker with
  | exited => rfl
  | _ =>
    rw [hpc] at hexited
    cases hexited

/-- A drain goes on to reject what is queued, which is nothing. -/
theorem State.Shut.drain (hshut : s.Shut) {thread : Nat} (hstep : s.runDrain thread = some s') : s'.Shut := by
  have hwas := hshut.drains thread
  have hmove {t : State setup} {pc' : DrainPc} (hdrains : t.drains = Function.update s.drains thread pc')
      (hworkers : t.workers = s.workers) (hdraining : t.draining_ = s.draining_)
      (hqueue : s.queue_ = [] → t.queue_ = []) (hpc' : pc'.Shut s) : t.Shut := by
    refine hshut.keep hworkers (fun hclosed => ⟨hdraining.trans hclosed.1, hqueue hclosed.2⟩) ?_
    rw [hdrains]
    exact @update_or _ _ _ s.drains thread pc' (fun _ pc => pc.Shut s) hpc'
  unfold runDrain at hstep
  split at hstep
  · split at hstep <;> cases hstep
    exact hmove rfl rfl rfl id (State.allExited_of_all ‹_›)
  · rename_i hpc
    rw [hpc] at hwas
    cases hstep
    exact hmove rfl rfl rfl (fun _ => rfl) ⟨hwas, (hshut.closed hwas).2⟩
  · rename_i hpc
    rw [hpc] at hwas
    cases hstep
    exact hmove rfl rfl rfl id hwas.1
  · rename_i request pending hpc
    rw [hpc] at hwas
    cases hwas.2
  · cases hstep

/-- Every step keeps the scheduler shut as it was. -/
theorem State.Shut.step (hshut : s.Shut) {event : Event setup} (hstep : s.step event = some s') : s'.Shut := by
  have hsame {t : State setup} (hworkers : t.workers = s.workers) (hdraining : t.draining_ = s.draining_)
      (hqueue : t.queue_ = s.queue_) (hdrains : t.drains = s.drains) : t.Shut := by
    refine hshut.keep hworkers ?_ (fun _ => .inl (by rw [hdrains]))
    rintro ⟨hdraining', hempty⟩
    exact ⟨hdraining.trans hdraining', hqueue.trans hempty⟩
  cases event with
  | tick | cancel =>
    cases hstep
    exact hsame rfl rfl rfl rfl
  | stopAccepting =>
    cases hstep
    exact hshut.keep rfl (fun hclosed => ⟨rfl, hclosed.2⟩) fun _ => .inl rfl
  | submit request call =>
    simp only [State.step] at hstep
    split at hstep <;> cases hstep
    exact hsame rfl rfl rfl rfl
  | submitter request =>
    have hsubmits := State.runSubmit_submits hstep
    cases hsubmits with
    | enqueued call enqueued_at deadline hpc =>
      refine hshut.keep rfl ?_ fun _ => .inl rfl
      rintro ⟨hdraining, -⟩
      simp only [State.step, State.runSubmit, hpc, Option.some.injEq] at hstep
      obtain ⟨metrics_, result, hreturned⟩ := s.enqueue_of_not_accepts (by simp [State.accepts, hdraining])
        request call enqueued_at deadline
      rw [hreturned] at hstep
      have hpcs := congrFun (congrArg State.submits hstep) request
      simp [State.setSubmit] at hpcs
    | _ => exact hsame rfl rfl rfl rfl
  | worker worker =>
    obtain ⟨pc', hhandles⟩ := (State.runWorker_works hstep).handles
    refine hshut.handle hhandles ?_ ?_
    · intro hexited
      simp [State.step, State.runWorker, hexited] at hstep
    · rintro rfl
      exact State.closed_of_exits hstep (by rw [hhandles.workers, Function.update_self])
  | infer worker outcome =>
    have hworks := State.infer_works hstep
    obtain ⟨pc', hhandles⟩ := hworks.handles
    refine hshut.handle hhandles ?_ ?_
    · intro hexited
      simp [State.step, State.infer, hexited] at hstep
    · rintro rfl
      have hpopping := hworks.popping_of_exits (by rw [hhandles.workers, Function.update_self])
      simp [State.step, State.infer, hpopping] at hstep
  | beginDrain thread =>
    simp only [State.step] at hstep
    split at hstep <;> cases hstep
    refine hshut.keep rfl (fun hclosed => ⟨rfl, hclosed.2⟩) ?_
    exact @update_or _ _ _ s.drains thread .joining (fun _ pc => pc.Shut s) trivial
  | drain thread => exact hshut.drain hstep

end Steps

/-- In every run a worker exits only from a closed scheduler. -/
theorem shut_reachable {start : Int} {s : State setup} (hreach : (system setup start).Reachable s) : s.Shut := by
  refine @System.Reachable.invariant _ _ (system setup start) State.Shut ?_ ?_ s hreach
  · rintro s rfl
    refine ⟨?_, fun _ => trivial⟩
    intro worker hexited
    cases hexited
  · intro s event s' _ hshut hstep
    exact hshut.step hstep

end neuriplo.llm
