import NeuriploRuntime.Llm.Delivery
import NeuriploRuntime.Transition.Stretch

open neuriplo.scheduler neuriplo.tensor transition

namespace neuriplo.llm

variable {setup : Setup}

/-- How many steps a straight-line step may lead to. -/
def WorkerOp.rank : WorkerOp → Nat
  | .settle _ _ _ => 5
  | .fulfillResult _ => 2
  | _ => 1

def rankOps (ops : List WorkerOp) : Nat := (ops.map (·.rank)).sum

/-- How many steps a worker may take before it pops again and finds nothing. -/
def WorkerPc.rank : WorkerPc → Nat
  | .popping => 1
  | .checkingCancelled _ => 24
  | .checkingDeadline _ => 23
  | .acquiring _ .lock => 22
  | .acquiring _ .parked => 22
  | .acquiring _ (.predDraining _) => 21
  | .acquiring _ (.predActive _) => 20
  | .acquiring _ .readDraining => 19
  | .acquiring _ .readActive => 18
  | .acquiring _ .add => 17
  | .recheckingDraining _ => 16
  | .recheckingDeadline _ => 15
  | .selecting _ => 14
  | .starting _ _ => 13
  | .executing _ _ _ => 12
  | .readingToken _ _ _ _ => 11
  | .executed _ _ _ _ _ => 10
  | .finishing _ ops => 2 + rankOps ops
  | .exited => 0
  | .terminated _ => 0

/-- How many steps the workers may take before they find the queue empty. -/
def State.rank (s : State setup) : Nat := s.queue_.length * 24 + tally fun worker => (s.workers worker).rank

section Steps

variable {s s' : State setup} {worker : Fin setup.config.kv_cache_slots}

/-- A quiet step lowers the rank. -/
theorem WorkerPc.Quiet.rank {pc pc' : WorkerPc} (hquiet : pc.Quiet pc') : pc'.rank < pc.rank := by
  cases hquiet <;> simp [WorkerPc.rank, rankOps]

theorem rankOps_cons (op : WorkerOp) (ops : List WorkerOp) : rankOps (op :: ops) = op.rank + rankOps ops :=
  List.sum_cons

theorem WorkerOp.rank_pos (op : WorkerOp) : 0 < op.rank := by
  cases op <;> exact Nat.succ_pos _

/-- A straight-line step lowers the rank. -/
theorem State.perform_rank {request : Nat} {op : WorkerOp} {ops : List WorkerOp} {pending : PendingRequest} :
    ((s.perform worker request pending ops op).workers worker).rank <
      (WorkerPc.finishing request (op :: ops)).rank := by
  have hpos := op.rank_pos
  cases op with
  | settle =>
    simp only [State.perform]
    split
    · rw [State.setWorker_self]
      simp only [WorkerPc.rank, rankOps_cons]
      omega
    · split
      · rw [State.setWorker_self]
        simp only [WorkerPc.rank, expired, List.cons_append, List.nil_append, rankOps_cons, WorkerOp.rank]
        omega
      · rw [State.setWorker_self]
        simp only [WorkerPc.rank, rankOps_cons, WorkerOp.rank]
        omega
  | setValue =>
    simp only [State.perform]
    split
    · rw [State.setWorker_self]
      simp only [WorkerPc.rank, rankOps_cons]
      omega
    · rw [State.setWorker_self]
      simp only [WorkerPc.rank, rankOps_cons]
      omega
  | fulfillResult result =>
    simp only [State.perform]
    rw [State.setWorker_self]
    split
    · simp only [WorkerPc.rank, rankOps_cons]
      omega
    · simp only [WorkerPc.rank, rankOps_cons, WorkerOp.rank]
      omega
  | _ =>
    simp only [State.perform]
    rw [State.setWorker_self]
    simp only [WorkerPc.rank, rankOps_cons]
    omega

/-- A worker's step brings it closer to the end, or takes a request. -/
theorem State.Works.rank (hworks : s.Works worker s') (hnever : (s'.workers worker).NeverParked) :
    (s'.workers worker).rank < (s.workers worker).rank ∨
      ((s.workers worker).rank = 1 ∧ (s'.workers worker).rank = 24 ∧ s.queue_.length = s'.queue_.length + 1) := by
  cases hworks with
  | quiet pc' hquiet =>
    rw [State.setWorker_self]
    exact .inl hquiet.rank
  | popped request queue_ hpc hqueue =>
    rw [State.setWorker_self, hpc]
    refine .inr ⟨rfl, rfl, ?_⟩
    simp [State.setWorker, hqueue]
  | locked request stage timedOut hpc hfree hstage =>
    rw [State.setWorker_self, hpc]
    rcases hstage with rfl | rfl <;> simp [WorkerPc.rank]
  | parked request hpc =>
    rw [State.setWorker_self] at hnever
    exact hnever.elim
  | refused request stage hpc hreason =>
    rw [State.refuseSlot, State.setWorker_self, hpc]
    rcases hreason with rfl | ⟨rfl, -⟩ | ⟨rfl, -⟩ <;> simp [WorkerPc.rank, rankOps, WorkerOp.rank]
  | executed request executor_index execution_started response completed hpc =>
    rw [State.setWorker_self, hpc]
    cases completed <;> simp [WorkerPc.rank, rankOps, WorkerOp.rank, expired]
  | performed request op ops pending hpc =>
    rw [hpc]
    exact .inl State.perform_rank
  | late request pending hpc | overdue request pending hpc =>
    rw [State.setWorker_self, hpc]
    simp [WorkerPc.rank, rankOps, WorkerOp.rank, expired]
  | acquired request hpc | drained request hpc | selected request hpc =>
    rw [State.setWorker_self, hpc]
    simp [WorkerPc.rank, rankOps, WorkerOp.rank]
  | readToken request executor_index execution_started response hpc =>
    rw [State.setWorker_self, hpc]
    simp [WorkerPc.rank]

/-- The rank changes by that of the worker that moves. -/
theorem State.rank_update {pc' : WorkerPc} (hworkers : s'.workers = Function.update s.workers worker pc') :
    (tally fun other => (s'.workers other).rank) + (s.workers worker).rank =
      (tally fun other => (s.workers other).rank) + pc'.rank := by
  have hranks : (fun other => (s'.workers other).rank) =
      Function.update (fun other => (s.workers other).rank) worker pc'.rank := by
    have hcomp := Function.comp_update WorkerPc.rank s.workers worker pc'
    rw [← hworkers] at hcomp
    exact hcomp
  rw [hranks]
  exact tally_update (fun other => (s.workers other).rank) worker pc'.rank

/-- Every step of a worker lowers the rank. -/
theorem State.Works.rank_lt (hworks : s.Works worker s') (hnever : (s'.workers worker).NeverParked) :
    s'.rank < s.rank := by
  obtain ⟨pc', hhandles⟩ := hworks.handles
  have hupdate := State.rank_update hhandles.workers
  have hself : s'.workers worker = pc' := by rw [hhandles.workers, Function.update_self]
  have hle := hhandles.length_le
  have hrank := hworks.rank hnever
  rw [hself] at hrank
  unfold State.rank
  omega

/-- The steps of the workers, and of the executors they are in. -/
def Event.isWorkers : Event setup → Bool
  | .worker _ => true
  | .infer _ _ => true
  | _ => false

/-- The steps of others give the workers more to do only by queueing a request. -/
theorem State.step_rank {event : Event setup} (hnever : ∀ worker, (s'.workers worker).NeverParked)
    (hstep : s.step event = some s') :
    (if event.isWorkers then 1 else 0) + s'.rank ≤
      s.rank + if ((s.note event).bind (·.admits)).isSome then 24 else 0 := by
  have hsame (hworkers : s'.workers = s.workers) (hqueue : s'.queue_.length ≤ s.queue_.length) : s'.rank ≤ s.rank := by
    unfold State.rank
    rw [hworkers]
    omega
  cases event with
  | tick | cancel | stopAccepting =>
    cases hstep
    exact Nat.zero_add _ ▸ Nat.le_add_right ..
  | submit request call =>
    simp only [State.step] at hstep
    split at hstep <;> cases hstep
    exact Nat.zero_add _ ▸ Nat.le_add_right ..
  | submitter request =>
    obtain ⟨call, enqueued_at, deadline, hpc, haccepts, rfl⟩ | hunqueued := State.runSubmit_queues hstep
    · have hnote : s.note (.submitter request) = some (.accepted request) := by simp [State.note, hpc, haccepts]
      rw [hnote]
      simp only [Event.isWorkers, State.rank, State.setSubmit, List.length_append, List.length_singleton,
        Option.bind_some, Note.admits, Option.isSome_some, Bool.false_eq_true, ↓reduceIte]
      omega
    · have hle := hsame hunqueued.workers (by rw [hunqueued.queue])
      simp only [Event.isWorkers, Bool.false_eq_true, ↓reduceIte]
      omega
  | worker worker =>
    have hlt := (State.runWorker_works hstep).rank_lt (hnever worker)
    simp only [Event.isWorkers, ↓reduceIte]
    omega
  | infer worker outcome =>
    have hlt := (State.infer_works hstep).rank_lt (hnever worker)
    simp only [Event.isWorkers, ↓reduceIte]
    omega
  | beginDrain thread =>
    simp only [State.step] at hstep
    split at hstep <;> cases hstep
    exact Nat.zero_add _ ▸ Nat.le_add_right ..
  | drain thread =>
    have hworkers : s'.workers = s.workers := by cases State.runDrain_drains hstep <;> rfl
    have hle := hsame hworkers (State.runDrain_length_le hstep)
    simp only [Event.isWorkers, Bool.false_eq_true, ↓reduceIte]
    omega

/-- A draining model goes on draining. -/
theorem State.step_draining (hdraining : s.draining_ = true) {event : Event setup} (hstep : s.step event = some s') :
    s'.draining_ = true := by
  cases event with
  | tick | cancel =>
    cases hstep
    exact hdraining
  | stopAccepting =>
    cases hstep
    rfl
  | submit request call =>
    simp only [State.step] at hstep
    split at hstep <;> cases hstep
    exact hdraining
  | submitter request => cases State.runSubmit_submits hstep <;> exact hdraining
  | worker worker =>
    obtain ⟨pc', hhandles⟩ := (State.runWorker_works hstep).handles
    exact hhandles.draining.trans hdraining
  | infer worker outcome =>
    obtain ⟨pc', hhandles⟩ := (State.infer_works hstep).handles
    exact hhandles.draining.trans hdraining
  | beginDrain thread =>
    simp only [State.step] at hstep
    split at hstep <;> cases hstep
    rfl
  | drain thread => cases State.runDrain_drains hstep <;> exact hdraining

/-- A model with a call of `beginDrain` drains. -/
def State.Begun (s : State setup) : Prop := ∀ thread, s.drains thread ≠ .idle → s.draining_ = true

theorem State.Begun.step (hbegun : s.Begun) {event : Event setup} (hstep : s.step event = some s') : s'.Begun := by
  intro thread hcalled
  have hkept (hdraining : s.draining_ = true) : s'.draining_ = true := State.step_draining hdraining hstep
  have hsame (hdrains : s'.drains = s.drains) : s'.draining_ = true := by
    rw [hdrains] at hcalled
    exact hkept (hbegun thread hcalled)
  cases event with
  | tick | cancel | stopAccepting =>
    cases hstep
    exact hsame rfl
  | submit request call =>
    simp only [State.step] at hstep
    split at hstep <;> cases hstep
    exact hsame rfl
  | submitter request => cases State.runSubmit_submits hstep <;> exact hsame rfl
  | worker worker =>
    obtain ⟨pc', hhandles⟩ := (State.runWorker_works hstep).handles
    exact hsame hhandles.drains
  | infer worker outcome =>
    obtain ⟨pc', hhandles⟩ := (State.infer_works hstep).handles
    exact hsame hhandles.drains
  | beginDrain thread =>
    simp only [State.step] at hstep
    split at hstep <;> cases hstep
    rfl
  | drain drained =>
    apply hkept
    apply hbegun drained
    intro hidle
    simp only [State.step, State.runDrain, hidle] at hstep
    cases hstep

/-- A draining model admits nothing. -/
theorem State.note_admits_draining (hdraining : s.draining_ = true) (event : Event setup) :
    (s.note event).bind (·.admits) = none := by
  cases event with
  | submitter request =>
    simp only [note, accepts, hdraining, Bool.not_true, Bool.false_and, Bool.false_eq_true, ↓reduceIte]
    split <;> rfl
  | worker worker => exact State.note_admits_worker worker
  | _ => rfl

/-- The worker holds `slots_mutex_`. -/
def WorkerPc.Locks : WorkerPc → Prop
  | .acquiring _ .lock => False
  | .acquiring _ .parked => False
  | .acquiring _ _ => True
  | _ => False

theorem WorkerPc.Quiet.locks {pc pc' : WorkerPc} (hquiet : pc.Quiet pc') (hlocks : pc.Locks) : pc'.Locks := by
  cases hquiet <;> trivial

/-- What a worker's step does to `slots_mutex_`. -/
theorem State.Works.mutex (hworks : s.Works worker s') :
    s'.slots_mutex_ = none ∨ (s'.slots_mutex_ = some worker ∧ (s'.workers worker).Locks) ∨
      (s'.slots_mutex_ = s.slots_mutex_ ∧ ((s.workers worker).Locks → (s'.workers worker).Locks)) := by
  have hkept {t : State setup} {pc : WorkerPc} (hpc : s.workers worker = pc) (hmutex : t.slots_mutex_ = s.slots_mutex_)
      (hnot : ¬ pc.Locks) : t.slots_mutex_ = none ∨ (t.slots_mutex_ = some worker ∧ (t.workers worker).Locks) ∨
        (t.slots_mutex_ = s.slots_mutex_ ∧ ((s.workers worker).Locks → (t.workers worker).Locks)) := by
    refine .inr (.inr ⟨hmutex, ?_⟩)
    rw [hpc]
    exact fun hlocks => absurd hlocks hnot
  cases hworks with
  | quiet pc' hquiet =>
    rw [State.setWorker_self]
    exact .inr (.inr ⟨rfl, hquiet.locks⟩)
  | locked request stage timedOut =>
    rw [State.setWorker_self]
    exact .inr (.inl ⟨rfl, trivial⟩)
  | parked | refused | acquired => exact .inl rfl
  | popped request queue_ hpc => exact hkept hpc rfl id
  | late request pending hpc => exact hkept hpc rfl id
  | drained request hpc => exact hkept hpc rfl id
  | overdue request pending hpc => exact hkept hpc rfl id
  | selected request hpc => exact hkept hpc rfl id
  | readToken request executor_index execution_started response hpc => exact hkept hpc rfl id
  | executed request executor_index execution_started response completed hpc => exact hkept hpc rfl id
  | performed request op ops pending hpc =>
    refine hkept hpc ?_ id
    cases op with
    | settle =>
      simp only [State.perform]
      split
      · rfl
      · split <;> rfl
    | setValue =>
      simp only [State.perform]
      split <;> rfl
    | releaseDecodeSlot =>
      have hreleased (active_decodes_ : Nat) :
          ({ s with active_decodes_ }.setWorker worker (.finishing request ops)).slots_mutex_ = s.slots_mutex_ := rfl
      exact hreleased (fetchSub s.active_decodes_)
    | _ => rfl

/-- Whoever holds `slots_mutex_` is in `acquireDecodeSlot`, and every request that
a worker still deals with was accepted. -/
structure State.Orderly (s : State setup) : Prop where
  mutex : ∀ worker, s.slots_mutex_ = some worker → (s.workers worker).Locks
  accepted : ∀ worker request ops, s.workers worker = .finishing request ops → s.requests request ≠ none

/-- A worker ends with the request it has. -/
theorem State.Works.finishing (hworks : s.Works worker s') {request : Nat} {ops : List WorkerOp}
    (hfinishing : s'.workers worker = .finishing request ops) :
    (s.workers worker).owned = some request ∨ ∃ ops', s.workers worker = .finishing request ops' := by
  cases hworks with
  | quiet pc' hquiet =>
    rw [State.setWorker_self] at hfinishing
    subst hfinishing
    generalize s.workers worker = pc at hquiet
    cases hquiet
  | late request pending hpc | overdue request pending hpc =>
    rw [State.setWorker_self] at hfinishing
    cases hfinishing
    exact .inl (by rw [hpc]; rfl)
  | drained request hpc =>
    rw [State.setWorker_self] at hfinishing
    cases hfinishing
    exact .inl (by rw [hpc]; rfl)
  | executed request executor_index execution_started response completed hpc =>
    rw [State.setWorker_self] at hfinishing
    cases hfinishing
    exact .inl (by rw [hpc]; rfl)
  | refused request stage hpc =>
    rw [State.refuseSlot, State.setWorker_self] at hfinishing
    cases hfinishing
    exact .inl (by rw [hpc]; rfl)
  | performed request op ops pending hpc =>
    obtain ⟨ops', hnext | hterminated⟩ := @State.perform_finishing _ s worker request op ops pending
    · rw [hnext] at hfinishing
      cases hfinishing
      exact .inr ⟨_, hpc⟩
    · rw [hterminated] at hfinishing
      cases hfinishing
  | _ =>
    rw [State.setWorker_self] at hfinishing
    cases hfinishing

/-- A worker's step keeps the order. -/
theorem State.Orderly.work (horderly : s.Orderly) (hattended : s.Attended) (hworks : s.Works worker s') :
    s'.Orderly := by
  obtain ⟨pc', hhandles⟩ := hworks.handles
  have hother {other : Fin setup.config.kv_cache_slots} (hne : other ≠ worker) :
      s'.workers other = s.workers other := by
    rw [hhandles.workers, Function.update_of_ne hne]
  constructor
  · intro holder hholds
    obtain hnone | ⟨hself, hlocks⟩ | ⟨hsame, hlocks⟩ := hworks.mutex
    · rw [hnone] at hholds
      cases hholds
    · rw [hself, Option.some.injEq] at hholds
      exact hholds ▸ hlocks
    · have hwas := horderly.mutex holder (hsame ▸ hholds)
      by_cases hholder : holder = worker
      · subst hholder
        exact hlocks hwas
      · rw [hother hholder]
        exact hwas
  · intro other request ops hfinishing hnone
    have hwas := (hworks.keeps request).accepted.mp hnone
    by_cases hne : other = worker
    · subst hne
      obtain howned | ⟨ops', hpc⟩ := hworks.finishing hfinishing
      · obtain ⟨pending, hpending, -⟩ := hattended.owned other request howned
        rw [hwas] at hpending
        cases hpending
      · exact horderly.accepted other request ops' hpc hwas
    · rw [hother hne] at hfinishing
      exact horderly.accepted other request ops hfinishing hwas

/-- Every step keeps the order. -/
theorem State.Orderly.step (horderly : s.Orderly) (hattended : s.Attended) {event : Event setup}
    (hstep : s.step event = some s') : s'.Orderly := by
  have hsame (hmutex : s'.slots_mutex_ = s.slots_mutex_) (hworkers : s'.workers = s.workers) : s'.Orderly := by
    constructor
    · rw [hmutex, hworkers]
      exact horderly.mutex
    · intro worker request ops hfinishing hnone
      rw [hworkers] at hfinishing
      have haccepted := horderly.accepted worker request ops hfinishing
      exact haccepted ((hattended.step_keeps hstep haccepted).accepted.mp hnone)
  cases event with
  | tick | cancel | stopAccepting =>
    cases hstep
    exact hsame rfl rfl
  | submit request call =>
    simp only [State.step] at hstep
    split at hstep <;> cases hstep
    exact hsame rfl rfl
  | submitter request => cases State.runSubmit_submits hstep <;> exact hsame rfl rfl
  | worker worker => exact horderly.work hattended (State.runWorker_works hstep)
  | infer worker outcome => exact horderly.work hattended (State.infer_works hstep)
  | beginDrain thread =>
    simp only [State.step] at hstep
    split at hstep <;> cases hstep
    exact hsame rfl rfl
  | drain thread => cases State.runDrain_drains hstep <;> exact hsame rfl rfl

/-- The worker can take its next step, or is inside an executor. -/
def State.CanMove (s : State setup) (worker : Fin setup.config.kv_cache_slots) : Prop :=
  (∃ s', s.step (.worker worker) = some s') ∨
    ∃ request executor_index execution_started, s.workers worker = .executing request executor_index execution_started

/-- Whoever holds `slots_mutex_` can go on. -/
theorem State.canMove_of_locks (hlocks : (s.workers worker).Locks) : s.CanMove worker := by
  left
  simp only [State.step, State.runWorker]
  cases hpc : s.workers worker with
  | acquiring request stage =>
    rw [hpc] at hlocks
    cases stage with
    | lock | parked => exact hlocks.elim
    | predDraining | add => exact ⟨_, rfl⟩
    | predActive | readDraining | readActive =>
      simp only [State.acquire]
      split
      · exact ⟨_, rfl⟩
      · first | exact ⟨_, rfl⟩ | split <;> exact ⟨_, rfl⟩
  | _ =>
    rw [hpc] at hlocks
    exact hlocks.elim

/-- A worker of a draining model is stuck only while another has `slots_mutex_`. -/
theorem State.Attended.canMove_or (hattended : s.Attended) (horderly : s.Orderly)
    (hnever : (s.workers worker).NeverParked) (hdraining : s.draining_ = true)
    (hrunning : s.workers worker ≠ .exited) :
    s.CanMove worker ∨ ∃ holder, s.slots_mutex_ = some holder := by
  have hfound {request : Nat} (howned : (s.workers worker).owned = some request) :
      ∃ pending, s.requests request = some pending := by
    obtain ⟨pending, hpending, -⟩ := hattended.owned worker request howned
    exact ⟨pending, hpending⟩
  have hmoves (hsome : (s.runWorker worker).isSome = true) :
      s.CanMove worker ∨ ∃ holder, s.slots_mutex_ = some holder :=
    .inl (.inl (Option.isSome_iff_exists.mp hsome))
  cases hpc : s.workers worker with
  | popping =>
    cases hqueue : s.queue_ with
    | nil => exact hmoves (by simp only [State.runWorker, hpc, hqueue, hdraining, ↓reduceIte, Option.isSome_some])
    | cons request queue_ => exact hmoves (by simp only [State.runWorker, hpc, hqueue, Option.isSome_some])
  | checkingCancelled request | checkingDeadline request | recheckingDeadline request =>
    obtain ⟨pending, hpending⟩ := hfound (by rw [hpc]; rfl)
    exact hmoves (by simp only [State.runWorker, hpc, hpending, Option.map_some, Option.isSome_some])
  | acquiring request stage =>
    by_cases hlocks : (s.workers worker).Locks
    · exact .inl (State.canMove_of_locks hlocks)
    · cases stage with
      | lock =>
        by_cases hmutex : s.slots_mutex_ = none
        · exact hmoves (by simp only [State.runWorker, hpc, State.acquire, hmutex, ↓reduceIte, Option.isSome_some])
        · exact .inr (Option.ne_none_iff_exists'.mp hmutex)
      | parked =>
        rw [hpc] at hnever
        exact hnever.elim
      | _ =>
        rw [hpc] at hlocks
        exact absurd trivial hlocks
  | recheckingDraining | selecting | starting | readingToken | executed =>
    exact hmoves (by simp only [State.runWorker, hpc, Option.isSome_some])
  | executing request executor_index execution_started =>
    exact .inl (.inr ⟨request, executor_index, execution_started, hpc⟩)
  | finishing request ops =>
    cases ops with
    | nil => exact hmoves (by simp only [State.runWorker, hpc, Option.isSome_some])
    | cons op ops =>
      obtain ⟨pending, hpending⟩ := Option.ne_none_iff_exists'.mp (horderly.accepted worker request _ hpc)
      exact hmoves (by simp only [State.runWorker, hpc, hpending, Option.map_some, Option.isSome_some])
  | exited => exact absurd hpc hrunning
  | terminated ops => exact absurd hpc ((hattended.single worker).alive ops)

end Steps

/-- In every run `slots_mutex_` is held inside `acquireDecodeSlot` only. -/
theorem orderly_reachable {start : Int} {s : State setup} (hreach : (system setup start).Reachable s) :
    s.Orderly := by
  refine @System.Reachable.invariant _ _ (system setup start) State.Orderly ?_ ?_ s hreach
  · rintro s rfl
    exact ⟨by rintro _ ⟨⟩, by rintro _ _ _ ⟨⟩⟩
  · intro s event s' hreach horderly hstep
    exact horderly.step (attended_reachable hreach) hstep

/-- In every run a model with a drain drains. -/
theorem begun_reachable {start : Int} {s : State setup} (hreach : (system setup start).Reachable s) : s.Begun := by
  refine @System.Reachable.invariant _ _ (system setup start) State.Begun ?_ ?_ s hreach
  · rintro s rfl thread hcalled
    exact absurd rfl hcalled
  · intro s event s' _ hbegun hstep
    exact hbegun.step hstep

/-- While a worker of a draining model has not exited, one of them can go on. -/
theorem drain_progress {start : Int} {s : State setup} (hreach : (system setup start).Reachable s)
    (hdraining : s.draining_ = true) : s.AllExited ∨ ∃ worker, s.CanMove worker := by
  have horderly := orderly_reachable hreach
  by_cases hexited : s.AllExited
  · exact .inl hexited
  · right
    obtain ⟨worker, hrunning⟩ := not_forall.mp hexited
    rcases (attended_reachable hreach).canMove_or horderly (neverParked_reachable hreach worker) hdraining hrunning with
      hmoves | ⟨holder, hholds⟩
    · exact ⟨worker, hmoves⟩
    · exact ⟨holder, State.canMove_of_locks (horderly.mutex holder hholds)⟩

/-- No worker has more than 24 steps ahead of it. -/
theorem rank_le {start : Int} {s : State setup} (hreach : (system setup start).Reachable s) :
    ∀ worker, (s.workers worker).rank ≤ 24 := by
  refine @System.Reachable.invariant _ _ (system setup start)
    (fun s => ∀ worker, (s.workers worker).rank ≤ 24) ?_ ?_ s hreach
  · rintro s rfl worker
    exact Nat.le_of_ble_eq_true rfl
  · intro s event s' hreach hle hstep other
    obtain ⟨worker, hworks, -⟩ | ⟨hworkers, -⟩ := State.step_frame hstep
    · obtain ⟨pc', hhandles⟩ := hworks.handles
      by_cases hother : other = worker
      · subst hother
        have hnever := neverParked_reachable (hreach.next hstep) other
        have hwas := hle other
        rcases hworks.rank hnever with hlt | ⟨-, hrank, -⟩ <;> omega
      · rw [hhandles.workers, Function.update_of_ne hother]
        exact hle other
    · rw [hworkers]
      exact hle other

/-- A drain ends. From any moment of a call of `beginDrain` on the workers take no
more than a bounded number of steps, whatever the other threads do; until all
have exited one of them can go on, unless they are all inside executors; then
nothing is queued, and every drain that was begun can go on until it returns. -/
theorem drain_ends {start : Int} {s t : State setup} (hreach : (system setup start).Reachable s) {thread : Nat}
    (hbegun : s.drains thread ≠ .idle) {steps : List (Taken (State setup) (Event setup))}
    (hstretch : (system setup start).Stretch (fun _ => True) s steps t) :
    steps.countP (·.event.isWorkers) ≤ 24 * (setup.config.max_queue_size + setup.config.kv_cache_slots) ∧
    (t.AllExited ∨ ∃ worker, t.CanMove worker) ∧
    (t.AllExited → t.queue_ = [] ∧ ∀ thread, t.drains thread = .idle ∨ t.drains thread = .returned ∨
      ∃ t', t.step (.drain thread) = some t') := by
  have hreach' := hstretch.reachable hreach
  have hkept (s : State setup) (event : Event setup) (s' : State setup) (_ : (system setup start).Reachable s)
      (hdraining : s.draining_ = true) (hstep : (system setup start).step s event s') : s'.draining_ = true :=
    State.step_draining hdraining hstep
  have halong := hstretch.along hkept hreach (begun_reachable hreach thread hbegun)
  have hshut := shut_reachable hreach'
  refine ⟨?_, drain_progress hreach' halong.ends.2, ?_⟩
  · have hcount := halong.countP_le State.rank (·.event.isWorkers) ?_ hreach
    · have hranks : (tally fun worker => (s.workers worker).rank) ≤ setup.config.kv_cache_slots * 24 := by
        have hmul := @tally_le_mul _ _ (fun worker => (s.workers worker).rank) (fun _ => 1) 24
          fun worker => (rank_le hreach worker).trans (Nat.le_of_eq (Nat.one_mul 24).symm)
        have hcard := @tally_le_card (Fin setup.config.kv_cache_slots) _ _ fun _ => le_refl 1
        rw [Fintype.card_fin] at hcard
        exact hmul.trans (Nat.mul_le_mul_right 24 hcard)
      have hqueue := queue_bounded hreach
      unfold State.rank at hcount
      omega
    · intro s event s' hreach hstay hstep
      have hrank := State.step_rank (neverParked_reachable (hreach.next hstep)) hstep
      rw [State.note_admits_draining hstay.2] at hrank
      exact hrank
  · intro hexited
    refine ⟨(hshut.closed hexited).2, ?_⟩
    intro thread
    have hwas := hshut.drains thread
    simp only [State.step, State.runDrain]
    cases hpc : t.drains thread with
    | idle => exact .inl rfl
    | returned => exact .inr (.inl rfl)
    | joining =>
      have hall :
          ((List.finRange setup.config.kv_cache_slots).all fun worker => (t.workers worker).isExited) = true := by
        apply List.all_eq_true.mpr
        intro worker _
        rw [hexited worker]
        rfl
      exact .inr (.inr ⟨_, if_pos hall⟩)
    | rejecting => exact .inr (.inr ⟨_, rfl⟩)
    | answering pending =>
      rw [hpc] at hwas
      rw [hwas.2]
      exact .inr (.inr ⟨_, rfl⟩)

/-- The model drains with a request queued, and the worker gets rid of it. -/
def drained : List (Event singleSlot) := List.replicate 11 (.worker onlyWorker)

/-- A drain with one request in the queue. -/
theorem drain_ends_drained :
    ∃ s t, System.replay State.step { now := 0 } (queued ++ [.beginDrain 0]) = some s ∧
      System.replay State.step s drained = some t ∧
      drained.countP (·.isWorkers) ≤ 24 * (singleSlot.config.max_queue_size + singleSlot.config.kv_cache_slots) ∧
      t.queue_ = [] ∧ ∃ t', t.step (.drain 0) = some t' := by
  have hreplay : ∃ s t, System.replay State.step { now := 0 } (queued ++ [.beginDrain 0]) = some s ∧
      System.replay State.step s drained = some t ∧ s.drains 0 = .joining ∧ t.workers onlyWorker = .exited ∧
        t.drains 0 = .joining := ⟨_, _, rfl, rfl, rfl, rfl, rfl⟩
  obtain ⟨s, t, hrun, hrun', hbegun, hexited, hjoining⟩ := hreplay
  have hreach : (system singleSlot 0).Reachable s := System.reachable_of_replay hrun
  obtain ⟨steps, hstretch, hevents⟩ := System.stretch_of_replay { now := 0 } hrun'
  have hcalled : s.drains 0 ≠ .idle := by
    rw [hbegun]
    rintro ⟨⟩
  obtain ⟨hbound, -, hreturns⟩ := drain_ends hreach hcalled hstretch
  have hall : t.AllExited := fun worker => (@Subsingleton.elim (Fin 1) _ worker onlyWorker) ▸ hexited
  obtain ⟨hempty, hstep⟩ := hreturns hall
  refine ⟨s, t, hrun, hrun', ?_, hempty, ?_⟩
  · rw [← hevents, List.countP_map]
    exact hbound
  · obtain hpc | hpc | hstep := hstep 0
    · rw [hjoining] at hpc
      cases hpc
    · rw [hjoining] at hpc
      cases hpc
    · exact hstep

end neuriplo.llm
