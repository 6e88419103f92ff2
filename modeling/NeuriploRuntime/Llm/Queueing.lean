import NeuriploRuntime.Llm.Handling
import NeuriploRuntime.Transition.Log
import NeuriploRuntime.Transition.WorkQueue

open neuriplo.scheduler neuriplo.tensor transition

namespace neuriplo.llm

variable {setup : Setup}

/-- What a run is remembered for: which requests were accepted, and which were
popped. -/
inductive Note where
  | accepted (request : Nat)
  | popped (request : Nat)

def Note.admits : Note → Option Nat
  | .accepted request => some request
  | .popped _ => none

def Note.takes : Note → Option Nat
  | .accepted _ => none
  | .popped request => some request

def State.note (s : State setup) : Event setup → Option Note
  | .submitter request =>
    match s.submits request with
    | .enqueuing _ _ _ => if s.accepts then some (.accepted request) else none
    | _ => none
  | .worker worker =>
    match s.workers worker with
    | .popping => s.queue_.head?.map .popped
    | _ => none
  | _ => none

/-- The requests accepted so far, in order. -/
def acceptedRequests (log : List Note) : List Nat := log.reverse.filterMap (·.admits)

/-- The requests popped so far, in order. -/
def poppedRequests (log : List Note) : List Nat := log.reverse.filterMap (·.takes)

/-- The queue, the workers' requests and the log as a work queue. -/
def State.workQueue (s : State setup) (log : List Note) : WorkQueue Nat (Fin setup.config.kv_cache_slots) where
  queue := s.queue_
  held worker := (s.workers worker).owned
  admitted := acceptedRequests log
  taken := poppedRequests log

/-- The scheduler with its log. -/
def noted (setup : Setup) (start : Int) : System (State setup × List Note) (Event setup) :=
  (system setup start).logged State.note

section Refinement

variable {s s' : State setup} {log : List Note}

theorem acceptedRequests_append (note : Option Note) (log : List Note) :
    acceptedRequests (note.toList ++ log) = acceptedRequests log ++ (note.bind (·.admits)).toList := by
  cases note with
  | none => simp [acceptedRequests]
  | some note => cases note <;> simp [acceptedRequests, Note.admits]

theorem poppedRequests_append (note : Option Note) (log : List Note) :
    poppedRequests (note.toList ++ log) = poppedRequests log ++ (note.bind (·.takes)).toList := by
  cases note with
  | none => simp [poppedRequests]
  | some note => cases note <;> simp [poppedRequests, Note.takes]

/-- A call of `submit` has its request accepted once it waits for the answer. -/
def SubmitPc.Accepted (pc : SubmitPc) (accepted : Prop) : Prop :=
  match pc with
  | .waiting => accepted
  | .expiring _ => accepted
  | .returned _ => True
  | _ => ¬ accepted

/-- The log tells which requests were accepted. -/
structure State.Told (s : State setup) (log : List Note) : Prop where
  accepted : ∀ request, request ∈ acceptedRequests log ↔ s.requests request ≠ none
  submits : ∀ request, (s.submits request).Accepted (s.requests request ≠ none)

/-- A step of `submit` that queues nothing. -/
structure State.Unqueued (s : State setup) (request : Nat) (s' : State setup) : Prop where
  note : s.note (.submitter request) = none
  queue : s'.queue_ = s.queue_
  workers : s'.workers = s.workers
  requests : ∀ other, s'.requests other = none ↔ s.requests other = none
  submits : ∃ pc', s'.submits = Function.update s.submits request pc' ∧
    ∀ accepted, (s.submits request).Accepted accepted → pc'.Accepted accepted

theorem SubmitPc.Accepted.of_isEarly {pc pc' : SubmitPc} {accepted : Prop} (hpc : pc.isEarly = true)
    (hpc' : pc'.isEarly = true ∨ ∃ result, pc' = .returned result ∧ result.scheduler_error ≠ .timeout)
    (haccepted : pc.Accepted accepted) : pc'.Accepted accepted := by
  have hnot : ¬ accepted := by
    cases pc with
    | waiting | expiring | returned => cases hpc
    | _ => exact haccepted
  obtain hearly | ⟨result, rfl, -⟩ := hpc'
  · cases pc' with
    | waiting | expiring | returned => cases hearly
    | _ => exact hnot
  · trivial

/-- A call of `submit` queues its request, or its step leaves the queue alone. -/
theorem State.runSubmit_queues {request : Nat} (hstep : s.runSubmit request = some s') :
    (∃ call enqueued_at deadline, s.submits request = .enqueuing call enqueued_at deadline ∧ s.accepts = true ∧
      s' = { s with
        queue_ := s.queue_ ++ [request]
        metrics_ := { s.metrics_ with requests_accepted := s.metrics_.requests_accepted + 1 }
        requests := Function.update s.requests request
          (some { request := call, enqueued_at, deadline }) }.setSubmit request .waiting) ∨
      s.Unqueued request s' := by
  by_cases hqueues : ∃ call enqueued_at deadline, s.submits request = .enqueuing call enqueued_at deadline
  · obtain ⟨call, enqueued_at, deadline, hpc⟩ := hqueues
    simp only [runSubmit, hpc, Option.some.injEq] at hstep
    cases haccepts : s.accepts with
    | true =>
      rw [enqueue_of_accepts haccepts] at hstep
      exact .inl ⟨call, enqueued_at, deadline, hpc, rfl, hstep.symm⟩
    | false =>
      obtain ⟨metrics_, result, henqueue⟩ := enqueue_of_not_accepts haccepts request call enqueued_at deadline
      rw [henqueue] at hstep
      subst hstep
      refine .inr ⟨?_, rfl, rfl, fun _ => Iff.rfl, _, rfl, fun _ _ => trivial⟩
      simp [note, hpc, haccepts]
  · have hnote : s.note (.submitter request) = none := by
      simp only [note]
      split
      · exact absurd ⟨_, _, _, ‹_›⟩ hqueues
      · rfl
    have hmove {t : State setup} {pc' : SubmitPc} (hsubmits : t.submits = Function.update s.submits request pc')
        (hqueue : t.queue_ = s.queue_) (hworkers : t.workers = s.workers) (hrequests : t.requests = s.requests)
        (hpc' : ∀ accepted, (s.submits request).Accepted accepted → pc'.Accepted accepted) : s.Unqueued request t :=
      ⟨hnote, hqueue, hworkers, fun _ => by rw [hrequests], pc', hsubmits, hpc'⟩
    right
    cases State.runSubmit_submits hstep with
    | early pc' metrics_ hpc hpc' => exact hmove rfl rfl rfl rfl fun _ => .of_isEarly hpc hpc'
    | enqueued call enqueued_at deadline hpc => exact absurd ⟨call, enqueued_at, deadline, hpc⟩ hqueues
    | answered pending result hpc => exact hmove rfl rfl rfl rfl fun _ _ => trivial
    | timedOut hpc => exact hmove rfl rfl rfl rfl fun _ _ => trivial
    | late pending hpc => exact hmove rfl rfl rfl rfl (by rw [hpc]; exact fun _ => id)
    | tokenSet hpc => exact hmove rfl rfl rfl rfl (by rw [hpc]; exact fun _ => id)
    | counted hpc => exact hmove rfl rfl rfl rfl (by rw [hpc]; exact fun _ => id)
    | cancelled pending hpc hpending =>
      refine ⟨hnote, rfl, rfl, fun other => update_some_eq_none_iff hpending, _, rfl, ?_⟩
      rw [hpc]
      exact fun _ => id

/-- A step that admits nothing keeps what is told of the requests. -/
theorem State.Told.keep (htold : s.Told log) {note : Option Note}
    (hnote : note.bind (·.admits) = none)
    (hrequests : ∀ request, s'.requests request = none ↔ s.requests request = none)
    (hsubmits : ∀ request, s'.submits request = s.submits request ∨
      ∀ accepted, (s.submits request).Accepted accepted → (s'.submits request).Accepted accepted) :
    s'.Told (note.toList ++ log) := by
  constructor
  · intro request
    rw [acceptedRequests_append, hnote, Option.toList_none, List.append_nil, htold.accepted request]
    exact not_congr (hrequests request).symm
  · intro request
    have haccepted : (s'.requests request ≠ none) = (s.requests request ≠ none) :=
      propext (not_congr (hrequests request))
    rw [haccepted]
    obtain hsame | hpc := hsubmits request
    · rw [hsame]
      exact htold.submits request
    · exact hpc _ (htold.submits request)

theorem State.note_admits_worker (worker : Fin setup.config.kv_cache_slots) :
    (s.note (.worker worker)).bind (·.admits) = none := by
  simp only [note]
  split
  · cases s.queue_.head? <;> rfl
  · rfl

/-- Every step keeps what is told of the requests. -/
theorem State.Told.step (htold : s.Told log) {event : Event setup} (hstep : s.step event = some s') :
    s'.Told ((s.note event).toList ++ log) := by
  cases event with
  | tick | cancel | stopAccepting =>
    cases hstep
    exact htold.keep rfl (fun _ => Iff.rfl) fun _ => .inl rfl
  | submit request call =>
    simp only [State.step] at hstep
    split at hstep <;> cases hstep
    rename_i hpc
    refine htold.keep rfl (fun _ => Iff.rfl) ?_
    refine @update_or _ _ _ s.submits request (.validating call)
      (fun other pc => ∀ accepted, (s.submits other).Accepted accepted → pc.Accepted accepted) ?_
    rw [hpc]
    exact fun _ => id
  | submitter request =>
    obtain ⟨call, enqueued_at, deadline, hpc, haccepts, rfl⟩ | hunqueued := State.runSubmit_queues hstep
    · have hfresh := htold.submits request
      rw [hpc] at hfresh
      have hnote : s.note (.submitter request) = some (.accepted request) := by simp [State.note, hpc, haccepts]
      constructor
      · intro other
        rw [hnote, acceptedRequests_append, List.mem_append, htold.accepted other]
        by_cases hother : other = request
        · subst hother
          simp [State.setSubmit, Note.admits]
        · simp [State.setSubmit, Note.admits, hother]
      · intro other
        by_cases hother : other = request
        · subst hother
          simp [State.setSubmit, SubmitPc.Accepted]
        · simp only [State.setSubmit, Function.update_of_ne hother]
          exact htold.submits other
    · obtain ⟨pc', hsubmits, hpc'⟩ := hunqueued.submits
      refine htold.keep (by rw [hunqueued.note]; rfl) hunqueued.requests ?_
      rw [hsubmits]
      exact @update_or _ _ _ s.submits request pc'
        (fun other pc => ∀ accepted, (s.submits other).Accepted accepted → pc.Accepted accepted) hpc'
  | worker worker =>
    have hworks := State.runWorker_works hstep
    obtain ⟨pc', hhandles⟩ := hworks.handles
    exact htold.keep (State.note_admits_worker worker) (fun other => (hworks.keeps other).accepted)
      fun _ => .inl (by rw [hhandles.submits])
  | infer worker outcome =>
    have hworks := State.infer_works hstep
    obtain ⟨pc', hhandles⟩ := hworks.handles
    exact htold.keep rfl (fun other => (hworks.keeps other).accepted) fun _ => .inl (by rw [hhandles.submits])
  | beginDrain thread =>
    simp only [State.step] at hstep
    split at hstep <;> cases hstep
    exact htold.keep rfl (fun _ => Iff.rfl) fun _ => .inl rfl
  | drain thread =>
    have hdrains := State.runDrain_drains hstep
    refine htold.keep rfl (fun other => (hdrains.keeps other).accepted) fun _ => .inl ?_
    cases hdrains <;> rfl

/-- In every run the log tells what was accepted. -/
theorem told_reachable {start : Int} (hreach : (noted setup start).Reachable (s, log)) : s.Told log := by
  refine @System.Reachable.invariant_of_logged _ _ _ (system setup start) State.note State.Told ?_ ?_ s log hreach
  · rintro s rfl
    refine ⟨?_, ?_⟩
    · intro request
      simp [acceptedRequests]
    · intro request accepted
      exact accepted rfl
  · intro s log event s' _ htold hstep
    exact htold.step hstep

/-- A step of the scheduler as one of its work queue, or none. -/
def State.workQueueSteps (s : State setup) (log : List Note) (s' : State setup) (log' : List Note) : Prop :=
  s'.workQueue log' = s.workQueue log ∨ ∃ event, (s.workQueue log).step event = some (s'.workQueue log')

theorem State.workQueue_same (hqueue : s'.queue_ = s.queue_) (hworkers : s'.workers = s.workers) :
    s.workQueueSteps log s' log := by
  left
  simp only [workQueue, hqueue, hworkers]

/-- A worker's step is one of the work queue. -/
theorem State.workQueue_handles {worker : Fin setup.config.kv_cache_slots} {pc' : WorkerPc} {note : Option Note}
    (hhandles : s.Handles worker s' pc')
    (hnote : ∀ request, s.workers worker = .popping → s.queue_ = request :: s'.queue_ → note = some (.popped request))
    (hnone : s'.queue_ = s.queue_ → note = none) : s.workQueueSteps log s' (note.toList ++ log) := by
  have hheld : (fun other => (s'.workers other).owned) =
      Function.update (fun other => (s.workers other).owned) worker pc'.owned := by
    have hcomp := Function.comp_update WorkerPc.owned s.workers worker pc'
    rw [← hhandles.workers] at hcomp
    exact hcomp
  obtain ⟨hqueue, howned⟩ | ⟨request, hpopping, hqueue, howned⟩ := hhandles.owned
  · rw [hnone hqueue]
    obtain hsame | hgone := howned
    · left
      have hupdate : Function.update (fun other => (s.workers other).owned) worker (s.workers worker).owned = _ :=
        Function.update_eq_self worker fun other => (s.workers other).owned
      simp only [workQueue, hheld, hsame, hupdate, hqueue, Option.toList_none, List.nil_append]
    · refine .inr ⟨.release worker, ?_⟩
      simp only [WorkQueue.step, workQueue, hheld, hgone, hqueue, Option.toList_none, List.nil_append]
  · rw [hnote request hpopping hqueue]
    refine .inr ⟨.take worker, ?_⟩
    have hfree : (s.workers worker).owned = none := by
      rw [hpopping]
      rfl
    simp only [WorkQueue.step, workQueue, hqueue, hfree, hheld, howned, acceptedRequests_append,
      poppedRequests_append]
    simp [Note.admits, Note.takes]

/-- A worker that pops notes the head of the queue. -/
theorem State.note_of_popping {worker : Fin setup.config.kv_cache_slots} (hstep : s.runWorker worker = some s')
    (hpopping : s.workers worker = .popping) :
    s.note (.worker worker) = s.queue_.head?.map .popped ∧ s'.queue_ = s.queue_.tail := by
  refine ⟨by simp only [note, hpopping], ?_⟩
  simp only [runWorker, hpopping] at hstep
  split at hstep
  · rename_i hqueue
    cases hstep
    simp [setWorker, hqueue]
  · rename_i hempty
    split at hstep <;> cases hstep
    simp [setWorker, hempty]

/-- One step of the scheduler is at most one step of its work queue. -/
theorem State.step_workQueue (hshut : s.Shut) (htold : s.Told log) {event : Event setup}
    (hstep : s.step event = some s') : s.workQueueSteps log s' ((s.note event).toList ++ log) := by
  cases event with
  | tick | cancel | stopAccepting =>
    cases hstep
    exact workQueue_same rfl rfl
  | submit request call =>
    simp only [State.step] at hstep
    split at hstep <;> cases hstep
    exact workQueue_same rfl rfl
  | submitter request =>
    obtain ⟨call, enqueued_at, deadline, hpc, haccepts, rfl⟩ | hunqueued := State.runSubmit_queues hstep
    · have hfresh := htold.submits request
      rw [hpc] at hfresh
      have hnew : request ∉ acceptedRequests log := fun hmem => hfresh ((htold.accepted request).mp hmem)
      have hnote : s.note (.submitter request) = some (.accepted request) := by simp [note, hpc, haccepts]
      refine .inr ⟨.enqueue request, ?_⟩
      simp only [WorkQueue.step, workQueue, hnew, ↓reduceIte, hnote, acceptedRequests_append, poppedRequests_append]
      simp [Note.admits, Note.takes, setSubmit]
    · rw [hunqueued.note]
      exact workQueue_same hunqueued.queue hunqueued.workers
  | worker worker =>
    obtain ⟨pc', hhandles⟩ := (State.runWorker_works hstep).handles
    apply workQueue_handles hhandles
    · intro request hpopping hqueue
      rw [(note_of_popping hstep hpopping).1, hqueue]
      rfl
    · intro hsame
      cases hpc : s.workers worker with
      | popping =>
        obtain ⟨hnote, htail⟩ := note_of_popping hstep hpc
        rw [hnote]
        cases hqueue : s.queue_ with
        | nil => rfl
        | cons request queue_ =>
          rw [hsame, hqueue] at htail
          exact absurd htail (List.cons_ne_self request queue_)
      | _ => simp only [note, hpc]
  | infer worker outcome =>
    obtain ⟨pc', hhandles⟩ := (State.infer_works hstep).handles
    apply workQueue_handles hhandles
    · intro request hpopping
      simp [State.step, State.infer, hpopping] at hstep
    · intro _
      rfl
  | beginDrain thread =>
    simp only [State.step] at hstep
    split at hstep <;> cases hstep
    exact workQueue_same rfl rfl
  | drain thread =>
    have hwas := hshut.drains thread
    simp only [State.step, runDrain] at hstep
    split at hstep
    · split at hstep <;> cases hstep
      exact workQueue_same rfl rfl
    · rename_i hpc
      rw [hpc] at hwas
      cases hstep
      exact workQueue_same (hshut.closed hwas).2.symm rfl
    · cases hstep
      exact workQueue_same rfl rfl
    · rename_i hpc
      rw [hpc] at hwas
      cases hwas.2
    · cases hstep

/-- The scheduler refines a work queue. -/
theorem workQueue_reachable {start : Int} (hreach : (noted setup start).Reachable (s, log)) :
    (WorkQueue.system Nat (Fin setup.config.kv_cache_slots)).Reachable (s.workQueue log) := by
  refine @System.Reachable.simulate _ _ (noted setup start) _ _ _ (fun t => t.1.workQueue t.2) ?_ ?_ (s, log) hreach
  · rintro ⟨s, log⟩ ⟨hinit, hlog⟩
    cases hinit
    cases hlog
    rfl
  · rintro ⟨s, log⟩ event ⟨s', log'⟩ hreach ⟨hstep, hlog⟩
    subst hlog
    exact State.step_workQueue (shut_reachable hreach.of_logged) (told_reachable hreach) hstep

theorem State.Handles.length_le {worker : Fin setup.config.kv_cache_slots} {pc' : WorkerPc}
    (hhandles : s.Handles worker s' pc') : s'.queue_.length ≤ s.queue_.length := by
  obtain ⟨hqueue, -⟩ | ⟨request, -, hqueue, -⟩ := hhandles.owned
  · rw [hqueue]
  · rw [hqueue]
    exact Nat.le_succ _

/-- A drain queues nothing. -/
theorem State.runDrain_length_le {thread : Nat} (hstep : s.runDrain thread = some s') :
    s'.queue_.length ≤ s.queue_.length := by
  unfold runDrain at hstep
  split at hstep
  · split at hstep <;> cases hstep
    exact le_refl _
  · cases hstep
    exact Nat.zero_le _
  · cases hstep
    exact le_refl _
  · obtain ⟨found, -, rfl⟩ := Option.map_eq_some_iff.mp hstep
    split <;> exact le_refl _
  · cases hstep

/-- Only a submitter that finds room lengthens the queue. -/
theorem State.step_length_le {event : Event setup} (hstep : s.step event = some s') :
    s'.queue_.length ≤ s.queue_.length ∨ s'.queue_.length ≤ setup.config.max_queue_size := by
  cases event with
  | tick | cancel | stopAccepting =>
    cases hstep
    exact .inl (le_refl _)
  | submit request call =>
    simp only [State.step] at hstep
    split at hstep <;> cases hstep
    exact .inl (le_refl _)
  | submitter request =>
    obtain ⟨call, enqueued_at, deadline, hpc, haccepts, rfl⟩ | hunqueued := State.runSubmit_queues hstep
    · simp only [accepts, Bool.and_eq_true, decide_eq_true_eq] at haccepts
      simp only [setSubmit, List.length_append, List.length_singleton]
      exact .inr haccepts.2
    · exact .inl (by rw [hunqueued.queue])
  | worker worker =>
    obtain ⟨pc', hhandles⟩ := (State.runWorker_works hstep).handles
    exact .inl hhandles.length_le
  | infer worker outcome =>
    obtain ⟨pc', hhandles⟩ := (State.infer_works hstep).handles
    exact .inl hhandles.length_le
  | beginDrain thread =>
    simp only [State.step] at hstep
    split at hstep <;> cases hstep
    exact .inl (le_refl _)
  | drain thread => exact .inl (State.runDrain_length_le hstep)

/-- In every run the queue is no longer than its bound. -/
theorem queue_bounded {start : Int} (hreach : (system setup start).Reachable s) :
    s.queue_.length ≤ setup.config.max_queue_size := by
  refine @System.Reachable.invariant _ _ (system setup start)
    (fun s => s.queue_.length ≤ setup.config.max_queue_size) ?_ ?_ s hreach
  · rintro s rfl
    exact Nat.zero_le _
  · intro s event s' _ hbound hstep
    obtain hle | hle := State.step_length_le hstep
    · exact hle.trans hbound
    · exact hle

/-- The requests leave the queue in the order in which they were accepted, each
is popped once and by one worker, the queue never outgrows its bound, and a drain
returns only when everything that was accepted has been popped. -/
theorem queue_fifo {start : Int} (hreach : (noted setup start).Reachable (s, log)) :
    (acceptedRequests log = poppedRequests log ++ s.queue_ ∧ (acceptedRequests log).Nodup ∧
      ∀ request, request ∈ acceptedRequests log ↔ s.requests request ≠ none) ∧
    s.queue_.length ≤ setup.config.max_queue_size ∧
    (∀ worker request, (s.workers worker).owned = some request → request ∈ poppedRequests log ∧
      ∀ other, (s.workers other).owned = some request → other = worker) ∧
    ∀ thread, s.drains thread = .returned → s.AllExited ∧ poppedRequests log = acceptedRequests log := by
  have hordered := WorkQueue.ordered_reachable (workQueue_reachable hreach)
  have hshut := shut_reachable hreach.of_logged
  refine ⟨⟨hordered.fifo, hordered.nodup, (told_reachable hreach).accepted⟩, queue_bounded hreach.of_logged, ?_, ?_⟩
  · intro worker request howned
    refine ⟨hordered.taken worker request howned, ?_⟩
    intro other hother
    exact hordered.unshared other worker request hother howned
  · intro thread hreturned
    have hexited := hshut.drains thread
    rw [hreturned] at hexited
    have hfifo : acceptedRequests log = poppedRequests log ++ s.queue_ := hordered.fifo
    rw [(hshut.closed hexited).2, List.append_nil] at hfifo
    exact ⟨hexited, hfifo.symm⟩

end Refinement

/-- A request is queued behind another, which the worker has popped. -/
def queuedTwice : List (Event singleSlot) :=
  queued ++ (.submit 1 prompted :: List.replicate 5 (.submitter 1)) ++ [.worker onlyWorker]

/-- Two requests, the first of which is popped. -/
theorem queue_fifo_queuedTwice :
    ∃ s log, (noted singleSlot 0).Reachable (s, log) ∧ acceptedRequests log = poppedRequests log ++ [1] ∧
      0 ∈ poppedRequests log := by
  have hreplay : ∃ s, System.replay State.step { now := 0 } queuedTwice = some s ∧ s.queue_ = [1] ∧
      (s.workers onlyWorker).owned = some 0 := ⟨_, rfl, rfl, rfl⟩
  obtain ⟨s, hrun, hqueue, howned⟩ := hreplay
  obtain ⟨log, hlogged⟩ := (System.reachable_of_replay hrun).logged
  obtain ⟨⟨hfifo, -⟩, -, hpopped, -⟩ := queue_fifo hlogged
  rw [hqueue] at hfifo
  exact ⟨s, log, hlogged, hfifo, (hpopped onlyWorker 0 howned).1⟩

end neuriplo.llm
