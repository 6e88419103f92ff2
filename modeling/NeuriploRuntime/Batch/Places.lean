import NeuriploRuntime.Batch.Moves
import NeuriploRuntime.Transition.Tally

open neuriplo.scheduler neuriplo.tensor transition

namespace neuriplo.batch

variable {setup : Setup}

/-- The request that a straight-line step still answers. -/
def WorkerOp.answers : WorkerOp → Option Nat
  | .fulfillResult request _ => some request
  | .setValue request _ => some request
  | .checkCancelled request _ _ _ => some request
  | .settle request _ _ _ _ => some request
  | _ => none

/-- The requests a worker has taken from the queue and not parted with. -/
def WorkerPc.owned : WorkerPc → List Nat
  | .forming first => [first]
  | .deciding formation => formation.batch
  | .locking formation _ => formation.batch
  | .formWaiting formation _ => formation.batch
  | .expiring formation _ _ ops => ops.filterMap (·.answers) ++ formation.batch
  | .rescanning formation _ _ => formation.batch
  | .joinNotifying formation => formation.batch
  | .joined formation => formation.batch
  | .formed formation => formation.batch
  | .processing batch => batch
  | .sweeping _ swept rest => swept ++ rest
  | .sweepExpiring _ swept request rest _ => swept ++ request :: rest
  | .collecting rest active_batch => rest ++ active_batch
  | .collectingDeadline request rest active_batch => request :: rest ++ active_batch
  | .single request => [request]
  | .singleDeadline request => [request]
  | .selecting job => job.members
  | .starting job _ => job.members
  | .executing job _ _ => job.members
  | .executed job _ _ _ => job.members
  | .finishing ops => ops.filterMap (·.answers)
  | .throwing active_batch ops => ops.filterMap (·.answers) ++ active_batch
  | .terminated active_batch => active_batch
  | _ => []

/-- The worker has yet to hand its requests to an executor. -/
def WorkerPc.isEarly : WorkerPc → Bool
  | .executing _ _ _ => false
  | .executed _ _ _ _ => false
  | .finishing _ => false
  | .throwing _ _ => false
  | .terminated _ => false
  | _ => true

/-- The requests a worker may still hand to an executor. -/
def WorkerPc.unexecuted (pc : WorkerPc) : List Nat := if pc.isEarly then pc.owned else []

/-- How often a request is in the queue and in the workers' batches. -/
def State.places (s : State setup) (request : Nat) : Nat :=
  s.queue_.count request + tally fun worker => (s.workers worker).owned.count request

/-- How often a request may still be handed to an executor. -/
def State.handouts (s : State setup) (request : Nat) : Nat :=
  s.queue_.count request + tally fun worker => (s.workers worker).unexecuted.count request

def State.Open (s : State setup) (request : Nat) : Prop := (s.pending request).promise = none

def State.Late (s : State setup) (request : Nat) : Prop := (s.pending request).deadline ≤ s.now

theorem State.pending_of_some {s : State setup} {request : Nat} {pending : PendingRequest}
    (hsome : s.requests request = some pending) : s.pending request = pending := by
  unfold State.pending
  rw [hsome]
  rfl

theorem State.pending_congr {s s' : State setup} {request : Nat} (hsame : s'.requests request = s.requests request) :
    s'.pending request = s.pending request := by
  unfold State.pending
  rw [hsame]

/-- The request a scan takes out of the queue. -/
def State.Scanned.taken : State.Scanned → List Nat
  | .ended => []
  | .expired next _ => [next]
  | .joined next => [next]

/-- A scan takes at most one request, and drops cancelled ones only. -/
theorem State.scan_perm (s : State setup) (formation : Formation) (passed : List Nat) (made_progress : Bool)
    (rest : List Nat) :
    ∃ dropped : List Nat, (∀ request ∈ dropped, (s.pending request).cancelled = true) ∧
      (passed ++ rest).Perm ((s.scan formation passed made_progress rest).queue_ ++
        ((s.scan formation passed made_progress rest).scanned.taken ++ dropped)) := by
  induction rest generalizing passed made_progress with
  | nil => exact ⟨[], nofun, .refl _⟩
  | cons next rest ih =>
    simp only [scan]
    split
    · obtain ⟨dropped, hdropped, hperm⟩ := ih passed true
      refine ⟨next :: dropped, ?_, ?_⟩
      · intro request hmem
        obtain rfl | hmem := List.mem_cons.mp hmem
        · assumption
        · exact hdropped request hmem
      · have hmiddle := (@List.perm_middle _ next passed rest).trans (hperm.cons next)
        refine hmiddle.trans ?_
        rw [← List.append_assoc, ← List.append_assoc]
        exact List.perm_middle.symm
    · split
      · refine ⟨[], nofun, ?_⟩
        simp only [Scanned.taken, List.append_nil]
        exact List.perm_middle.trans (List.perm_append_singleton ..).symm
      · split
        · obtain ⟨dropped, hdropped, hperm⟩ := ih (passed ++ [next]) made_progress
          rw [List.append_assoc] at hperm
          exact ⟨dropped, hdropped, hperm⟩
        · split
          · obtain ⟨dropped, hdropped, hperm⟩ := ih (passed ++ [next]) made_progress
            rw [List.append_assoc] at hperm
            exact ⟨dropped, hdropped, hperm⟩
          · refine ⟨[], nofun, ?_⟩
            simp only [Scanned.taken, List.append_nil]
            exact List.perm_middle.trans (List.perm_append_singleton ..).symm

/-- A scan takes the request that joins out of the queue, and drops cancelled
ones. -/
theorem State.scan_count (s : State setup) (formation : Formation) (position : Nat) (made_progress : Bool) :
    ∃ dropped : List Nat, (∀ request ∈ dropped, (s.pending request).cancelled = true) ∧
      ∀ request, s.queue_.count request =
        (s.scan formation (s.queue_.take position) made_progress (s.queue_.drop position)).queue_.count request +
          (s.scan formation (s.queue_.take position) made_progress
            (s.queue_.drop position)).scanned.taken.count request + dropped.count request := by
  obtain ⟨dropped, hdropped, hperm⟩ :=
    s.scan_perm formation (s.queue_.take position) made_progress (s.queue_.drop position)
  refine ⟨dropped, hdropped, ?_⟩
  intro request
  have hcount := hperm.count_eq request
  rw [List.take_append_drop, List.count_append, List.count_append] at hcount
  omega

/-- Nothing gets into a second place, nothing is handed out again, and what gets
lost on the way is answered or late. -/
structure State.Flows (s s' : State setup) : Prop where
  places : ∀ request, s'.places request ≤ s.places request
  handouts : ∀ request, s'.handouts request ≤ s.handouts request
  lost : ∀ request, s'.places request < s.places request → ¬ s'.Open request ∨ s'.Late request

/-- A worker's step flows when nothing gets into a second place. -/
theorem State.Flows.of_worker {s s' : State setup} {worker : Fin setup.config.instances} (pc' : WorkerPc)
    (hworkers : s'.workers = Function.update s.workers worker pc')
    (hqueue : ∀ request, s'.queue_.count request ≤ s.queue_.count request)
    (hcount : ∀ request, s'.queue_.count request + pc'.owned.count request ≤
      s.queue_.count request + (s.workers worker).owned.count request)
    (hearly : pc'.isEarly = true → pc'.owned = [] ∨ (s.workers worker).isEarly = true)
    (hlost : ∀ request, s'.queue_.count request + pc'.owned.count request <
      s.queue_.count request + (s.workers worker).owned.count request → ¬ s'.Open request ∨ s'.Late request) :
    s.Flows s' := by
  have hshares (share : WorkerPc → Nat) :
      (fun other => share (s'.workers other)) =
        Function.update (fun other => share (s.workers other)) worker (share pc') := by
    funext other
    rw [hworkers]
    by_cases hother : other = worker
    · subst hother
      rw [Function.update_self, Function.update_self]
    · rw [Function.update_of_ne hother, Function.update_of_ne hother]
  have hplaces (request : Nat) := tally_update (fun other => (s.workers other).owned.count request) worker
    (pc'.owned.count request)
  have hhandouts (request : Nat) := tally_update (fun other => (s.workers other).unexecuted.count request) worker
    (pc'.unexecuted.count request)
  constructor
  · intro request
    have htally := hplaces request
    have hle := hcount request
    unfold State.places
    rw [hshares (·.owned.count request)]
    omega
  · intro request
    have htally := hhandouts request
    have hle : s'.queue_.count request + pc'.unexecuted.count request ≤
        s.queue_.count request + (s.workers worker).unexecuted.count request := by
      have hle := hcount request
      have hle' := hqueue request
      unfold WorkerPc.unexecuted
      by_cases hearly' : pc'.isEarly = true
      · obtain hnone | hwas := hearly hearly'
        · simp only [hnone, ite_self, List.count_nil]
          omega
        · rw [if_pos hearly', if_pos hwas]
          exact hle
      · rw [if_neg hearly', List.count_nil]
        omega
    unfold State.handouts
    rw [hshares (·.unexecuted.count request)]
    omega
  · intro request hlt
    have htally := hplaces request
    apply hlost
    unfold State.places at hlt
    rw [hshares (·.owned.count request)] at hlt
    omega

/-- Workers and the queue are left as they are, up to wake-ups. -/
theorem State.Flows.of_same {s s' : State setup} (hqueue : s'.queue_ = s.queue_)
    (hbatch : ∀ worker, (s'.workers worker).owned = (s.workers worker).owned)
    (hearly : ∀ worker, (s'.workers worker).isEarly = (s.workers worker).isEarly) : s.Flows s' := by
  have hplaces (request : Nat) : s'.places request = s.places request := by
    unfold State.places
    simp only [hqueue, hbatch]
  constructor
  · intro request
    exact (hplaces request).le
  · intro request
    unfold State.handouts WorkerPc.unexecuted
    simp only [hqueue, hbatch, hearly, le_refl]
  · intro request hlt
    exact absurd (hplaces request) hlt.ne

/-- A quiet step keeps the requests in the worker's hands. -/
theorem WorkerPc.Quiet.owned {pc pc' : WorkerPc} (hquiet : pc.Quiet pc') : pc'.owned = pc.owned := by
  cases hquiet with
  | forming first formation hbatch => exact hbatch
  | swept => exact rfl
  | passed => simp [WorkerPc.owned]
  | sweptExpired => simp [WorkerPc.owned]
  | _ => rfl

theorem WorkerPc.Quiet.isEarly {pc pc' : WorkerPc} (hquiet : pc.Quiet pc') (hearly : pc'.isEarly = true) :
    pc'.owned = [] ∨ pc.isEarly = true := by
  cases hquiet with
  | started | inferred | threw => cases hearly
  | finished => exact .inl rfl
  | _ => exact .inr rfl

/-- What a straight-line step does: it keeps what it is bound to answer, drops it
when it is cancelled, or sets its promise. -/
inductive State.Performed (s : State setup) (worker : Fin setup.config.instances) (next : List WorkerOp → WorkerPc)
    (op : WorkerOp) (ops : List WorkerOp) : State setup → Prop
  | kept (ops' : List WorkerOp) (inflight_ : List Nat) (metrics_ : SchedulerMetrics) (cancel_tokens : Nat → Bool)
      (hanswers : ops'.filterMap (·.answers) = (op :: ops).filterMap (·.answers)) :
      Performed s worker next op ops ({ s with inflight_, metrics_, cancel_tokens }.setWorker worker (next ops'))
  | dropped (request : Nat) (hanswers : op.answers = some request) (hcancelled : (s.pending request).cancelled = true) :
      Performed s worker next op ops (s.setWorker worker (next ops))
  | set (request : Nat) (result : SchedulerResult) (hop : op = .setValue request result) (hopen : s.Open request) :
      Performed s worker next op ops
        ((s.setRequest request { s.pending request with promise := some result }).setWorker worker (next ops))
  | terminated (request : Nat) (result : SchedulerResult) (hop : op = .setValue request result)
      (hclosed : ¬ s.Open request) : Performed s worker next op ops (s.setWorker worker (.terminated []))

/-- What a straight-line step does, once for all. -/
theorem State.perform_performed {s s' : State setup} {worker : Fin setup.config.instances}
    {next : List WorkerOp → WorkerPc} {op : WorkerOp} {ops : List WorkerOp}
    (hperform : s.perform worker next ops op = some s') : s.Performed worker next op ops s' := by
  have hkept {ops' : List WorkerOp} (hanswers : ops'.filterMap (·.answers) = (op :: ops).filterMap (·.answers)) :
      s.Performed worker next op ops (s.setWorker worker (next ops')) :=
    .kept ops' s.inflight_ s.metrics_ s.cancel_tokens hanswers
  cases op with
  | notifyOne => cases hperform
  | setToken request =>
    cases hperform
    exact .kept ops s.inflight_ s.metrics_ _ rfl
  | countTimedOut request =>
    cases hperform
    exact .kept ops s.inflight_ _ s.cancel_tokens rfl
  | release executor_index =>
    cases hperform
    exact .kept ops _ s.metrics_ s.cancel_tokens rfl
  | recordBatchExecution execution_ns =>
    cases hperform
    exact .kept ops s.inflight_ _ s.cancel_tokens rfl
  | recordLatencies request started finished =>
    cases hperform
    exact .kept ops s.inflight_ _ s.cancel_tokens rfl
  | fulfillResult request result =>
    cases hperform
    split
    · exact .dropped request rfl ‹_›
    · exact hkept rfl
  | checkCancelled request started finished response =>
    cases hperform
    split
    · exact .dropped request rfl ‹_›
    · exact hkept rfl
  | settle request started finished batch_size response =>
    cases hperform
    split
    · exact hkept rfl
    · exact hkept rfl
  | setValue request result =>
    simp only [perform] at hperform
    split at hperform <;> cases hperform
    · exact .set request result rfl ‹_›
    · refine .terminated request result rfl ?_
      intro hopen
      simp_all [State.Open]

end neuriplo.batch
