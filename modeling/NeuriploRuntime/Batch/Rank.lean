import NeuriploRuntime.Batch.Executors
import NeuriploRuntime.Batch.Iterators

open neuriplo.scheduler neuriplo.tensor transition

namespace neuriplo.batch

variable {setup : Setup}

/-- At most how many steps a worker of a draining model takes before it has parted with its requests and looks
into the queue again. -/
def WorkerPc.rank : WorkerPc → Nat
  | .popping => 1
  | .popWaiting => 2
  | .forming _ => 30
  | .deciding formation => 13 * formation.batch.length + 16
  | .locking formation _ => 13 * formation.batch.length + 15
  | .formWaiting formation _ => 13 * formation.batch.length + 17
  | .expiring formation _ _ ops => 13 * formation.batch.length + 18 + opsLeft ops
  | .rescanning formation _ _ => 13 * formation.batch.length + 17
  | .joinNotifying formation => 13 * formation.batch.length + 18
  | .joined formation => 13 * formation.batch.length + 17
  | .formed formation => 13 * formation.batch.length + 14
  | .processing batch => 13 * batch.length + 13
  | .sweeping _ swept rest => 7 * swept.length + 13 * rest.length + 12
  | .sweepExpiring _ swept _ rest ops => 7 * swept.length + 13 * rest.length + 20 + opsLeft ops
  | .collecting rest active_batch => 7 * rest.length + 5 * active_batch.length + 11
  | .collectingDeadline _ rest active_batch => 7 * rest.length + 5 * active_batch.length + 17
  | .single _ => 15
  | .singleDeadline _ => 14
  | .selecting job => 5 * job.members.length + 8
  | .starting job _ => 5 * job.members.length + 7
  | .executing job _ _ => 5 * job.members.length + 6
  | .executed job _ _ _ => 5 * job.members.length + 5
  | .finishing ops => 2 + opsLeft ops
  | .throwing _ ops => 2 + opsLeft ops
  | .exited => 0
  | .terminated _ => 0
  | .undefined => 0

/-- At most how many steps the workers of a draining model take before they find the queue empty. -/
def State.rank (s : State setup) : Nat := 30 * s.queue_.length + tally fun worker => (s.workers worker).rank

/-- The worker is about to look into the queue. -/
def WorkerPc.looks : WorkerPc → Bool
  | .popping => true
  | .locking _ _ => true
  | .rescanning _ _ _ => true
  | _ => false

section Steps

variable {s s' : State setup} {worker : Fin setup.config.instances}

/-- To wake up does not raise a worker's rank. -/
theorem rank_wakeWorker (pc : WorkerPc) : (State.wakeWorker pc).rank ≤ pc.rank := by
  cases pc with
  | popWaiting | formWaiting =>
    simp only [State.wakeWorker, WorkerPc.rank]
    omega
  | _ => exact le_refl _

theorem opsLeft_expire (request : Nat) : opsLeft (expire request) = 4 := rfl

theorem opsLeft_cons (op : WorkerOp) (ops : List WorkerOp) : opsLeft (op :: ops) = op.steps + opsLeft ops :=
  List.sum_cons

/-- No step but the start of a wait has more behind it than before it. -/
theorem WorkerPc.Quiet.rank {pc pc' : WorkerPc} (hquiet : pc.Quiet pc') (hlooks : pc.looks = false) :
    pc'.rank < pc.rank := by
  cases hquiet with
  | waiting => cases hlooks
  | forming first formation hbatch =>
    simp only [WorkerPc.rank, hbatch, List.length_singleton]
    omega
  | expiredNotified formation delay_elapsed iterator ops =>
    simp only [WorkerPc.rank, opsLeft_cons, WorkerOp.steps]
    omega
  | _ =>
    simp only [WorkerPc.rank, Job.members, List.length_append, List.length_cons, List.length_nil, opsLeft, List.map_nil,
      List.sum_nil]
    omega

/-- What is left to do of a job is paid for by its requests. -/
theorem opsLeft_settleJob (s : State setup) (job : Job) (executor_index : Nat) (execution_started : Int)
    (response : ExecutionResponse) :
    opsLeft (s.settleJob job executor_index execution_started response).ops ≤ 5 * job.members.length + 2 := by
  have hzip (settle : Nat → ExecutionResponse → WorkerOp) (hsteps : ∀ request part, (settle request part).steps = 5)
      (requests : List Nat) (parts : List ExecutionResponse) :
      opsLeft (List.zipWith settle requests parts) ≤ 5 * requests.length := by
    induction requests generalizing parts with
    | nil => exact le_refl _
    | cons request requests ih =>
      cases parts with
      | nil => exact Nat.zero_le _
      | cons part parts =>
        have hrest := ih parts
        rw [List.zipWith_cons_cons, opsLeft_cons, hsteps, List.length_cons]
        omega
  cases job with
  | single request => exact le_refl _
  | batched active_batch merged =>
    simp only [State.settleJob]
    split
    · next responses hsplit =>
      have hsettles := hzip (fun request => .settle request execution_started s.now active_batch.length)
        (fun _ _ => rfl) active_batch responses
      simp only [WorkerPc.ops, opsLeft_cons, WorkerOp.steps, Job.members]
      omega
    · exact Nat.le_add_left _ _

theorem opsLeft_unmerged (active_batch : List Nat) (result : SchedulerResult) :
    opsLeft (active_batch.map fun request => .fulfillResult request result) = 2 * active_batch.length := by
  induction active_batch with
  | nil => rfl
  | cons request active_batch ih =>
    rw [List.map_cons, opsLeft_cons, ih, List.length_cons]
    simp only [WorkerOp.steps]
    omega

/-- A scan that goes on where it was pays with the request it takes. -/
theorem State.runScan_rank (s : State setup) (worker : Fin setup.config.instances) (formation : Formation)
    (delay_elapsed : Bool) (position : Nat) :
    ((s.runScan worker formation delay_elapsed position true).workers worker).rank +
        30 * (s.runScan worker formation delay_elapsed position true).queue_.length <
      13 * formation.batch.length + 17 + 30 * s.queue_.length := by
  have hshrinks := s.scan_shrinks formation (s.queue_.take position) (s.queue_.drop position) true
  have hprogress := s.scan_progress formation (s.queue_.take position) (s.queue_.drop position)
  rw [← List.length_append, List.take_append_drop] at hshrinks
  obtain ⟨hle, hless⟩ := hshrinks
  have hqueue : (s.runScan worker formation delay_elapsed position true).queue_ =
      (s.scan formation (s.queue_.take position) true (s.queue_.drop position)).queue_ := rfl
  rw [hqueue, runScan, setWorker_self]
  generalize s.scan formation (s.queue_.take position) true (s.queue_.drop position) = result at hle hless hprogress ⊢
  cases hscanned : result.scanned with
  | ended =>
    simp only [hprogress, if_true, WorkerPc.rank]
    omega
  | expired next position =>
    have hfewer := hless (.inl (by rw [hscanned]; rintro ⟨⟩))
    simp only [WorkerPc.rank, opsLeft_cons, opsLeft_expire, WorkerOp.steps]
    omega
  | joined next =>
    have hfewer := hless (.inl (by rw [hscanned]; rintro ⟨⟩))
    simp only [WorkerPc.rank, List.length_append, List.length_singleton]
    omega

/-- Fewer straight-line steps mean a lower rank. -/
theorem WorkerPc.Performs.rank {pc : WorkerPc} {next : List WorkerOp → WorkerPc} {ops left : List WorkerOp}
    (hperforms : pc.Performs next ops) (hless : opsLeft left + 1 ≤ opsLeft ops) : (next left).rank < pc.rank := by
  cases hperforms <;>
  · simp only [WorkerPc.rank]
    omega

/-- A worker that does not look into the queue comes closer to the end. -/
theorem State.Works.rank (hworks : s.Works worker s') (hlooks : (s.workers worker).looks = false) :
    (s'.workers worker).rank < (s.workers worker).rank ∧ s'.queue_ = s.queue_ := by
  cases hworks with
  | quiet pc' hquiet =>
    rw [setWorker_self]
    exact ⟨hquiet.rank hlooks, rfl⟩
  | popped first queue_ hpc | exited hpc | stale formation delay_elapsed iterator hpc =>
    rw [hpc] at hlooks
    cases hlooks
  | scanned formation delay_elapsed position made_progress hpc =>
    obtain hpc | ⟨iterator, hpc⟩ := hpc <;>
    · rw [hpc] at hlooks
      cases hlooks
  | performed next op ops hperforms hperform =>
    obtain ⟨hqueue, hterminated | ⟨left, hleft, hless⟩⟩ := State.perform_opsLeft hperform
    · rw [hterminated]
      refine ⟨?_, hqueue⟩
      generalize s.workers worker = pc at hperforms
      cases hperforms <;>
      · simp only [WorkerPc.rank]
        omega
    · rw [hleft]
      exact ⟨hperforms.rank hless, hqueue⟩
  | executed job executor_index execution_started response ops hpc hsettle
  | unsplit job executor_index execution_started response ops hpc hsettle =>
    have hops := opsLeft_settleJob s job executor_index execution_started response
    rw [hsettle] at hops
    rw [setWorker_self, hpc]
    refine ⟨?_, rfl⟩
    simp only [WorkerPc.rank, WorkerPc.ops] at hops ⊢
    omega
  | unmerged active_batch error hpc =>
    rw [setWorker_self, hpc]
    refine ⟨?_, rfl⟩
    simp only [WorkerPc.rank, opsLeft_unmerged, List.length_nil]
    omega
  | overdue now swept request rest hpc | singleLate request hpc =>
    rw [setWorker_self, hpc]
    refine ⟨?_, rfl⟩
    simp only [WorkerPc.rank, opsLeft_expire, List.length_cons]
    omega
  | formed formation metrics_ hpc | processing batch hpc | dropped request rest active_batch hpc
  | late request rest active_batch hpc | active request rest active_batch hpc | singleDropped request hpc
  | selected job hpc =>
    rw [setWorker_self, hpc]
    refine ⟨?_, rfl⟩
    simp only [WorkerPc.rank, List.length_append, List.length_cons, List.length_nil]
    omega

/-- A worker of a draining model comes closer to the end with each step, or takes a request out of the queue. -/
theorem State.runWorker_rank (hdraining : s.draining_ = true) (hfresh : scansFresh s (.worker worker) = true)
    (hstep : s.runWorker worker = some s') :
    (s'.workers worker).rank + 30 * s'.queue_.length < (s.workers worker).rank + 30 * s.queue_.length := by
  cases hlooks : (s.workers worker).looks with
  | false =>
    obtain ⟨hrank, hqueue⟩ := (State.runWorker_works hstep).rank hlooks
    rw [hqueue]
    omega
  | true =>
    cases hpc : s.workers worker with
    | popping =>
      simp only [runWorker, hpc, Option.some.injEq] at hstep
      subst hstep
      cases hqueue : s.queue_ with
      | nil =>
        simp only [popNextPending, hqueue, hdraining, if_true]
        rw [setWorker_self]
        simp only [WorkerPc.rank, setWorker, hqueue]
        omega
      | cons first queue_ =>
        simp only [popNextPending, hqueue]
        rw [setWorker_self]
        simp only [WorkerPc.rank, setWorker, List.length_cons]
        omega
    | locking formation delay_elapsed =>
      simp only [runWorker, hpc, hdraining, if_true, Option.some.injEq] at hstep
      subst hstep
      rw [setWorker_self]
      simp only [WorkerPc.rank, setWorker]
      omega
    | rescanning formation delay_elapsed iterator =>
      simp only [scansFresh, hpc, decide_eq_true_eq] at hfresh
      simp only [runWorker, hpc, hfresh, if_true, Option.some.injEq] at hstep
      subst hstep
      exact s.runScan_rank worker formation delay_elapsed iterator.position
    | _ =>
      rw [hpc] at hlooks
      cases hlooks

end Steps

end neuriplo.batch
