import NeuriploRuntime.Batch.Settling

open neuriplo.scheduler neuriplo.tensor transition

namespace neuriplo.batch

inductive Place (setup : Setup) where
  | queue
  | batch (worker : Fin setup.config.instances)
  | fulfilled
  | abandoned

/-- Where a request is: in the queue, in a worker's batch without an answer,
answered, or in nobody's hands without an answer. -/
def State.IsAt {setup : Setup} (s : State setup) (request : Nat) : Place setup → Prop
  | .queue => request ∈ s.queue_
  | .batch worker => request ∈ (s.workers worker).owned ∧ s.Open request
  | .fulfilled => ¬ s.Open request
  | .abandoned => s.Open request ∧ request ∉ s.queue_ ∧ ∀ worker, request ∉ (s.workers worker).owned

/-- The request is inside an executor. -/
def State.Executes {setup : Setup} (s : State setup) (request : Nat) : Prop :=
  ∃ worker job executor_index execution_started,
    s.workers worker = .executing job executor_index execution_started ∧ request ∈ job.members

/-- A worker is about to hand the request to an executor. -/
def State.HandsOut {setup : Setup} (s : State setup) (request : Nat) : Prop :=
  ∃ worker job executor_index, s.workers worker = .starting job executor_index ∧ request ∈ job.members

section Delivery

variable {setup : Setup} {s : State setup}

/-- A request is in one place. -/
theorem State.Sound.place_unique (hsound : s.Sound) (request : Nat) : ∃! place, s.IsAt request place := by
  by_cases hopen : s.Open request
  · by_cases hqueued : request ∈ s.queue_
    · refine ⟨.queue, hqueued, ?_⟩
      intro place hplace
      cases place with
      | queue => rfl
      | batch worker => exact absurd hqueued (hsound.not_queued hplace.1)
      | fulfilled => exact absurd hopen hplace
      | abandoned => exact absurd hqueued hplace.2.1
    · by_cases howned : ∃ worker, request ∈ (s.workers worker).owned
      · obtain ⟨worker, hmem⟩ := howned
        refine ⟨.batch worker, ⟨hmem, hopen⟩, ?_⟩
        intro place hplace
        cases place with
        | queue => exact absurd hplace hqueued
        | batch other => rw [hsound.owner_unique hmem hplace.1]
        | fulfilled => exact absurd hopen hplace
        | abandoned => exact absurd hmem (hplace.2.2 worker)
      · refine ⟨.abandoned, ⟨hopen, hqueued, fun worker hmem => howned ⟨worker, hmem⟩⟩, ?_⟩
        intro place hplace
        cases place with
        | queue => exact absurd hplace hqueued
        | batch worker => exact absurd ⟨worker, hplace.1⟩ howned
        | fulfilled => exact absurd hopen hplace
        | abandoned => rfl
  · refine ⟨.fulfilled, hopen, ?_⟩
    intro place hplace
    cases place with
    | queue => exact absurd (hsound.queue request hplace) hopen
    | batch worker => exact absurd hplace.2 hopen
    | fulfilled => rfl
    | abandoned => exact absurd hplace.1 hopen

/-- What is inside an executor may not be handed out again. -/
theorem State.Sound.handouts_of_executes (hsound : s.Sound) {request : Nat} (hexecutes : s.Executes request) :
    s.requests request ≠ none ∧ s.handouts request = 0 := by
  obtain ⟨worker, job, executor_index, execution_started, hpc, hmember⟩ := hexecutes
  have hmem : request ∈ (s.workers worker).owned := by
    rw [hpc]
    exact hmember
  refine ⟨hsound.accepted_of_owned hmem, ?_⟩
  unfold State.handouts
  rw [List.count_eq_zero_of_not_mem (hsound.not_queued hmem), Nat.zero_add]
  apply tally_eq_zero.mpr
  intro other
  unfold WorkerPc.unexecuted
  by_cases hother : other = worker
  · rw [hother, hpc]
    rfl
  · split
    · apply List.count_eq_zero_of_not_mem
      intro hmem'
      exact hother (hsound.owner_unique hmem hmem')
    · rfl

theorem State.not_handsOut {request : Nat} (hzero : s.handouts request = 0) : ¬ s.HandsOut request := by
  rintro ⟨worker, job, executor_index, hpc, hmember⟩
  have hle := le_tally (fun other => (s.workers other).unexecuted.count request) worker
  have hpos : 0 < (s.workers worker).unexecuted.count request := by
    apply List.count_pos_iff.mpr
    rw [hpc]
    exact hmember
  unfold State.handouts at hzero
  omega

/-- When no worker goes on with an iterator that the queue has left behind, and none
cuts a slice backward, every accepted request is in one place at any time, its
promise is set once, it is handed to an executor once, it is abandoned only when it
is late, nothing is left in the queue when all workers have exited, and no exception
ends the process with requests unanswered. -/
theorem requests_delivered_once {start : Int} {history : List (State setup)}
    (hrun : (steady setup start).Run history s) (request : Nat) (haccepted : s.requests request ≠ none) :
    (∃! place, s.IsAt request place) ∧
    (s.queue_.count request ≤ 1 ∧ ∀ worker, (s.workers worker).owned.count request ≤ 1) ∧
    ((∀ moment ∈ history, ∀ result, (moment.pending request).promise = some result →
        (s.pending request).promise = some result) ∧
      (∀ worker next result ops, (s.workers worker).Performs next (.setValue request result :: ops) → s.Open request) ∧
      ∀ thread pending, s.drains thread ≠ .answering (request :: pending)) ∧
    (∀ moment ∈ history, moment.Executes request → ¬ s.HandsOut request) ∧
    (s.IsAt request .abandoned →
      s.Late request ∧ ∀ result, s.submits request = .returned result → result = makeTimeoutResult) ∧
    ((∀ worker, s.workers worker = .exited) → s.queue_ = []) ∧
    ∀ worker active_batch, s.workers worker ≠ .terminated active_batch := by
  have hscanning := scanning_run_of_steady hrun
  have hsound := sound_reachable hscanning.reachable
  refine ⟨hsound.place_unique request, ⟨?_, ?_⟩, ⟨?_, ?_, ?_⟩, ?_, ?_, ?_, ?_⟩
  · have hplaces := hsound.places request
    unfold State.places at hplaces
    omega
  · intro worker
    have hle := hsound.owned_count worker request
    omega
  · intro moment hmem result
    exact scanning_stable (fun s s' _ hsteps => hsteps.promise request result) hscanning moment hmem
  · intro worker next result ops hperforms
    exact (hsound.workers worker).open_of_setValue hperforms rfl
  · intro thread pending hanswering
    have hdrain := hsound.drains thread
    rw [hanswering] at hdrain
    cases hdrain
  · intro moment hmem hexecutes
    have hkept (s s' : State setup) (hsteps : s.Steps s')
        (hholds : s.requests request ≠ none ∧ s.handouts request = 0) :
        s'.requests request ≠ none ∧ s'.handouts request = 0 := by
      have hle := hsteps.handouts request hholds.1
      exact ⟨hsteps.accepted request hholds.1, by omega⟩
    have hmoment := sound_reachable (hscanning.reachable_of_mem hmem)
    have hholds := scanning_stable (fun s s' _ => hkept s s') hscanning moment hmem
      (hmoment.handouts_of_executes hexecutes)
    exact State.not_handsOut hholds.2
  · rintro ⟨hopen, hqueued, howned⟩
    have hzero : s.places request = 0 := by
      unfold State.places
      rw [List.count_eq_zero_of_not_mem hqueued, Nat.zero_add]
      exact tally_eq_zero.mpr fun worker => List.count_eq_zero_of_not_mem (howned worker)
    have hlate := (hsound.lost request haccepted hzero).resolve_left (not_not.mpr hopen)
    refine ⟨hlate, ?_⟩
    intro result hreturned
    have hcall := hsound.submits request
    rw [hreturned] at hcall
    obtain hnone | hpromise | ⟨hresult, -⟩ := hcall
    · exact absurd hnone haccepted
    · unfold State.Open at hopen
      rw [hopen] at hpromise
      cases hpromise
    · exact hresult
  · intro hexited
    exact (hsound.exited ⟨0, setup.hinstances⟩ (hexited _)).2
  · intro worker active_batch hterminated
    have hsettles := settles_reachable hrun.reachable worker
    rw [hterminated] at hsettles
    exact hsettles

end Delivery

/-- One worker, one executor, no batching. -/
def plainSetup : Setup where
  config := {}
  executors := 1
  hexecutors := Nat.one_pos
  hinstances := Nat.one_pos

def plainWorker : Fin plainSetup.config.instances := ⟨0, plainSetup.hinstances⟩

/-- A request is queued, executed and answered. -/
def plainRun : List (Event plainSetup) :=
  [.submit 0 {}, .submitter 0, .submitter 0, .submitter 0, .notifySubmitted 0 none] ++
    List.replicate 12 (.worker plainWorker) ++ [.infer plainWorker (.ok {})] ++
    List.replicate 7 (.worker plainWorker) ++ [.submitter 0]

/-- One request, queued, executed and answered. -/
theorem requests_delivered_once_plainRun :
    ∃ history s,
      System.trace (System.guarded steadySteps State.step) [] { now := 0 } plainRun = some (history, s) ∧
      s.submits 0 = .returned (completedResult 0 0 0 1 {}) ∧ ∃! place, s.IsAt 0 place := by
  have hreplay : ∃ history s pending,
      System.trace (System.guarded steadySteps State.step) [] { now := 0 } plainRun = some (history, s) ∧
        s.submits 0 = .returned (completedResult 0 0 0 1 {}) ∧ s.requests 0 = some pending :=
    ⟨_, _, _, rfl, rfl, rfl⟩
  obtain ⟨history, s, pending, htrace, hreturned, hpending⟩ := hreplay
  have hrun : (steady plainSetup 0).Run history s := (System.run_of_trace htrace).of_guarded
  have haccepted : s.requests 0 ≠ none := by
    rw [hpending]
    exact nofun
  exact ⟨history, s, htrace, hreturned, (requests_delivered_once hrun 0 haccepted).1⟩

/-- Two workers that form batches of up to four and do not wait for more. -/
def batchingSetup : Setup where
  config := { instances := 2, dynamic_batching := { enabled := true, max_batch_size := 4 } }
  executors := 1
  hexecutors := Nat.one_pos
  hinstances := Nat.two_pos

def firstWorker : Fin batchingSetup.config.instances := ⟨0, by decide⟩

def secondWorker : Fin batchingSetup.config.instances := ⟨1, by decide⟩

def enqueueing (request : Nat) : List (Event batchingSetup) :=
  [.submit request {}, .submitter request, .submitter request, .submitter request, .notifySubmitted request none]

/-- The first worker takes the second request out of the queue as expired. While
it answers that one without the lock, the second worker pops the third, which
the first worker then finds where its iterator points. -/
def overtakenScan : List (Event batchingSetup) :=
  enqueueing 0 ++ [.worker firstWorker] ++ enqueueing 1 ++ [.tick 30000000000] ++ enqueueing 2 ++
    List.replicate 3 (.worker firstWorker) ++ [.worker secondWorker, .notifyErased firstWorker none] ++
    List.replicate 6 (.worker firstWorker) ++
    [.undefined firstWorker {
      formation_started := 30000000000
      formation_deadline := 30000000000
      batch := [0, 2]
      merged_batch_dimension := 2 } []] ++
    List.replicate 20 (.worker firstWorker) ++ List.replicate 14 (.worker secondWorker)

/-- Both workers have the same request inside an executor. -/
theorem overtaken_scan_executes_twice :
    ∃ s, (system batchingSetup 0).Reachable s ∧ s.requests 2 ≠ none ∧
      s.IsAt 2 (.batch firstWorker) ∧ s.IsAt 2 (.batch secondWorker) ∧
      (∃ executor_index execution_started,
        s.workers firstWorker = .executing (.single 2) executor_index execution_started) ∧
      ∃ executor_index execution_started,
        s.workers secondWorker = .executing (.single 2) executor_index execution_started := by
  have hreplay : ∃ s pending, System.replay State.step { now := 0 } overtakenScan = some s ∧
      s.requests 2 = some pending ∧ pending.promise = none ∧
      (∃ executor_index execution_started,
        s.workers firstWorker = .executing (.single 2) executor_index execution_started) ∧
      ∃ executor_index execution_started,
        s.workers secondWorker = .executing (.single 2) executor_index execution_started :=
    ⟨_, _, rfl, rfl, rfl, ⟨_, _, rfl⟩, ⟨_, _, rfl⟩⟩
  obtain ⟨s, pending, hreplay, hpending, hopen, hfirst, hsecond⟩ := hreplay
  have hat {worker : Fin batchingSetup.config.instances}
      (hpc : ∃ executor_index execution_started,
        s.workers worker = .executing (.single 2) executor_index execution_started) : s.IsAt 2 (.batch worker) := by
    obtain ⟨executor_index, execution_started, hpc⟩ := hpc
    refine ⟨?_, ?_⟩
    · rw [hpc]
      exact List.mem_cons_self
    · unfold State.Open
      rw [State.pending_of_some hpending, hopen]
  refine ⟨s, System.reachable_of_replay hreplay, ?_, hat hfirst, hat hsecond, hfirst, hsecond⟩
  rw [hpending]
  exact nofun

end neuriplo.batch
