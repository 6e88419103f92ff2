import NeuriploRuntime.Batch.Limit
import NeuriploRuntime.Transition.Stretch

open neuriplo.scheduler neuriplo.tensor transition

namespace neuriplo.batch

variable {setup : Setup}

/-- At most how many steps a straight-line step stands for. -/
def WorkerOp.steps : WorkerOp → Nat
  | .fulfillResult _ _ => 2
  | .settle _ _ _ _ _ => 5
  | .checkCancelled _ _ _ _ => 6
  | _ => 1

def opsLeft (ops : List WorkerOp) : Nat := (ops.map WorkerOp.steps).sum

/-- At most how many steps a worker inside the loop of `formBatch`, the delay
elapsed, makes before it returns or takes a request out of the queue. -/
def WorkerPc.stepsLeft : WorkerPc → Nat
  | .locking _ delay_elapsed => if delay_elapsed then 1 else 4
  | .deciding _ => 2
  | .formWaiting _ _ => 3
  | .rescanning _ _ _ => 3
  | .joined _ => 3
  | .joinNotifying _ => 4
  | .expiring _ _ _ ops => 4 + opsLeft ops
  | _ => 0

/-- The local variables of a worker inside the loop of `formBatch`. -/
def WorkerPc.looping : WorkerPc → Option Formation
  | .formed _ => none
  | pc => pc.formation

/-- The worker is inside the loop of `formBatch` and its delay has elapsed. -/
def State.DelayElapsed (worker : Fin setup.config.instances) (s : State setup) : Prop :=
  ∃ formation, (s.workers worker).looping = some formation ∧ formation.formation_deadline ≤ s.now

/-- A worker's own step, the end of its wait included. -/
def Event.isOf (worker : Fin setup.config.instances) : Event setup → Bool
  | .worker acting => acting = worker
  | .notifyErased acting _ => acting = worker
  | .wake acting => acting = worker
  | _ => false

/-- How many requests a worker's own step takes out of the queue. -/
def takenOut (worker : Fin setup.config.instances) (step : Taken (State setup) (Event setup)) : Nat :=
  if step.event.isOf worker then step.source.queue_.length - step.target.queue_.length else 0

/-- A request that may be taken out of the queue while a batch is formed. -/
def State.Removable (s : State setup) (formation : Formation) (request : Nat) : Prop :=
  (s.pending request).cancelled = true ∨ s.Late request ∨
    areBatchCompatible (s.pending (formation.batch.headD request)).request (s.pending request).request = true

section Steps

variable {s s' : State setup} {worker : Fin setup.config.instances}

/-- A scan makes the queue no longer, and shorter by what it takes out. -/
theorem State.scan_shrinks (s : State setup) (formation : Formation) (passed queue_ : List Nat) (made_progress : Bool) :
    (s.scan formation passed made_progress queue_).queue_.length ≤ passed.length + queue_.length ∧
      (((s.scan formation passed made_progress queue_).scanned ≠ .ended ∨
          ((s.scan formation passed made_progress queue_).made_progress = true ∧ made_progress = false)) →
        (s.scan formation passed made_progress queue_).queue_.length < passed.length + queue_.length) := by
  induction queue_ generalizing passed made_progress with
  | nil =>
    refine ⟨le_refl _, ?_⟩
    rintro (hended | ⟨hprogress, hnone⟩)
    · exact absurd rfl hended
    · rw [scan, hnone] at hprogress
      cases hprogress
  | cons next queue_ ih =>
    rw [scan]
    split
    · obtain ⟨hle, -⟩ := ih passed true
      rw [List.length_cons]
      exact ⟨by omega, fun _ => by omega⟩
    · split
      · simp only [List.length_append, List.length_cons]
        exact ⟨by omega, fun _ => by omega⟩
      · split
        · simpa [Nat.add_assoc, Nat.add_comm 1] using ih (passed ++ [next]) made_progress
        · split
          · simpa [Nat.add_assoc, Nat.add_comm 1] using ih (passed ++ [next]) made_progress
          · simp only [List.length_append, List.length_cons]
            exact ⟨by omega, fun _ => by omega⟩

/-- Progress is not forgotten. -/
theorem State.scan_progress (s : State setup) (formation : Formation) (passed queue_ : List Nat) :
    (s.scan formation passed true queue_).made_progress = true := by
  induction queue_ generalizing passed with
  | nil => rfl
  | cons next queue_ ih =>
    rw [scan]
    split
    · exact ih passed
    · split
      · rfl
      · split
        · exact ih _
        · split
          · exact ih _
          · rfl

/-- What a scan takes out was removable. -/
theorem State.scan_removes (s : State setup) (formation : Formation) (passed queue_ : List Nat) (made_progress : Bool)
    {request : Nat} (hmem : request ∈ passed ++ queue_)
    (hgone : request ∉ (s.scan formation passed made_progress queue_).queue_) : s.Removable formation request := by
  induction queue_ generalizing passed made_progress with
  | nil =>
    rw [scan] at hgone
    exact absurd (by simpa using hmem) hgone
  | cons next queue_ ih =>
    -- The element at the iterator, or one that stays in the queue for now.
    have hsplit : request = next ∨ request ∈ passed ++ queue_ := by
      simp only [List.mem_append, List.mem_cons] at hmem ⊢
      tauto
    have hpass (hgone : request ∉ (s.scan formation (passed ++ [next]) made_progress queue_).queue_) :
        s.Removable formation request :=
      ih (passed ++ [next]) made_progress (by simpa using hmem) hgone
    rw [scan] at hgone
    split at hgone
    · next hcancelled =>
      obtain rfl | hrest := hsplit
      · exact .inl hcancelled
      · exact ih passed true hrest hgone
    · split at hgone
      · next hlate =>
        obtain rfl | hrest := hsplit
        · exact .inr (.inl hlate)
        · exact absurd hrest hgone
      · split at hgone
        · exact hpass hgone
        · next hcompatible =>
          split at hgone
          · exact hpass hgone
          · obtain rfl | hrest := hsplit
            · exact .inr (.inr (by simpa using hcompatible))
            · exact absurd hrest hgone

/-- A straight-line step takes at least one off those left, and queues nothing. -/
theorem State.perform_opsLeft {next : List WorkerOp → WorkerPc} {op : WorkerOp} {ops : List WorkerOp}
    (hperform : s.perform worker next ops op = some s') :
    s'.queue_ = s.queue_ ∧ (s'.workers worker = .terminated [] ∨
      ∃ left, s'.workers worker = next left ∧ opsLeft left + 1 ≤ opsLeft (op :: ops)) := by
  have hleft {t : State setup} {ops' : List WorkerOp} (hqueue : t.queue_ = s.queue_)
      (hle : opsLeft ops' + 1 ≤ opsLeft (op :: ops)) : (t.setWorker worker (next ops')).queue_ = s.queue_ ∧
        ((t.setWorker worker (next ops')).workers worker = .terminated [] ∨
          ∃ left, (t.setWorker worker (next ops')).workers worker = next left ∧
              opsLeft left + 1 ≤ opsLeft (op :: ops)) :=
    ⟨hqueue, .inr ⟨ops', t.setWorker_self worker _, hle⟩⟩
  cases op with
  | notifyOne => cases hperform
  | setToken | countTimedOut | release | recordBatchExecution | recordLatencies =>
    cases hperform
    refine hleft ?_ ?_
    · rfl
    · simp [opsLeft, WorkerOp.steps, Nat.add_comm]
  | fulfillResult request result | checkCancelled request execution_started execution_finished response =>
    cases hperform
    apply hleft rfl
    split <;> simp only [opsLeft, List.map_cons, List.sum_cons, WorkerOp.steps] <;> omega
  | settle request execution_started execution_finished batch_size response =>
    cases hperform
    apply hleft rfl
    split <;> simp only [opsLeft, expire, List.cons_append, List.nil_append, List.map_cons, List.sum_cons,
      WorkerOp.steps] <;> omega
  | setValue request result =>
    simp only [perform] at hperform
    split at hperform <;> cases hperform
    · refine hleft ?_ ?_
      · rfl
      · simp [opsLeft, WorkerOp.steps, Nat.add_comm]
    · exact ⟨rfl, .inl (s.setWorker_self worker _)⟩

/-- A scan pays for what it leads to with what it takes out of the queue, or
ends the loop. -/
theorem State.runScan_pays {formation : Formation} {delay_elapsed : Bool} {position : Nat} {made_progress : Bool}
    (hlooping : ((s.runScan worker formation delay_elapsed position made_progress).workers worker).looping ≠ none) :
    1 + ((s.runScan worker formation delay_elapsed position made_progress).workers worker).stepsLeft ≤
      (if made_progress then 3 else if delay_elapsed then 1 else 4) +
        9 * (s.queue_.length - (s.runScan worker formation delay_elapsed position made_progress).queue_.length) := by
  have hshrinks := s.scan_shrinks formation (s.queue_.take position) (s.queue_.drop position) made_progress
  have hlength : (s.queue_.take position).length + (s.queue_.drop position).length = s.queue_.length := by
    rw [← List.length_append, List.take_append_drop]
  rw [hlength] at hshrinks
  obtain ⟨-, hless⟩ := hshrinks
  have hkept : made_progress = true → (s.scan formation (s.queue_.take position) made_progress
      (s.queue_.drop position)).made_progress = true := by
    rintro rfl
    exact s.scan_progress formation _ _
  have hqueue : (s.runScan worker formation delay_elapsed position made_progress).queue_ =
      (s.scan formation (s.queue_.take position) made_progress (s.queue_.drop position)).queue_ := rfl
  rw [hqueue]
  rw [runScan, setWorker_self] at hlooping ⊢
  generalize s.scan formation (s.queue_.take position) made_progress (s.queue_.drop position) = result
    at hlooping hless hkept ⊢
  cases hscanned : result.scanned with
  | ended =>
    simp only [hscanned] at hlooping hless ⊢
    split at hlooping
    · next hprogress =>
      rw [if_pos hprogress]
      cases made_progress with
      | true =>
        simp only [WorkerPc.stepsLeft, if_true]
        omega
      | false =>
        have hfewer := hless (.inr ⟨hprogress, rfl⟩)
        simp only [WorkerPc.stepsLeft]
        split <;> omega
    · next hprogress =>
      split at hlooping
      · exact absurd rfl hlooping
      · next helapsed =>
        rw [if_neg hprogress, if_neg helapsed]
        rw [if_neg fun hmade => hprogress (hkept hmade), if_neg helapsed]
        simp only [WorkerPc.stepsLeft]
        omega
  | expired next position =>
    have hfewer := hless (.inl (by rw [hscanned]; rintro ⟨⟩))
    simp only [WorkerPc.stepsLeft, opsLeft, expire, List.map_cons, List.map_nil, List.sum_cons, List.sum_nil,
      WorkerOp.steps]
    split <;> [skip; split] <;> omega
  | joined next =>
    have hfewer := hless (.inl (by rw [hscanned]; rintro ⟨⟩))
    simp only [WorkerPc.stepsLeft]
    split <;> [skip; split] <;> omega

/-- Only a wake-up touches a worker inside the loop but its own steps. -/
theorem stepsLeft_wakeWorker (pc : WorkerPc) : (State.wakeWorker pc).stepsLeft ≤ pc.stepsLeft := by
  cases pc <;> simp [State.wakeWorker, WorkerPc.stepsLeft]

/-- A worker's own step inside the loop is paid for. -/
theorem State.runWorker_pays (helapsed : s.DelayElapsed worker) (hlooping : (s'.workers worker).looping ≠ none)
    (hstep : s.runWorker worker = some s') :
    1 + (s'.workers worker).stepsLeft ≤ (s.workers worker).stepsLeft + 9 * (s.queue_.length - s'.queue_.length) := by
  obtain ⟨formation, hwas, hdue⟩ := helapsed
  cases hpc : s.workers worker with
  | deciding =>
    rw [hpc] at hwas
    cases hwas
    simp only [runWorker, hpc, Option.some.injEq] at hstep
    subst hstep
    rw [setWorker_self] at hlooping ⊢
    simp only [decide] at hlooping ⊢
    split at hlooping
    · exact absurd rfl hlooping
    · split at hlooping
      · exact absurd rfl hlooping
      · next hundecided hroom =>
        rw [if_neg hundecided, if_neg hroom]
        simp only [WorkerPc.stepsLeft, hdue, decide_true, if_true]
        omega
  | locking formation delay_elapsed =>
    simp only [runWorker, hpc] at hstep
    split at hstep <;> cases hstep
    · rw [setWorker_self] at hlooping
      exact absurd rfl hlooping
    · exact runScan_pays hlooping
  | rescanning formation delay_elapsed iterator =>
    simp only [runWorker, hpc] at hstep
    split at hstep <;> cases hstep
    · exact runScan_pays hlooping
    · rw [setWorker_self] at hlooping
      exact absurd rfl hlooping
  | expiring formation delay_elapsed iterator ops =>
    cases ops with
    | nil =>
      simp only [runWorker, hpc, Option.some.injEq] at hstep
      subst hstep
      rw [setWorker_self]
      simp only [WorkerPc.stepsLeft]
      omega
    | cons op ops =>
      simp only [runWorker, hpc] at hstep
      obtain ⟨hqueue, hterminated | ⟨left, hleft, hless⟩⟩ := perform_opsLeft hstep
      · rw [hterminated] at hlooping
        exact absurd rfl hlooping
      · rw [hleft]
        simp only [WorkerPc.stepsLeft]
        omega
  | joined formation =>
    simp only [runWorker, hpc, Option.some.injEq] at hstep
    subst hstep
    rw [setWorker_self] at hlooping ⊢
    split at hlooping
    · exact absurd rfl hlooping
    · next hundecided =>
      rw [if_neg hundecided]
      simp only [WorkerPc.stepsLeft]
      omega
  | formWaiting | joinNotifying =>
    simp only [runWorker, hpc] at hstep
    cases hstep
  | _ =>
    rw [hpc] at hwas
    cases hwas

/-- Every step of the loop is paid for by the steps left. -/
theorem State.Sound.step_pays (hsound : s.Sound) {event : Event setup} (hstep : s.step event = some s')
    (helapsed : s.DelayElapsed worker) (helapsed' : s'.DelayElapsed worker) :
    (if event.isOf worker then 1 else 0) + (s'.workers worker).stepsLeft ≤
      (s.workers worker).stepsLeft + 9 * takenOut worker ⟨s, event, s'⟩ := by
  have hlooping : (s'.workers worker).looping ≠ none := by
    obtain ⟨formation, hlooping, -⟩ := helapsed'
    rw [hlooping]
    exact nofun
  by_cases hactor : event.actor = some worker
  · cases event with
    | worker acting =>
      obtain rfl : acting = worker := Option.some.inj hactor
      have hpays := State.runWorker_pays helapsed hlooping hstep
      simpa [Event.isOf, takenOut] using hpays
    | notifyErased acting woken =>
      obtain rfl : acting = worker := Option.some.inj hactor
      obtain ⟨formation, delay_elapsed, iterator, ops, hpc, hpc'⟩ | ⟨formation, hpc, hpc'⟩ :=
        State.notifyErased_self hstep
      · rw [hpc, hpc']
        simp only [Event.isOf, decide_true, if_true, WorkerPc.stepsLeft, opsLeft, List.map_cons, List.sum_cons,
          WorkerOp.steps]
        omega
      · rw [hpc, hpc']
        simp only [Event.isOf, decide_true, if_true, WorkerPc.stepsLeft]
        omega
    | infer acting outcome =>
      obtain rfl : acting = worker := Option.some.inj hactor
      obtain ⟨formation, hinside, -⟩ := helapsed
      simp only [State.step, State.infer] at hstep
      split at hstep
      · next hpc =>
        rw [hpc] at hinside
        cases hinside
      · cases hstep
    | undefined acting formation queue_ =>
      rw [hsound.step_undefined] at hstep
      cases hstep
    | _ => cases hactor
  · by_cases hwake : event = .wake worker
    · subst hwake
      simp only [State.step] at hstep
      split at hstep <;> cases hstep
      next hwaiting =>
      obtain ⟨formation, hinside, -⟩ := helapsed
      rw [State.setWorker_self]
      generalize s.workers worker = pc at hwaiting hinside ⊢
      cases pc with
      | formWaiting =>
        simp only [Event.isOf, decide_true, if_true, State.wakeWorker, WorkerPc.stepsLeft]
        omega
      | popWaiting => cases hinside
      | _ => cases hwaiting
    · have hnot : event.isOf worker = false := by
        cases event <;> simp_all [Event.isOf, Event.actor]
      have hle : (s'.workers worker).stepsLeft ≤ (s.workers worker).stepsLeft := by
        obtain hsame | hwoken := hsound.step_others hstep hactor
        · rw [hsame]
        · rw [hwoken]
          exact stepsLeft_wakeWorker _
      rw [hnot]
      simp only [Bool.false_eq_true, if_false]
      omega

/-- There is always somebody to notify, or nobody waits. -/
theorem State.exists_notifyOne (s : State setup) : ∃ woken s', s.notifyOne woken = some s' := by
  by_cases hwaiting : ∃ other, (s.workers other).isWaiting = true
  · obtain ⟨other, hwaiting⟩ := hwaiting
    exact ⟨some other, _, if_pos hwaiting⟩
  · refine ⟨none, s, if_pos ?_⟩
    rw [List.all_eq_true]
    intro other _
    simpa using fun hother => hwaiting ⟨other, hother⟩

/-- A worker of the loop can always go on once the delay has passed. -/
theorem State.DelayElapsed.enabled (helapsed : s.DelayElapsed worker) :
    ∃ event s', event.isOf worker = true ∧ s.step event = some s' := by
  have hworker (hsome : (s.runWorker worker).isSome = true) :
      ∃ event s', event.isOf worker = true ∧ s.step event = some s' := by
    obtain ⟨s', hstep⟩ := Option.isSome_iff_exists.mp hsome
    exact ⟨.worker worker, s', by simp [Event.isOf], hstep⟩
  have hnotified (hsome : ∀ woken s', s.notifyOne woken = some s' → (s.notifyErased worker woken).isSome = true) :
      ∃ event s', event.isOf worker = true ∧ s.step event = some s' := by
    obtain ⟨woken, t, hnotify⟩ := s.exists_notifyOne
    obtain ⟨s', hstep⟩ := Option.isSome_iff_exists.mp (hsome woken t hnotify)
    exact ⟨.notifyErased worker woken, s', by simp [Event.isOf], hstep⟩
  obtain ⟨formation, hlooping, -⟩ := helapsed
  cases hpc : s.workers worker with
  | formWaiting formation wait_deadline =>
    exact ⟨.wake worker, _, by simp [Event.isOf], if_pos (by rw [hpc]; rfl)⟩
  | joinNotifying formation =>
    apply hnotified
    intro woken s' hnotify
    simp [State.notifyErased, hpc, hnotify]
  | expiring formation delay_elapsed iterator ops =>
    cases ops with
    | nil => exact hworker (by simp [State.runWorker, hpc])
    | cons op ops =>
      cases op with
      | notifyOne =>
        apply hnotified
        intro woken s' hnotify
        simp [State.notifyErased, hpc, hnotify]
      | setValue request result =>
        apply hworker
        simp only [State.runWorker, hpc, State.perform]
        split <;> rfl
      | _ => exact hworker (by simp [State.runWorker, hpc, State.perform])
  | locking | rescanning =>
    apply hworker
    simp only [State.runWorker, hpc]
    split <;> rfl
  | deciding | joined => exact hworker (by simp [State.runWorker, hpc])
  | _ =>
    rw [hpc] at hlooping
    cases hlooping

/-- A pass is short, and a wait of the loop ends with the delay. -/
structure WorkerPc.Timed (pc : WorkerPc) : Prop where
  short : pc.stepsLeft ≤ 9
  wait : ∀ formation wait_deadline, pc = .formWaiting formation wait_deadline →
    wait_deadline ≤ formation.formation_deadline

theorem WorkerPc.Timed.of_formation {pc : WorkerPc} (hformation : pc.formation = none) : pc.Timed := by
  cases pc with
  | deciding | locking | formWaiting | expiring | rescanning | joinNotifying | joined | formed => cases hformation
  | _ => exact ⟨Nat.zero_le 9, nofun⟩

/-- To wake up leaves a pass short. -/
theorem WorkerPc.Timed.wake {pc : WorkerPc} (htimed : pc.Timed) : (State.wakeWorker pc).Timed := by
  refine ⟨(stepsLeft_wakeWorker pc).trans htimed.short, ?_⟩
  intro formation wait_deadline hpc
  cases pc <;> cases hpc

/-- No wait of the loop goes beyond its delay. -/
theorem State.waitDeadline_le (s : State setup) (formation : Formation) (queue_ : List Nat) :
    s.waitDeadline formation queue_ ≤ formation.formation_deadline := by
  have hfold (wait_deadline : Int) : queue_.foldl (fun wait_deadline queued =>
      if (s.pending queued).cancelled then wait_deadline else min wait_deadline (s.pending queued).deadline)
      wait_deadline ≤ wait_deadline := by
    induction queue_ generalizing wait_deadline with
    | nil => exact le_refl _
    | cons queued queue_ ih =>
      rw [List.foldl_cons]
      refine (ih _).trans ?_
      split
      · exact le_refl _
      · exact min_le_left _ _
  exact hfold formation.formation_deadline

/-- A scan leaves a short pass. -/
theorem State.runScan_timed (s : State setup) (worker : Fin setup.config.instances) (formation : Formation)
    (delay_elapsed : Bool) (position : Nat) (made_progress : Bool) :
    ((s.runScan worker formation delay_elapsed position made_progress).workers worker).Timed := by
  rw [runScan, setWorker_self]
  split
  · split
    · exact ⟨by simp [WorkerPc.stepsLeft], by rintro _ _ ⟨⟩⟩
    · split
      · exact ⟨by simp [WorkerPc.stepsLeft], by rintro _ _ ⟨⟩⟩
      · refine ⟨by simp [WorkerPc.stepsLeft], ?_⟩
        rintro _ _ hpc
        cases hpc
        exact s.waitDeadline_le formation _
  · exact ⟨by simp [WorkerPc.stepsLeft, opsLeft, expire, WorkerOp.steps], by rintro _ _ ⟨⟩⟩
  · exact ⟨by simp [WorkerPc.stepsLeft], by rintro _ _ ⟨⟩⟩

/-- A worker's step leaves a short pass. -/
theorem State.runWorker_timed (htimed : (s.workers worker).Timed) (hstep : s.runWorker worker = some s') :
    (s'.workers worker).Timed := by
  have hset {pc' : WorkerPc} (hshort : pc'.stepsLeft ≤ 9)
      (hwait : ∀ formation wait_deadline, pc' ≠ .formWaiting formation wait_deadline) :
      ((s.setWorker worker pc').workers worker).Timed := by
    rw [setWorker_self]
    exact ⟨hshort, fun formation wait_deadline hpc => absurd hpc (hwait formation wait_deadline)⟩
  cases hpc : s.workers worker with
  | forming first =>
    simp only [runWorker, hpc, form, Option.some.injEq] at hstep
    subst hstep
    split <;> exact hset (by simp [WorkerPc.stepsLeft]) (by rintro _ _ ⟨⟩)
  | deciding formation =>
    simp only [runWorker, hpc, State.decide, Option.some.injEq] at hstep
    subst hstep
    split
    · exact hset (by simp [WorkerPc.stepsLeft]) (by rintro _ _ ⟨⟩)
    · split
      · exact hset (by simp [WorkerPc.stepsLeft]) (by rintro _ _ ⟨⟩)
      · refine hset ?_ (by rintro _ _ ⟨⟩)
        simp only [WorkerPc.stepsLeft]
        split <;> omega
  | locking formation delay_elapsed =>
    simp only [runWorker, hpc] at hstep
    split at hstep <;> cases hstep
    · exact hset (by simp [WorkerPc.stepsLeft]) (by rintro _ _ ⟨⟩)
    · exact s.runScan_timed worker formation delay_elapsed 0 false
  | rescanning formation delay_elapsed iterator =>
    simp only [runWorker, hpc] at hstep
    split at hstep <;> cases hstep
    · exact s.runScan_timed worker formation delay_elapsed iterator.position true
    · exact hset (by simp [WorkerPc.stepsLeft]) (by rintro _ _ ⟨⟩)
  | expiring formation delay_elapsed iterator ops =>
    cases ops with
    | nil =>
      simp only [runWorker, hpc, Option.some.injEq] at hstep
      subst hstep
      exact hset (by simp [WorkerPc.stepsLeft]) (by rintro _ _ ⟨⟩)
    | cons op ops =>
      simp only [runWorker, hpc] at hstep
      obtain ⟨-, hterminated | ⟨left, hleft, hless⟩⟩ := perform_opsLeft hstep
      · rw [hterminated]
        exact .of_formation rfl
      · have hshort := htimed.short
        rw [hpc, WorkerPc.stepsLeft] at hshort
        rw [hleft]
        refine ⟨?_, by rintro _ _ ⟨⟩⟩
        rw [WorkerPc.stepsLeft]
        omega
  | joined formation =>
    simp only [runWorker, hpc, Option.some.injEq] at hstep
    subst hstep
    split <;> exact hset (by simp [WorkerPc.stepsLeft]) (by rintro _ _ ⟨⟩)
  | formed formation =>
    simp only [runWorker, hpc, Option.some.injEq] at hstep
    subst hstep
    rw [setWorker_self]
    exact .of_formation rfl
  | formWaiting | joinNotifying =>
    simp only [runWorker, hpc] at hstep
    cases hstep
  | _ =>
    obtain ⟨hformation | hformation, -⟩ := (State.runWorker_works hstep).formation (by rw [hpc]; intros; rintro ⟨⟩)
      (by rw [hpc]; intros; rintro ⟨⟩) (by rw [hpc]; intros; rintro ⟨⟩) (by rw [hpc]; intros; rintro ⟨⟩)
    · exact .of_formation (hformation.trans (by rw [hpc]; rfl))
    · exact .of_formation hformation

/-- Every step leaves short passes. -/
theorem State.Sound.step_timed (hsound : s.Sound) (htimed : ∀ worker, (s.workers worker).Timed) {event : Event setup}
    (hstep : s.step event = some s') (worker : Fin setup.config.instances) : (s'.workers worker).Timed := by
  by_cases hactor : event.actor = some worker
  · cases event with
    | worker acting =>
      obtain rfl : acting = worker := Option.some.inj hactor
      exact State.runWorker_timed (htimed acting) hstep
    | notifyErased acting woken =>
      obtain rfl : acting = worker := Option.some.inj hactor
      have hshort := (htimed acting).short
      obtain ⟨formation, delay_elapsed, iterator, ops, hpc, hpc'⟩ | ⟨formation, hpc, hpc'⟩ :=
        State.notifyErased_self hstep
      · rw [hpc] at hshort
        rw [hpc']
        refine ⟨?_, nofun⟩
        simp only [WorkerPc.stepsLeft, opsLeft, List.map_cons, List.sum_cons] at hshort ⊢
        omega
      · rw [hpc']
        exact ⟨by simp [WorkerPc.stepsLeft], nofun⟩
    | infer acting outcome =>
      obtain rfl : acting = worker := Option.some.inj hactor
      simp only [State.step, State.infer] at hstep
      split at hstep <;> cases hstep
      rw [State.setWorker_self]
      exact .of_formation rfl
    | undefined acting formation queue_ =>
      rw [hsound.step_undefined] at hstep
      cases hstep
    | _ => cases hactor
  · obtain hsame | hwoken := hsound.step_others hstep hactor
    · rw [hsame]
      exact htimed worker
    · rw [hwoken]
      exact (htimed worker).wake

/-- What a scan takes off the queue was removable. -/
theorem State.runScan_takes (s : State setup) (worker : Fin setup.config.instances) (formation : Formation)
    (delay_elapsed : Bool) (position : Nat) (made_progress : Bool) {request : Nat} (hmem : request ∈ s.queue_)
    (hgone : request ∉ (s.runScan worker formation delay_elapsed position made_progress).queue_) :
    s.Removable formation request := by
  refine s.scan_removes formation (s.queue_.take position) (s.queue_.drop position) made_progress ?_ hgone
  rw [List.take_append_drop]
  exact hmem

/-- What a worker's own step takes out of the queue inside the loop. -/
theorem State.DelayElapsed.takes (helapsed : s.DelayElapsed worker) {event : Event setup}
    (hown : event.isOf worker = true) (hstep : s.step event = some s') {request : Nat} (hmem : request ∈ s.queue_)
    (hgone : request ∉ s'.queue_) :
    ∃ formation, (s.workers worker).looping = some formation ∧ s.Removable formation request := by
  obtain ⟨formation, hlooping, -⟩ := helapsed
  have hsame (hqueue : s'.queue_ = s.queue_) :
      ∃ formation, (s.workers worker).looping = some formation ∧ s.Removable formation request := by
    rw [hqueue] at hgone
    exact absurd hmem hgone
  cases event with
  | worker acting =>
    obtain rfl : acting = worker := by simpa [Event.isOf] using hown
    simp only [State.step, State.runWorker] at hstep
    cases hpc : s.workers acting with
    | locking formation delay_elapsed =>
      simp only [hpc] at hstep
      split at hstep <;> cases hstep
      · exact absurd hmem hgone
      · exact ⟨formation, rfl, s.runScan_takes acting formation delay_elapsed 0 false hmem hgone⟩
    | rescanning formation delay_elapsed iterator =>
      simp only [hpc] at hstep
      split at hstep <;> cases hstep
      · exact ⟨formation, rfl, s.runScan_takes acting formation delay_elapsed iterator.position true hmem hgone⟩
      · exact absurd hmem hgone
    | expiring formation delay_elapsed iterator ops =>
      rw [hpc] at hsame
      cases ops with
      | nil =>
        simp only [hpc, Option.some.injEq] at hstep
        subst hstep
        exact hsame rfl
      | cons op ops =>
        simp only [hpc] at hstep
        exact hsame (State.perform_opsLeft hstep).1
    | deciding | joined =>
      simp only [hpc, Option.some.injEq] at hstep
      subst hstep
      exact absurd hmem hgone
    | formWaiting | joinNotifying =>
      simp only [hpc] at hstep
      cases hstep
    | _ =>
      rw [hpc] at hlooping
      cases hlooping
  | notifyErased acting woken =>
    obtain ⟨t, pc', hnotify, -, rfl⟩ := State.notifyErased_quiet hstep
    apply hsame
    rw [State.notifyOne_eq hnotify]
    rfl
  | wake acting =>
    simp only [State.step] at hstep
    split at hstep <;> cases hstep
    exact hsame rfl
  | _ => cases hown

end Steps

/-- The runs in which no worker uses an invalid iterator and every request that
joins a batch counts exactly. -/
def limited (setup : Setup) (start : Int) : System (State setup) (Event setup) :=
  (system setup start).restrict fun s event => (scansFresh s event && countsExactly s event) = true

variable {start : Int} {s : State setup}

theorem limited_scanning (hreach : (limited setup start).Reachable s) : (scanning setup start).Reachable s := by
  refine hreach.weaken ?_
  intro s event hcondition
  exact (Bool.and_eq_true _ _ ▸ hcondition).1

/-- In every run that counts exactly the running sums are right. -/
theorem counts_reachable (hreach : (limited setup start).Reachable s) (worker : Fin setup.config.instances) :
    (s.workers worker).Counts s := by
  revert worker
  refine @System.Reachable.invariant _ _ (limited setup start)
    (fun s => ∀ worker, (s.workers worker).Counts s) ?_ ?_ s hreach
  · rintro s rfl worker
    exact ⟨nofun, nofun⟩
  · rintro s event s' hreach hcounts ⟨hstep, hcondition⟩
    rw [Bool.and_eq_true] at hcondition
    exact (sound_reachable (limited_scanning hreach)).step_limit hcounts hcondition.1 hcondition.2 hstep

/-- In every run with valid iterators the passes are short. -/
theorem timed_reachable (hreach : (scanning setup start).Reachable s) (worker : Fin setup.config.instances) :
    (s.workers worker).Timed := by
  revert worker
  refine @System.Reachable.invariant _ _ (scanning setup start)
    (fun s => ∀ worker, (s.workers worker).Timed) ?_ ?_ s hreach
  · rintro s rfl worker
    exact .of_formation rfl
  · rintro s event s' hreach htimed ⟨hstep, -⟩
    exact (sound_reachable hreach).step_timed htimed hstep

/-- What a worker does once its delay has elapsed: it can go on at any moment,
waits for nothing, and makes at most nine steps for each request that it takes
out of the queue, and nine to return. Only a request that is cancelled or late or
fits the batch is taken out. -/
structure State.Returns (start : Int) (s : State setup) (worker : Fin setup.config.instances) : Prop where
  enabled : ∃ event s', event.isOf worker = true ∧ s.step event = some s'
  awake : ∀ formation wait_deadline, s.workers worker = .formWaiting formation wait_deadline → wait_deadline ≤ s.now
  steps : ∀ steps t, (limited setup start).Stretch (State.DelayElapsed worker) s steps t →
    steps.countP (·.event.isOf worker) ≤ 9 * ((steps.map (takenOut worker)).sum + 1) ∧
      ∀ step ∈ steps, step.event.isOf worker = true → ∀ request ∈ step.source.queue_, request ∉ step.target.queue_ →
        ∃ formation, (step.source.workers worker).looping = some formation ∧ step.source.Removable formation request

theorem sum_map_countP {α : Type*} (items : List α) (counted : α → Bool) :
    (items.map fun item => if counted item then 1 else 0).sum = items.countP counted := by
  induction items with
  | nil => rfl
  | cons item items ih =>
    rw [List.map_cons, List.sum_cons, ih, List.countP_cons, Nat.add_comm]

/-- In every run without an invalid iterator whose joining requests count exactly,
a batch of several requests has no negative dimension and at most
`max_batch_size` rows, and `formBatch` returns after its delay. -/
theorem batches_within_limit (hreach : (limited setup start).Reachable s) :
    (∀ worker batch, s.workers worker = .processing batch → 1 < batch.length → s.Within batch) ∧
      ∀ worker, s.DelayElapsed worker → s.Returns start worker := by
  refine ⟨?_, ?_⟩
  · intro worker batch hpc
    exact (counts_reachable hreach worker).formed batch hpc
  · intro worker helapsed
    have hscanning := limited_scanning hreach
    refine ⟨helapsed.enabled, ?_, ?_⟩
    · intro formation wait_deadline hpc
      have hwait := (timed_reachable hscanning worker).wait formation wait_deadline hpc
      obtain ⟨other, hlooping, hdue⟩ := helapsed
      rw [hpc] at hlooping
      cases hlooping
      exact hwait.trans hdue
    · intro steps t hstretch
      refine ⟨?_, ?_⟩
      · have hpays := System.Stretch.pays (fun s => (s.workers worker).stepsLeft)
          (fun step => if step.event.isOf worker then 1 else 0) (fun step => 9 * takenOut worker step)
          (fun s event s' hreach helapsed helapsed' hstep =>
            (sound_reachable (limited_scanning hreach)).step_pays hstep.1 helapsed helapsed') hreach hstretch
        have hshort := (timed_reachable hscanning worker).short
        rw [sum_map_countP, List.sum_map_mul_left] at hpays
        omega
      · exact hstretch.forall_mem (fun s event s' _ helapsed _ hstep hown request hmem hgone =>
          helapsed.takes hown hstep.1 hmem hgone) hreach

/-- A request of one input with a leading dimension. -/
def rowsRequest (dimension : Int) : ExecutionRequest where
  inputs := [{ name := "x", datatype := "INT8", shape := [dimension], bytes := List.replicate dimension.toNat 0 }]

/-- Two requests are queued and the first worker forms a batch. -/
def formingRun (first second : Int) : List (Event batchingSetup) :=
  [.submit 0 (rowsRequest first), .submitter 0, .submitter 0, .submitter 0, .notifySubmitted 0 none,
    .submit 1 (rowsRequest second), .submitter 1, .submitter 1, .submitter 1, .notifySubmitted 1 none] ++
    List.replicate 4 (.worker firstWorker) ++ [.notifyErased firstWorker none] ++
    List.replicate 2 (.worker firstWorker)

/-- A batch of two requests. -/
theorem batches_within_limit_pair :
    ∃ s, (limited batchingSetup 0).Reachable s ∧ s.workers firstWorker = .processing [0, 1] ∧ s.Within [0, 1] := by
  have hreplay : ∃ history s, System.trace
      (System.guarded (fun s event => scansFresh s event && countsExactly s event) State.step) []
        ({ now := 0 } : State batchingSetup) (formingRun 1 2) = some (history, s) ∧
      s.workers firstWorker = .processing [0, 1] :=
    ⟨_, _, rfl, rfl⟩
  obtain ⟨history, s, htrace, hpc⟩ := hreplay
  have hreach : (limited batchingSetup 0).Reachable s := (System.run_of_trace htrace).of_guarded.reachable
  exact ⟨s, hreach, hpc, (batches_within_limit hreach).1 firstWorker [0, 1] hpc (by simp)⟩

/-- Three rows and minus one make a batch of two: 3 + (2^64 - 1) wraps to 2. -/
theorem negative_rows_join :
    ∃ s, (system batchingSetup 0).Reachable s ∧ s.workers firstWorker = .processing [0, 1] ∧
      s.rows 0 = 3 ∧ s.rows 1 = -1 ∧ ¬ s.Within [0, 1] := by
  have hreplay : ∃ s, System.replay State.step ({ now := 0 } : State batchingSetup) (formingRun 3 (-1)) = some s ∧
      s.workers firstWorker = .processing [0, 1] ∧ s.rows 0 = 3 ∧ s.rows 1 = -1 :=
    ⟨_, rfl, rfl, rfl, rfl⟩
  obtain ⟨s, hreplay, hpc, hfirst, hsecond⟩ := hreplay
  refine ⟨s, System.reachable_of_replay hreplay, hpc, hfirst, hsecond, ?_⟩
  intro hwithin
  have hnonneg := hwithin.1 1 (by simp)
  omega

end neuriplo.batch
