import NeuriploRuntime.Batch.IteratorUse

open neuriplo.scheduler neuriplo.tensor transition

namespace neuriplo.batch

variable {setup : Setup}

/-- The iterator that a worker goes on with after an unlock. -/
def WorkerPc.iterator : WorkerPc → Option Iterator
  | .expiring _ _ iterator _ => some iterator
  | .rescanning _ _ iterator => some iterator
  | _ => none

/-- A request that a scan takes out of the queue: a cancelled one, or one that it
stops at. -/
def State.takesOut (s : State setup) (formation : Formation) (next : Nat) : Bool :=
  (s.pending next).cancelled || !s.passesOver formation next

/-- The step changes the queue: a submission with room left, a pop, a scan that
finds something to take out, the swap of a drain. -/
def State.changesQueue (s : State setup) : Event setup → Bool
  | .submitter request =>
    match s.submits request with
    | .enqueuing _ _ _ => !s.draining_ && s.queue_.length < setup.config.max_queue_size
    | _ => false
  | .worker worker =>
    match s.workers worker with
    | .popping => !s.queue_.isEmpty
    | .locking formation _ => !s.draining_ && s.queue_.any (s.takesOut formation)
    | .rescanning formation _ iterator => (s.queue_.drop iterator.position).any (s.takesOut formation)
    | _ => false
  | .undefined _ _ _ => true
  | .drain thread =>
    match s.drains thread with
    | .rejecting => true
    | _ => false
  | _ => false

/-- The queue is not changed while somebody else is between the unlock and the
lock of an expired request. -/
def undisturbed (s : State setup) (event : Event setup) : Bool :=
  !s.changesQueue event || (List.finRange setup.config.instances).all fun worker =>
    decide (event.actor = some worker) || (s.workers worker).iterator.isNone

/-- The iterators that workers go on with are valid. -/
def State.IteratorsValid (s : State setup) : Prop :=
  ∀ worker iterator, (s.workers worker).iterator = some iterator → iterator.generation = s.generation

section Steps

variable {s s' : State setup} {worker : Fin setup.config.instances}

theorem undisturbed_iff {event : Event setup} : undisturbed s event = true ↔
    (s.changesQueue event = true → ∀ worker, event.actor ≠ some worker → (s.workers worker).iterator = none) := by
  simp only [undisturbed, Bool.or_eq_true, Bool.not_eq_true', List.all_eq_true, List.mem_finRange, forall_const,
    decide_eq_true_eq, Option.isNone_iff_eq_none, ← Bool.not_eq_true]
  exact ⟨fun h hchanges worker hother => (h.resolve_left (not_not.mpr hchanges) worker).resolve_left hother,
    fun h => or_iff_not_imp_left.mpr fun hchanges worker =>
      or_iff_not_imp_left.mpr fun hother => h (not_not.mp hchanges) worker hother⟩

theorem WorkerPc.iterator_wakeWorker (pc : WorkerPc) : (State.wakeWorker pc).iterator = pc.iterator := by
  cases pc <;> rfl

/-- A quiet step obtains no iterator. -/
theorem WorkerPc.Quiet.iterator {pc pc' : WorkerPc} (hquiet : pc.Quiet pc') {iterator : Iterator}
    (hiterator : pc'.iterator = some iterator) : pc.iterator = some iterator := by
  cases hquiet with
  | expired | expiredNotified => exact hiterator
  | _ => cases hiterator

theorem WorkerPc.Performs.iterator {pc : WorkerPc} {next : List WorkerOp → WorkerPc} {ops : List WorkerOp}
    (hperforms : pc.Performs next ops) (ops' : List WorkerOp) : (next ops').iterator = pc.iterator := by
  cases hperforms <;> rfl

/-- A scan shortens the queue exactly when it takes something out. -/
theorem State.scan_takesOut (s : State setup) (formation : Formation) (passed rest : List Nat) (made_progress : Bool) :
    (s.scan formation passed made_progress rest).queue_.length < passed.length + rest.length ↔
      rest.any (s.takesOut formation) = true := by
  induction rest generalizing passed made_progress with
  | nil => simp [scan]
  | cons next rest ih =>
    have hpassed := ih (passed ++ [next]) made_progress
    rw [List.length_append, List.length_singleton, Nat.add_assoc, Nat.add_comm 1] at hpassed
    rw [scan, List.any_cons, List.length_cons, Bool.or_eq_true]
    split
    · next hcancelled =>
      obtain ⟨hshrinks, -⟩ := s.scan_shrinks formation passed rest true
      exact iff_of_true (by omega) (.inl (by simp [takesOut, hcancelled]))
    · next hlive =>
      split
      · next hlate =>
        have htakes : s.takesOut formation next = true := by simp [takesOut, passesOver, hlive, hlate]
        exact iff_of_true (by simp) (.inl htakes)
      · next hinTime =>
        have hnot (hpasses : s.passesOver formation next = true) : ¬ s.takesOut formation next = true := by
          simp [takesOut, hlive, hpasses]
        split
        · next hcompatible =>
          rw [or_iff_right (hnot (by rw [passesOver, hcompatible]; simp [not_le.mp hinTime]))]
          exact hpassed
        · next hcompatible =>
          split
          · next hlimit =>
            rw [or_iff_right (hnot (by simp [passesOver, not_le.mp hinTime, hlimit]))]
            exact hpassed
          · next hlimit =>
            have htakes : s.takesOut formation next = true := by
              rw [Bool.not_eq_true', Bool.not_eq_false] at hcompatible
              rw [takesOut, passesOver, hcompatible]
              simp [hlive, not_lt.mp hlimit]
            exact iff_of_true (by simp) (.inl htakes)

/-- A scan is a change of the queue when it takes something out. -/
theorem State.runScan_generation (s : State setup) (formation : Formation) (delay_elapsed : Bool) (position : Nat)
    (made_progress : Bool) :
    let after := s.runScan worker formation delay_elapsed position made_progress
    if (s.queue_.drop position).any (s.takesOut formation) then s.generation < after.generation
    else after.generation = s.generation := by
  have htakes := s.scan_takesOut formation (s.queue_.take position) (s.queue_.drop position) made_progress
  rw [← List.length_append, List.take_append_drop] at htakes
  change if _ then s.generation < s.generation + (s.queue_.length - (s.scan ..).queue_.length)
    else s.generation + (s.queue_.length - (s.scan ..).queue_.length) = s.generation
  split
  · next hany =>
    have hlt := htakes.mpr hany
    omega
  · next hnone =>
    have hnot := mt htakes.mp hnone
    omega

/-- The queue changes under a pop or a scan only. -/
theorem State.Works.generation (hworks : s.Works worker s') : s'.generation = s.generation ∨
    s.workers worker = .popping ∨ (∃ formation delay_elapsed, s.workers worker = .locking formation delay_elapsed) ∨
      ∃ formation delay_elapsed iterator, s.workers worker = .rescanning formation delay_elapsed iterator := by
  cases hworks with
  | popped first queue_ hpc => exact .inr (.inl hpc)
  | scanned formation delay_elapsed position made_progress hpc =>
    obtain hpc | ⟨iterator, hpc⟩ := hpc
    · exact .inr (.inr (.inl ⟨formation, delay_elapsed, hpc⟩))
    · exact .inr (.inr (.inr ⟨formation, delay_elapsed, iterator, hpc⟩))
  | performed next op ops hperforms hperform =>
    left
    cases State.perform_performed hperform <;> rfl
  | _ => exact .inl rfl

/-- A worker's step as a change of the queue. -/
theorem State.runWorker_generation (hstep : s.runWorker worker = some s') (hvalid : s.IteratorsValid) :
    if s.changesQueue (.worker worker) then s.generation < s'.generation else s'.generation = s.generation := by
  have hcases := (State.runWorker_works hstep).generation
  cases hpc : s.workers worker with
  | popping =>
    simp only [runWorker, hpc, Option.some.injEq] at hstep
    subst hstep
    unfold popNextPending
    cases hqueue : s.queue_ with
    | nil => simp [changesQueue, hpc, hqueue, setWorker]
    | cons first queue_ => simp [changesQueue, hpc, hqueue, setWorker]
  | locking formation delay_elapsed =>
    simp only [runWorker, hpc] at hstep
    split at hstep
    · next hdraining =>
      cases hstep
      simp [changesQueue, hpc, hdraining, setWorker]
    · next hdraining =>
      cases hstep
      have hgeneration := @State.runScan_generation _ worker s formation delay_elapsed 0 false
      simpa [changesQueue, hpc, hdraining] using hgeneration
  | rescanning formation delay_elapsed iterator =>
    have hfresh := hvalid worker iterator (by rw [hpc]; rfl)
    simp only [runWorker, hpc, hfresh, if_true, Option.some.injEq] at hstep
    subst hstep
    have hgeneration := @State.runScan_generation _ worker s formation delay_elapsed iterator.position true
    simpa [changesQueue, hpc] using hgeneration
  | _ =>
    have hsame : s'.generation = s.generation := by
      rw [hpc] at hcases
      obtain hsame | hpopping | ⟨_, _, hlocking⟩ | ⟨_, _, _, hrescanning⟩ := hcases
      · exact hsame
      · cases hpopping
      · cases hlocking
      · cases hrescanning
    simpa [changesQueue, hpc] using hsame

/-- A call of `submit` changes the queue in its locked section, with room left. -/
theorem State.runSubmit_generation {request : Nat} (hstep : s.runSubmit request = some s') :
    if s.changesQueue (.submitter request) then s.generation < s'.generation else s'.generation = s.generation := by
  unfold runSubmit at hstep
  split at hstep
  case h_3 call enqueued_at deadline hpc =>
    cases hstep
    simp only [changesQueue, hpc]
    by_cases hdraining : s.draining_ = true
    · simp [enqueue, hdraining, setSubmit]
    · by_cases hroom : s.queue_.length < setup.config.max_queue_size
      · simp [enqueue, hdraining, hroom, not_le.mpr hroom, setSubmit]
      · simp [enqueue, hdraining, hroom, not_lt.mp hroom, setSubmit]
  case h_4 hpc =>
    have hsame : s'.generation = s.generation := by
      split at hstep
      · cases hstep
        rfl
      · split at hstep <;> cases hstep
        rfl
    simpa [changesQueue, hpc] using hsame
  case h_9 => cases hstep
  all_goals
    cases hstep
    simp [changesQueue, setSubmit, setToken, setRequest, countTimedOut, *]

/-- A drain outdates iterators exactly when it takes something out. -/
theorem State.runDrain_generation {thread : Nat} (hstep : s.runDrain thread = some s') :
    if s.changesQueue (.drain thread) then s.generation < s'.generation else s'.generation = s.generation := by
  unfold runDrain at hstep
  split at hstep
  case h_2 hpc =>
    split at hstep <;> cases hstep
    simp [changesQueue, hpc, setDrain]
  case h_5 hpc =>
    split at hstep <;> cases hstep <;> simp [changesQueue, hpc, setDrain, setRequest]
  case h_6 => cases hstep
  all_goals
    cases hstep
    simp [changesQueue, setDrain, *]

/-- A step outdates iterators exactly when it changes the queue. -/
theorem State.step_generation {event : Event setup} (hstep : s.step event = some s') (hvalid : s.IteratorsValid) :
    if s.changesQueue event then s.generation < s'.generation else s'.generation = s.generation := by
  cases event with
  | worker worker => exact State.runWorker_generation hstep hvalid
  | submitter request => exact State.runSubmit_generation hstep
  | undefined worker formation queue_ =>
    simp only [step] at hstep
    split at hstep <;> cases hstep
    exact Nat.lt_succ_self _
  | drain thread => exact State.runDrain_generation hstep
  | notifySubmitted request woken =>
    simp only [step, notifySubmitted] at hstep
    split at hstep
    · obtain ⟨t, hnotify, rfl⟩ := Option.map_eq_some_iff.mp hstep
      rw [State.notifyOne_eq hnotify]
      rfl
    · cases hstep
  | notifyErased worker woken =>
    obtain ⟨t, pc', hnotify, -, rfl⟩ := State.notifyErased_quiet hstep
    rw [State.notifyOne_eq hnotify]
    rfl
  | infer worker outcome =>
    obtain ⟨pc', -, rfl⟩ := State.infer_quiet hstep
    rfl
  | tick | cancel =>
    cases hstep
    rfl
  | submit | wake | stopAccepting | beginDrain =>
    simp only [step] at hstep
    split at hstep <;> cases hstep
    rfl

/-- A worker is left with the iterator that the last erasure of a scan returned,
or keeps the one it had while the queue stays as it is. -/
theorem State.Works.iterator (hworks : s.Works worker s') {iterator : Iterator}
    (hiterator : (s'.workers worker).iterator = some iterator) :
    iterator.generation = s'.generation ∨
      ((s.workers worker).iterator = some iterator ∧ s'.generation = s.generation) := by
  cases hworks with
  | quiet pc' hquiet =>
    rw [State.setWorker_self] at hiterator
    exact .inr ⟨hquiet.iterator hiterator, rfl⟩
  | scanned formation delay_elapsed position made_progress =>
    left
    unfold State.runScan at hiterator ⊢
    rw [State.setWorker_self] at hiterator
    split at hiterator
    · split at hiterator
      · cases hiterator
      · split at hiterator <;> cases hiterator
    · cases hiterator
      rfl
    · cases hiterator
  | performed next op ops hperforms hperform =>
    have hkept (ops' : List WorkerOp) : (next ops').iterator = (s.workers worker).iterator :=
      hperforms.iterator ops'
    cases State.perform_performed hperform with
    | terminated =>
      rw [State.setWorker_self] at hiterator
      cases hiterator
    | _ =>
      rw [State.setWorker_self, hkept] at hiterator
      exact .inr ⟨hiterator, rfl⟩
  | _ =>
    rw [State.setWorker_self] at hiterator
    cases hiterator

theorem State.Works.others (hworks : s.Works worker s') {other : Fin setup.config.instances} (hother : other ≠ worker) :
    s'.workers other = s.workers other := by
  cases hworks with
  | performed next op ops hperforms hperform =>
    cases State.perform_performed hperform <;> exact State.setWorker_of_ne _ hother _
  | scanned => exact State.setWorker_of_ne _ hother _
  | _ => exact State.setWorker_of_ne _ hother _

/-- A step that leaves the workers alone leaves their iterators alone. -/
theorem State.Leaves.iterator (hleaves : s.Leaves s') (worker : Fin setup.config.instances) :
    (s'.workers worker).iterator = (s.workers worker).iterator := by
  obtain hsame | hwoken := hleaves.workers worker
  · rw [hsame]
  · rw [hwoken, WorkerPc.iterator_wakeWorker]

/-- A step leaves the iterators of all but the worker that makes it. -/
theorem State.step_iterator {event : Event setup} (hstep : s.step event = some s')
    (hother : event.actor ≠ some worker) : (s'.workers worker).iterator = (s.workers worker).iterator := by
  have hne {acting : Fin setup.config.instances} (hactor : event.actor = some acting) : worker ≠ acting := by
    rintro rfl
    exact hother hactor
  cases event with
  | worker acting => rw [(State.runWorker_works hstep).others (hne rfl)]
  | notifyErased acting woken =>
    obtain ⟨t, pc', hnotify, -, rfl⟩ := State.notifyErased_quiet hstep
    rw [State.setWorker_of_ne t (hne rfl)]
    exact (State.notifyOne_leaves hnotify).iterator worker
  | infer acting outcome =>
    obtain ⟨pc', -, rfl⟩ := State.infer_quiet hstep
    rw [State.setWorker_of_ne s (hne rfl)]
  | undefined acting formation queue_ =>
    simp only [step] at hstep
    split at hstep <;> cases hstep
    rw [State.setWorker_of_ne _ (hne rfl)]
  | _ => exact (State.step_leaves hstep rfl).iterator worker

/-- A worker's own step leaves it an iterator that is new or as it was. -/
theorem State.step_own_iterator {event : Event setup} (hstep : s.step event = some s')
    (hactor : event.actor = some worker) {iterator : Iterator}
    (hiterator : (s'.workers worker).iterator = some iterator) :
    iterator.generation = s'.generation ∨
      ((s.workers worker).iterator = some iterator ∧ s'.generation = s.generation) := by
  cases event with
  | worker acting =>
    cases hactor
    exact (State.runWorker_works hstep).iterator hiterator
  | notifyErased acting woken =>
    cases hactor
    obtain ⟨t, pc', hnotify, hquiet, rfl⟩ := State.notifyErased_quiet hstep
    rw [State.setWorker_self] at hiterator
    rw [← (State.notifyOne_leaves hnotify).iterator worker]
    refine .inr ⟨hquiet.iterator hiterator, ?_⟩
    rw [State.notifyOne_eq hnotify]
    rfl
  | infer acting outcome =>
    cases hactor
    obtain ⟨pc', hquiet, rfl⟩ := State.infer_quiet hstep
    rw [State.setWorker_self] at hiterator
    exact .inr ⟨hquiet.iterator hiterator, rfl⟩
  | undefined acting formation queue_ =>
    cases hactor
    simp only [step] at hstep
    split at hstep <;> cases hstep
    rw [State.setWorker_self] at hiterator
    cases hiterator
  | _ => cases hactor

/-- Valid iterators stay valid in the steps that disturb nobody, and in no others. -/
theorem State.step_valid_iff {event : Event setup} (hvalid : s.IteratorsValid) (hstep : s.step event = some s') :
    undisturbed s event = true ↔ s'.IteratorsValid := by
  have hgeneration := State.step_generation hstep hvalid
  rw [undisturbed_iff]
  constructor
  · intro hquiet worker iterator hiterator
    by_cases hactor : event.actor = some worker
    · obtain hfresh | ⟨hwas, hsame⟩ := State.step_own_iterator hstep hactor hiterator
      · exact hfresh
      · rw [hsame]
        exact hvalid worker iterator hwas
    · rw [State.step_iterator hstep hactor] at hiterator
      have hkept : ¬ s.changesQueue event = true := by
        intro hchanges
        rw [hquiet hchanges worker hactor] at hiterator
        cases hiterator
      rw [if_neg hkept] at hgeneration
      rw [hgeneration]
      exact hvalid worker iterator hiterator
  · intro hafter hchanges worker hother
    rw [if_pos hchanges] at hgeneration
    cases hiterator : (s.workers worker).iterator with
    | none => rfl
    | some iterator =>
      have hwas := hvalid worker iterator hiterator
      have his := hafter worker iterator ((State.step_iterator hstep hother).trans hiterator)
      omega

/-- With valid iterators only, each iterator is used in the generation of the
queue that it was obtained in. -/
theorem State.IteratorsValid.uses_fresh (hvalid : s.IteratorsValid) {event : Event setup} {use : IteratorUse}
    (hmem : use ∈ s.iteratorUses event) : use.obtained = use.generation := by
  unfold iteratorUses at hmem
  split at hmem
  · next worker =>
    split at hmem
    · split at hmem
      · cases hmem
      · exact s.sectionUses_fresh _ _ _ _ hmem
    · next formation delay_elapsed iterator hpc =>
      obtain ⟨position, generation⟩ := iterator
      have hfresh : generation = s.generation := hvalid worker _ (by rw [hpc]; rfl)
      subst hfresh
      exact s.sectionUses_fresh _ _ _ _ hmem
    · cases hmem
  · cases hmem

theorem State.scanLoop_compares (s : State setup) (formation : Formation) (queue_ : List Nat) (generation : Nat)
    (iterator : Iterator) (made_progress : Bool) :
    { op := .compare, obtained := iterator.generation, generation } ∈
      (s.scanLoop formation queue_ generation iterator made_progress).uses := by
  rw [scanLoop]
  dsimp only
  split_ifs <;> exact List.mem_cons_self

/-- The first thing done with the iterator after an unlock. -/
theorem State.rescanning_compares {formation : Formation} {delay_elapsed : Bool} {iterator : Iterator}
    (hpc : s.workers worker = .rescanning formation delay_elapsed iterator) :
    { op := .compare, obtained := iterator.generation, generation := s.generation } ∈
      s.iteratorUses (.worker worker) := by
  simp only [iteratorUses, hpc, sectionUses]
  exact List.mem_append_left _ (s.scanLoop_compares formation s.queue_ s.generation iterator true)

/-- The worker comes to use an iterator of another generation. -/
def State.UsesStale (s : State setup) (worker : Fin setup.config.instances) : Prop :=
  ∃ events t, System.replay State.step s events = some t ∧
    ∃ use ∈ t.iteratorUses (.worker worker), use.obtained ≠ use.generation

/-- A worker that comes to use an outdated iterator after a step does so before it. -/
theorem State.UsesStale.of_step {event : Event setup} (hstep : s.step event = some s')
    (hstale : s'.UsesStale worker) : s.UsesStale worker := by
  obtain ⟨events, t, hreplay, huses⟩ := hstale
  refine ⟨event :: events, t, ?_, huses⟩
  rw [System.replay, hstep]
  exact hreplay

/-- A worker that scans on with an outdated iterator uses it. -/
theorem State.usesStale_of_rescanning {formation : Formation} {delay_elapsed : Bool} {iterator : Iterator}
    (hpc : s.workers worker = .rescanning formation delay_elapsed iterator)
    (hstale : iterator.generation ≠ s.generation) : s.UsesStale worker :=
  ⟨[], s, rfl, _, State.rescanning_compares hpc, hstale⟩

theorem State.perform_isSome {next : List WorkerOp → WorkerPc} {op : WorkerOp} {ops : List WorkerOp}
    (hop : op ≠ .notifyOne) : ∃ t, s.perform worker next ops op = some t := by
  cases op with
  | notifyOne => exact absurd rfl hop
  | setValue request result =>
    simp only [perform]
    split <;> exact ⟨_, rfl⟩
  | _ => exact ⟨_, rfl⟩

/-- A worker that answers an expired request has nothing in its way to the next
use of its iterator: the promise it sets has no value. -/
theorem State.Sound.usesStale (hsound : s.Sound) {formation : Formation} {delay_elapsed : Bool} {iterator : Iterator}
    {ops : List WorkerOp} (hpc : s.workers worker = .expiring formation delay_elapsed iterator ops)
    (hstale : iterator.generation ≠ s.generation) : s.UsesStale worker := by
  induction hleft : opsLeft ops using Nat.strong_induction_on generalizing s ops with
  | _ left ih =>
    -- what is left of the operations after a step that leaves the queue alone
    have hnext {event : Event setup} {t : State setup} {ops' : List WorkerOp} (hstep : s.step event = some t)
        (hfresh : scansFresh s event = true)
        (hpc' : t.workers worker = .expiring formation delay_elapsed iterator ops') (hless : opsLeft ops' < left)
        (hgeneration : t.generation = s.generation) : s.UsesStale worker :=
      .of_step hstep
        (ih (opsLeft ops') hless (hsound.step hfresh hstep).sound hpc' (by rw [hgeneration]; exact hstale) rfl)
    have hfresh : scansFresh s (.worker worker) = true := by simp [scansFresh, hpc]
    cases ops with
    | nil =>
      have hstep : s.step (.worker worker) =
          some (s.setWorker worker (.rescanning formation delay_elapsed iterator)) := by
        simp only [State.step, State.runWorker, hpc]
      exact .of_step hstep (State.usesStale_of_rescanning (State.setWorker_self ..) hstale)
    | cons op ops =>
      by_cases hop : op = .notifyOne
      · subst hop
        obtain ⟨woken, t, hnotify⟩ := s.exists_notifyOne
        have hstep : s.step (.notifyErased worker woken) =
            some (t.setWorker worker (.expiring formation delay_elapsed iterator ops)) := by
          simp [State.step, State.notifyErased, hpc, hnotify]
        refine hnext hstep rfl (State.setWorker_self ..) ?_ ?_
        · rw [← hleft]
          simp [opsLeft, WorkerOp.steps]
        · rw [State.notifyOne_eq hnotify]
          rfl
      · obtain ⟨t, hperform⟩ := @State.perform_isSome _ s worker (.expiring formation delay_elapsed iterator) op ops hop
        have hstep : s.step (.worker worker) = some t := by
          simp only [State.step, State.runWorker, hpc, hperform]
        have hperforms : (s.workers worker).Performs (.expiring formation delay_elapsed iterator) (op :: ops) := by
          rw [hpc]
          exact .expiring ..
        have hgeneration : t.generation = s.generation := by
          cases State.perform_performed hperform <;> rfl
        obtain ⟨-, hterminated | ⟨ops', hpc', hless⟩⟩ := State.perform_opsLeft hperform
        · exact absurd hterminated (hsound.not_terminated hperforms hperform [])
        · exact hnext hstep hfresh hpc' (by omega) hgeneration

/-- With valid iterators every scan is a fresh one. -/
theorem State.IteratorsValid.scansFresh (hvalid : s.IteratorsValid) (event : Event setup) :
    scansFresh s event = true := by
  unfold batch.scansFresh
  split
  · next worker =>
    split
    · next hpc =>
      apply decide_eq_true
      exact hvalid worker _ (by rw [hpc]; rfl)
    · rfl
  · rfl

/-- An outdated iterator is bound to be used. -/
theorem State.Sound.usesStale_of_not_valid (hsound : s.Sound) (hinvalid : ¬ s.IteratorsValid) :
    ∃ worker, s.UsesStale worker := by
  unfold State.IteratorsValid at hinvalid
  push Not at hinvalid
  obtain ⟨worker, iterator, hiterator, hstale⟩ := hinvalid
  refine ⟨worker, ?_⟩
  cases hpc : s.workers worker with
  | expiring formation delay_elapsed held ops =>
    rw [hpc] at hiterator
    cases hiterator
    exact hsound.usesStale hpc hstale
  | rescanning formation delay_elapsed held =>
    rw [hpc] at hiterator
    cases hiterator
    exact State.usesStale_of_rescanning hpc hstale
  | _ =>
    rw [hpc] at hiterator
    cases hiterator

end Steps

/-- The scheduler whose queue is not changed under a worker that is about to go on
with its iterator. -/
def undisturbedScanning (setup : Setup) (start : Int) : System (State setup) (Event setup) :=
  (system setup start).restrict fun s event => undisturbed s event = true

/-- In every undisturbed run the iterators are valid. -/
theorem iteratorsValid_reachable {setup : Setup} {start : Int} {s : State setup}
    (hreach : (undisturbedScanning setup start).Reachable s) : s.IteratorsValid := by
  refine @System.Reachable.invariant _ _ (undisturbedScanning setup start) State.IteratorsValid ?_ ?_ s hreach
  · rintro s rfl worker iterator hiterator
    cases hiterator
  · intro s event s' _ hvalid hstep
    exact (State.step_valid_iff hvalid hstep.1).mp hstep.2

/-- Undisturbed runs are sound. -/
theorem sound_undisturbed {setup : Setup} {start : Int} {s : State setup}
    (hreach : (undisturbedScanning setup start).Reachable s) : s.Sound := by
  refine @System.Reachable.invariant _ _ (undisturbedScanning setup start) State.Sound ?_ ?_ s hreach
  · rintro s rfl
    exact sound_start setup start
  · intro s event s' hreach hsound hstep
    exact (hsound.step ((iteratorsValid_reachable hreach).scansFresh event) hstep.1).sound

/-- As long as no step changes the queue under a worker about to go on with its
iterator, every iterator is used in the generation it was obtained in. After the
first step that does, nothing keeps such a worker from using an outdated one. -/
theorem iterators_fresh {setup : Setup} {start : Int} {s : State setup}
    (hreach : (undisturbedScanning setup start).Reachable s) :
    (∀ event, ∀ use ∈ s.iteratorUses event, use.obtained = use.generation) ∧
      ∀ event s', s.step event = some s' → undisturbed s event = false → ∃ worker, s'.UsesStale worker := by
  have hvalid := iteratorsValid_reachable hreach
  refine ⟨fun _ _ hmem => hvalid.uses_fresh hmem, ?_⟩
  intro event s' hstep hdisturbed
  have hsound := ((sound_undisturbed hreach).step (hvalid.scansFresh event) hstep).sound
  apply hsound.usesStale_of_not_valid
  rw [← State.step_valid_iff hvalid hstep, hdisturbed]
  exact Bool.false_ne_true

/-- The first worker takes the second request out of the queue as expired, and
nothing else happens to the queue until it goes on with the third. -/
def quietScan : List (Event batchingSetup) :=
  enqueueing 0 ++ [.worker firstWorker] ++ enqueueing 1 ++ [.tick 30000000000] ++ enqueueing 2 ++
    List.replicate 3 (.worker firstWorker) ++ [.notifyErased firstWorker none] ++
    List.replicate 5 (.worker firstWorker)

/-- A run in which nobody submits while a worker scans. -/
theorem iterators_fresh_quietScan :
    ∃ history s, System.trace (System.guarded undisturbed State.step) [] { now := 0 } quietScan = some (history, s) ∧
      s.queue_ = [2] ∧ s.iteratorUses (.worker firstWorker) ≠ [] ∧
      ∀ use ∈ s.iteratorUses (.worker firstWorker), use.obtained = use.generation := by
  have hreplay : ∃ history s formation delay_elapsed iterator,
      System.trace (System.guarded undisturbed State.step) [] { now := 0 } quietScan = some (history, s) ∧
        s.queue_ = [2] ∧ s.workers firstWorker = .rescanning formation delay_elapsed iterator :=
    ⟨_, _, _, _, _, rfl, rfl, rfl⟩
  obtain ⟨history, s, formation, delay_elapsed, iterator, htrace, hqueue, hpc⟩ := hreplay
  have hrun : (undisturbedScanning batchingSetup 0).Run history s := (System.run_of_trace htrace).of_guarded
  exact ⟨history, s, htrace, hqueue, List.ne_nil_of_mem (State.rescanning_compares hpc),
    (iterators_fresh hrun.reachable).1 (.worker firstWorker)⟩

/-- The third request is submitted while the worker answers the second one. -/
def submittedMeanwhile : List (Event batchingSetup) :=
  enqueueing 0 ++ [.worker firstWorker] ++ enqueueing 1 ++ [.tick 30000000000] ++
    List.replicate 3 (.worker firstWorker) ++ enqueueing 2 ++ [.notifyErased firstWorker none] ++
    List.replicate 5 (.worker firstWorker)

/-- A request that is queued while a worker waits outdates its iterator. -/
theorem submit_outdates_iterator :
    ∃ s, (system batchingSetup 0).Reachable s ∧ s.step (.worker firstWorker) ≠ none ∧
      ∃ use ∈ s.iteratorUses (.worker firstWorker), use.op = .compare ∧ use.obtained ≠ use.generation := by
  have hreplay : ∃ s formation delay_elapsed iterator,
      System.replay State.step { now := 0 } submittedMeanwhile = some s ∧
        s.workers firstWorker = .rescanning formation delay_elapsed iterator ∧ iterator.generation = 4 ∧
        s.generation = 5 :=
    ⟨_, _, _, _, rfl, rfl, rfl, rfl⟩
  obtain ⟨s, formation, delay_elapsed, iterator, hreplay, hpc, hobtained, hgeneration⟩ := hreplay
  have hstale : iterator.generation ≠ s.generation := by
    rw [hobtained, hgeneration]
    decide
  refine ⟨s, System.reachable_of_replay hreplay, ?_, _, State.rescanning_compares hpc, rfl, hstale⟩
  simp [State.step, State.runWorker, hpc, hstale]

end neuriplo.batch
