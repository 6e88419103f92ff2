import NeuriploRuntime.Batch.Delivery

open neuriplo.scheduler neuriplo.tensor transition

namespace neuriplo.batch

variable {setup : Setup}

/-- The leading dimension a request counts for, as the signed value it is. -/
def State.rows (s : State setup) (request : Nat) : Int := requestBatchSize (s.pending request).request

/-- No negative dimension, and in exact integers no more rows than a batch may
have. -/
def State.Within (s : State setup) (batch : List Nat) : Prop :=
  (∀ request ∈ batch, 0 ≤ s.rows request) ∧ (batch.map s.rows).sum ≤ setup.config.dynamic_batching.max_batch_size

/-- What the running sum of `formBatch` is worth. -/
structure Formation.Counts (s : State setup) (formation : Formation) : Prop where
  nonempty : formation.batch ≠ []
  lone : ∀ first, formation.batch = [first] → formation.merged_batch_dimension = s.batchSize first
  several : 1 < formation.batch.length →
    s.Within formation.batch ∧ (formation.merged_batch_dimension : Int) = (formation.batch.map s.rows).sum

/-- The local variables of a worker inside `formBatch`. -/
def WorkerPc.formation : WorkerPc → Option Formation
  | .deciding formation => some formation
  | .locking formation _ => some formation
  | .formWaiting formation _ => some formation
  | .expiring formation _ _ _ => some formation
  | .rescanning formation _ _ => some formation
  | .joinNotifying formation => some formation
  | .joined formation => some formation
  | .formed formation => some formation
  | _ => none

structure WorkerPc.Counts (s : State setup) (pc : WorkerPc) : Prop where
  forming : ∀ formation, pc.formation = some formation → formation.Counts s
  formed : ∀ batch, pc = .processing batch → 1 < batch.length → s.Within batch

/-- A request the scan of the queue does not stop at. -/
def State.passesOver (s : State setup) (formation : Formation) (next : Nat) : Bool :=
  (s.pending next).cancelled || (s.now < (s.pending next).deadline &&
    (!areBatchCompatible (s.pending (formation.batch.headD next)).request (s.pending next).request ||
      setup.config.dynamic_batching.max_batch_size <
        wrapSize (formation.merged_batch_dimension + s.batchSize next)))

/-- Neither the cast to `size_t` nor the sum changes what the request and the
batch count for. -/
def State.exact (s : State setup) (formation : Formation) (next : Nat) : Bool :=
  (next :: formation.batch).all (fun request => (s.batchSize request : Int) = s.rows request) &&
    formation.merged_batch_dimension + s.batchSize next < 2 ^ 64

/-- The first queued request that the scan stops at has expired, or counts
exactly. -/
def State.joinsExactly (s : State setup) (formation : Formation) (queue_ : List Nat) : Bool :=
  match queue_.find? (!s.passesOver formation ·) with
  | none => true
  | some next => (s.pending next).deadline ≤ s.now || s.exact formation next

def countsExactly (s : State setup) : Event setup → Bool
  | .worker worker =>
    match s.workers worker with
    | .locking formation _ => s.draining_ || s.joinsExactly formation s.queue_
    | .rescanning formation _ iterator => s.joinsExactly formation (s.queue_.drop iterator.position)
    | _ => true
  | _ => true

section Steps

variable {s s' : State setup} {worker : Fin setup.config.instances}

/-- The request that joins is the first that is not passed over. -/
theorem State.scan_joined {formation : Formation} {passed queue_ : List Nat} {made_progress : Bool} {next : Nat}
    (hjoined : (s.scan formation passed made_progress queue_).scanned = .joined next) :
    queue_.find? (!s.passesOver formation ·) = some next ∧ ¬ (s.pending next).deadline ≤ s.now ∧
      wrapSize (formation.merged_batch_dimension + s.batchSize next) ≤
        setup.config.dynamic_batching.max_batch_size := by
  induction queue_ generalizing passed made_progress with
  | nil => cases hjoined
  | cons first queue_ ih =>
    rw [scan] at hjoined
    have hpass (hpasses : s.passesOver formation first = true) {passed : List Nat} {made_progress : Bool}
        (hrest : (s.scan formation passed made_progress queue_).scanned = .joined next) :
        (first :: queue_).find? (!s.passesOver formation ·) = some next ∧ ¬ (s.pending next).deadline ≤ s.now ∧
          wrapSize (formation.merged_batch_dimension + s.batchSize next) ≤
            setup.config.dynamic_batching.max_batch_size := by
      rw [List.find?_cons_of_neg (by simp [hpasses])]
      exact ih hrest
    split at hjoined
    · next hcancelled => exact hpass (by simp [passesOver, hcancelled]) hjoined
    · next hlive =>
      split at hjoined
      · cases hjoined
      · next hinTime =>
        split at hjoined
        · next hcompatible => exact hpass (by rw [passesOver, hcompatible]; simp [not_le.mp hinTime]) hjoined
        · next hcompatible =>
          split at hjoined
          · next hlimit => exact hpass (by simp [passesOver, not_le.mp hinTime, hlimit]) hjoined
          · next hlimit =>
            obtain rfl : first = next := by simpa using hjoined
            refine ⟨?_, hinTime, not_lt.mp hlimit⟩
            apply List.find?_cons_of_pos
            simpa [passesOver, hlive, not_le.mp hinTime] using And.intro hcompatible hlimit

/-- An exact join keeps the sum exact. -/
theorem Formation.Counts.join {formation : Formation} (hcounts : formation.Counts s) {next : Nat}
    (hexact : s.exact formation next = true)
    (hfits : wrapSize (formation.merged_batch_dimension + s.batchSize next) ≤
      setup.config.dynamic_batching.max_batch_size) :
    Formation.Counts s { formation with
      batch := formation.batch ++ [next]
      merged_batch_dimension := wrapSize (formation.merged_batch_dimension + s.batchSize next) } := by
  rw [State.exact, Bool.and_eq_true, List.all_cons, Bool.and_eq_true, decide_eq_true_eq, decide_eq_true_eq] at hexact
  obtain ⟨⟨hnext, hmembers⟩, hsum⟩ := hexact
  have hwrap : wrapSize (formation.merged_batch_dimension + s.batchSize next) =
      formation.merged_batch_dimension + s.batchSize next := Nat.mod_eq_of_lt hsum
  have hbefore : (∀ request ∈ formation.batch, 0 ≤ s.rows request) ∧
      (formation.merged_batch_dimension : Int) = (formation.batch.map s.rows).sum := by
    have hnonneg : ∀ request ∈ formation.batch, 0 ≤ s.rows request := by
      intro request hmem
      have hcast := of_decide_eq_true (List.all_eq_true.mp hmembers request hmem)
      omega
    refine ⟨hnonneg, ?_⟩
    cases hbatch : formation.batch with
    | nil => exact absurd hbatch hcounts.nonempty
    | cons first others =>
      cases others with
      | nil =>
        have hcast := of_decide_eq_true (List.all_eq_true.mp hmembers first (by simp [hbatch]))
        rw [hcounts.lone first hbatch, hcast]
        simp
      | cons second others =>
        rw [← hbatch]
        exact (hcounts.several (by simp [hbatch])).2
  obtain ⟨hnonneg, hmerged⟩ := hbefore
  have htotal : ((formation.batch ++ [next]).map s.rows).sum =
      (formation.merged_batch_dimension : Int) + s.batchSize next := by
    rw [List.map_append, List.sum_append, ← hmerged, hnext]
    simp
  rw [hwrap] at hfits ⊢
  refine ⟨by simp, ?_, fun _ => ⟨⟨?_, ?_⟩, ?_⟩⟩
  · intro first hbatch
    have hlength := congrArg List.length hbatch
    rw [List.length_append, List.length_singleton] at hlength
    have hpos := List.length_pos_iff.mpr hcounts.nonempty
    simp only [List.length_singleton] at hlength
    omega
  · intro request hmem
    obtain hmem | hmem := List.mem_append.mp hmem
    · exact hnonneg request hmem
    · rw [List.mem_singleton.mp hmem, ← hnext]
      exact Int.natCast_nonneg _
  · rw [htotal]
    omega
  · dsimp only
    rw [htotal, Nat.cast_add]

theorem State.enqueue_requests (s : State setup) (request : Nat) (call : ExecutionRequest)
    (enqueued_at deadline : Int) :
    (s.enqueue request call enqueued_at deadline).requests = s.requests ∨
      (s.enqueue request call enqueued_at deadline).requests =
        Function.update s.requests request (some { request := call, enqueued_at, deadline }) := by
  unfold State.enqueue
  split
  · exact .inl rfl
  · split
    · exact .inl rfl
    · exact .inr rfl

/-- Nothing changes the request that was queued. -/
theorem State.Sound.step_rows (hsound : s.Sound) {event : Event setup} (hstep : s.step event = some s')
    {request : Nat} (haccepted : s.requests request ≠ none) : s'.rows request = s.rows request := by
  have hsame (hrequests : s'.requests = s.requests) : s'.rows request = s.rows request := by
    rw [rows, rows, State.pending_congr (congrFun hrequests request)]
  have hupdate {other : Nat} {pending : PendingRequest}
      (hrequest : other = request → pending.request = (s.pending request).request)
      (hrequests : s'.requests = Function.update s.requests other (some pending)) :
      s'.rows request = s.rows request := by
    by_cases hother : other = request
    · subst hother
      have hpending : s'.pending other = pending := by
        apply State.pending_of_some
        rw [hrequests, Function.update_self]
      rw [rows, rows, hpending, hrequest rfl]
    · rw [rows, rows, State.pending_congr]
      rw [hrequests, Function.update_of_ne (Ne.symm hother)]
  cases event with
  | tick | cancel =>
    cases hstep
    exact hsame rfl
  | submit other call =>
    simp only [State.step] at hstep
    split at hstep <;> cases hstep
    exact hsame rfl
  | submitter other =>
    simp only [State.step, State.runSubmit] at hstep
    split at hstep
    case h_3 call enqueued_at deadline hpc =>
      have hfresh := hsound.submits other
      rw [hpc] at hfresh
      cases hstep
      obtain hrequests | hrequests := s.enqueue_requests other call enqueued_at deadline
      · exact hsame hrequests
      · refine hupdate ?_ hrequests
        rintro rfl
        exact absurd hfresh haccepted
    case h_4 =>
      split at hstep
      · cases hstep
        exact hsame rfl
      · split at hstep <;> cases hstep
        exact hsame rfl
    case h_6 =>
      cases hstep
      exact @hupdate other _ (fun hother => by rw [hother]) rfl
    all_goals
      cases hstep
      try exact hsame rfl
  | notifySubmitted other woken =>
    simp only [State.step, State.notifySubmitted] at hstep
    split at hstep
    · obtain ⟨t, hnotify, rfl⟩ := Option.map_eq_some_iff.mp hstep
      apply hsame
      rw [State.notifyOne_eq hnotify]
      rfl
    · cases hstep
  | worker worker =>
    obtain hrequests | ⟨other, -, result, hsets⟩ :=
      ((State.runWorker_works hstep).frame (hsound.workers worker)).requests
    · exact hsame hrequests
    · exact hupdate (fun hother => by rw [hother]) hsets.requests
  | notifyErased worker woken =>
    obtain ⟨t, pc', hnotify, -, rfl⟩ := State.notifyErased_quiet hstep
    apply hsame
    rw [State.notifyOne_eq hnotify]
    rfl
  | wake worker =>
    simp only [State.step] at hstep
    split at hstep <;> cases hstep
    exact hsame rfl
  | infer worker outcome =>
    obtain ⟨pc', -, rfl⟩ := State.infer_quiet hstep
    exact hsame rfl
  | undefined worker =>
    simp only [State.step] at hstep
    split at hstep <;> cases hstep
    exact hsame rfl
  | stopAccepting thread | beginDrain thread =>
    simp only [State.step] at hstep
    split at hstep <;> cases hstep
    exact hsame rfl
  | drain thread =>
    simp only [State.step, State.runDrain] at hstep
    split at hstep
    case h_2 =>
      split at hstep <;> cases hstep
      exact hsame rfl
    case h_5 =>
      split at hstep <;> cases hstep
      · exact hupdate (fun hother => by rw [hother]) rfl
      · exact hsame rfl
    all_goals
      cases hstep
      try exact hsame rfl

theorem State.Within.frame {batch : List Nat} (hwithin : s.Within batch)
    (hrows : ∀ request ∈ batch, s'.rows request = s.rows request) : s'.Within batch := by
  refine ⟨?_, ?_⟩
  · intro request hmem
    rw [hrows request hmem]
    exact hwithin.1 request hmem
  · rw [List.map_congr_left hrows]
    exact hwithin.2

/-- The running sum stays right while the requests keep their rows. -/
theorem Formation.Counts.frame {formation : Formation} (hcounts : formation.Counts s)
    (hrows : ∀ request ∈ formation.batch, s'.rows request = s.rows request) : formation.Counts s' := by
  refine ⟨hcounts.nonempty, ?_, ?_⟩
  · intro first hbatch
    rw [hcounts.lone first hbatch]
    exact congrArg castSize (hrows first (by simp [hbatch])).symm
  · intro hlength
    obtain ⟨hwithin, hmerged⟩ := hcounts.several hlength
    refine ⟨hwithin.frame hrows, ?_⟩
    rw [hmerged, List.map_congr_left hrows]

/-- What is in a batch under way is in the worker's hands. -/
theorem WorkerPc.owned_of_formation {pc : WorkerPc} {formation : Formation} (hformation : pc.formation = some formation)
    {request : Nat} (hmem : request ∈ formation.batch) : request ∈ pc.owned := by
  cases pc with
  | expiring =>
    cases hformation
    exact List.mem_append_right _ hmem
  | deciding | locking | formWaiting | rescanning | joinNotifying | joined | formed =>
    cases hformation
    exact hmem
  | _ => cases hformation

theorem WorkerPc.Counts.frame {pc : WorkerPc} (hcounts : pc.Counts s)
    (hrows : ∀ request ∈ pc.owned, s'.rows request = s.rows request) : pc.Counts s' := by
  refine ⟨?_, ?_⟩
  · intro formation hformation
    apply (hcounts.forming formation hformation).frame
    intro request hmem
    exact hrows request (pc.owned_of_formation hformation hmem)
  · rintro batch rfl hlength
    exact (hcounts.formed batch rfl hlength).frame hrows

/-- A worker that neither starts nor extends nor ends a batch. -/
theorem WorkerPc.Counts.kept {pc pc' : WorkerPc} (hcounts : pc.Counts s)
    (hformation : pc'.formation = pc.formation ∨ pc'.formation = none)
    (hprocessing : ∀ batch, pc' = .processing batch → pc = .processing batch) : pc'.Counts s := by
  refine ⟨?_, ?_⟩
  · intro formation hsome
    obtain hsame | hnone := hformation
    · exact hcounts.forming formation (hsame ▸ hsome)
    · rw [hnone] at hsome
      cases hsome
  · intro batch hpc
    exact hcounts.formed batch (hprocessing batch hpc)

theorem WorkerPc.Quiet.formation {pc pc' : WorkerPc} (hquiet : pc.Quiet pc') (hforming : ∀ first, pc ≠ .forming first) :
    pc'.formation = pc.formation ∧ ∀ batch, pc' ≠ .processing batch := by
  cases hquiet with
  | alone first | forming first => exact absurd rfl (hforming first)
  | _ => exact ⟨rfl, nofun⟩

theorem wakeWorker_formation (pc : WorkerPc) :
    (State.wakeWorker pc).formation = pc.formation ∧
      ∀ batch, State.wakeWorker pc = .processing batch → pc = .processing batch := by
  cases pc <;> first | exact ⟨rfl, fun _ hbatch => hbatch⟩ | exact ⟨rfl, nofun⟩

/-- Away from the loop a worker leaves its batch as it is. -/
theorem State.Works.formation (hworks : s.Works worker s')
    (hforming : ∀ first, s.workers worker ≠ .forming first)
    (hlocking : ∀ formation delay_elapsed, s.workers worker ≠ .locking formation delay_elapsed)
    (hrescanning : ∀ formation delay_elapsed iterator, s.workers worker ≠ .rescanning formation delay_elapsed iterator)
    (hformed : ∀ formation, s.workers worker ≠ .formed formation) :
    ((s'.workers worker).formation = (s.workers worker).formation ∨ (s'.workers worker).formation = none) ∧
      ∀ batch, s'.workers worker ≠ .processing batch := by
  have hset {t : State setup} {pc' : WorkerPc} (hpc' : pc'.formation = none ∧ ∀ batch, pc' ≠ .processing batch) :
      (((t.setWorker worker pc').workers worker).formation = (s.workers worker).formation ∨
          ((t.setWorker worker pc').workers worker).formation = none) ∧
        ∀ batch, (t.setWorker worker pc').workers worker ≠ .processing batch := by
    rw [State.setWorker_self]
    exact ⟨.inr hpc'.1, hpc'.2⟩
  cases hworks with
  | quiet pc' hquiet =>
    rw [State.setWorker_self]
    exact (hquiet.formation hforming).imp_left .inl
  | scanned formation delay_elapsed position made_progress hpc =>
    obtain hpc | ⟨iterator, hpc⟩ := hpc
    · exact absurd hpc (hlocking formation delay_elapsed)
    · exact absurd hpc (hrescanning formation delay_elapsed iterator)
  | formed formation metrics_ hpc => exact absurd hpc (hformed formation)
  | performed next op ops hpc hperform =>
    have hperforms (ops' : List WorkerOp) : ((next ops').formation = (s.workers worker).formation ∨
        (next ops').formation = none) ∧ ∀ batch, next ops' ≠ .processing batch := by
      generalize s.workers worker = pc at hpc
      cases hpc with
      | expiring => exact ⟨.inl rfl, nofun⟩
      | sweepExpiring | finishing | throwing => exact ⟨.inr rfl, nofun⟩
    cases State.perform_performed hperform with
    | kept ops' =>
      rw [State.setWorker_self]
      exact hperforms ops'
    | dropped | set =>
      rw [State.setWorker_self]
      exact hperforms ops
    | terminated => exact hset ⟨rfl, nofun⟩
  | _ => exact hset ⟨rfl, nofun⟩

/-- The running sum is right at the start. -/
theorem State.form_counts (s : State setup) (first : Nat) : (s.form first).Counts s := by
  unfold State.form
  dsimp only
  split
  · refine ⟨nofun, ?_⟩
    rintro batch hbatch hlength
    cases hbatch
    simp at hlength
  · refine ⟨?_, nofun⟩
    rintro formation hformation
    cases hformation
    refine ⟨by simp, ?_, by simp⟩
    rintro other hbatch
    cases hbatch
    have hlt : s.batchSize first < 2 ^ 64 := by
      rw [State.batchSize, castSize]
      omega
    simp only [State.mergedBatchDimension, sumSizes, List.map_cons, List.map_nil, List.foldl_cons, List.foldl_nil,
      Nat.zero_add]
    exact Nat.mod_eq_of_lt hlt

/-- The running sum is right after a scan that counts exactly. -/
theorem State.runScan_counts {formation : Formation} (hcounts : formation.Counts s) {delay_elapsed : Bool}
    {position : Nat} {made_progress : Bool}
    (hexact : s.joinsExactly formation (s.queue_.drop position) = true) :
    ((s.runScan worker formation delay_elapsed position made_progress).workers worker).Counts s := by
  have hforming {pc : WorkerPc} (hpc : pc.formation = some formation) (hother : ∀ batch, pc ≠ .processing batch) :
      pc.Counts s := by
    refine ⟨?_, fun batch hbatch => absurd hbatch (hother batch)⟩
    intro other hsome
    rw [hpc] at hsome
    cases hsome
    exact hcounts
  rw [runScan, State.setWorker_self]
  split
  · split
    · exact hforming rfl (by rintro _ ⟨⟩)
    · split <;> exact hforming rfl (by rintro _ ⟨⟩)
  · exact hforming rfl (by rintro _ ⟨⟩)
  · next next hjoined =>
    obtain ⟨hfound, hinTime, hfits⟩ := State.scan_joined hjoined
    rw [joinsExactly, hfound] at hexact
    have hjoin : s.exact formation next = true := by simpa [hinTime] using hexact
    refine ⟨?_, by rintro _ ⟨⟩⟩
    intro other hsome
    cases hsome
    exact hcounts.join hjoin hfits

/-- A worker's own step keeps its sum right, unless it adds a request that does
not count exactly. -/
theorem State.runWorker_limit (hstep : s.runWorker worker = some s') (hexact : countsExactly s (.worker worker) = true)
    (hcounts : (s.workers worker).Counts s) : (s'.workers worker).Counts s := by
  cases hpc : s.workers worker with
  | forming first =>
    simp only [State.runWorker, hpc, Option.some.injEq] at hstep
    subst hstep
    rw [State.setWorker_self]
    exact s.form_counts first
  | locking formation delay_elapsed =>
    rw [hpc] at hcounts
    simp only [State.runWorker, hpc] at hstep
    simp only [countsExactly, hpc] at hexact
    split at hstep
    · cases hstep
      rw [State.setWorker_self]
      exact hcounts.kept (.inl rfl) (by rintro _ ⟨⟩)
    · next hopen =>
      cases hstep
      refine State.runScan_counts (hcounts.forming formation rfl) ?_
      simpa [hopen] using hexact
  | rescanning formation delay_elapsed iterator =>
    rw [hpc] at hcounts
    simp only [State.runWorker, hpc] at hstep
    simp only [countsExactly, hpc] at hexact
    split at hstep
    · cases hstep
      exact State.runScan_counts (hcounts.forming formation rfl) hexact
    · cases hstep
      rw [State.setWorker_self]
      exact hcounts.kept (.inr rfl) (by rintro _ ⟨⟩)
  | formed formation =>
    rw [hpc] at hcounts
    simp only [State.runWorker, hpc, Option.some.injEq] at hstep
    subst hstep
    rw [State.setWorker_self]
    refine ⟨by rintro _ ⟨⟩, ?_⟩
    intro batch hbatch hlength
    cases hbatch
    exact ((hcounts.forming formation rfl).several hlength).1
  | _ =>
    obtain ⟨hformation, hprocessing⟩ := (State.runWorker_works hstep).formation (by rw [hpc]; rintro _ ⟨⟩)
      (by rw [hpc]; rintro _ _ ⟨⟩) (by rw [hpc]; rintro _ _ _ ⟨⟩) (by rw [hpc]; rintro _ ⟨⟩)
    exact hcounts.kept hformation fun batch hbatch => absurd hbatch (hprocessing batch)

theorem State.Sound.owned_accepted_before (hsound : s.Sound) (hsound' : s'.Sound) (hstep : s.runWorker worker = some s')
    {request : Nat} (hmem : request ∈ (s'.workers worker).owned) : s.requests request ≠ none := by
  have haccepted := hsound'.accepted_of_owned hmem
  obtain hrequests | ⟨other, howned, result, hsets⟩ :=
    ((State.runWorker_works hstep).frame (hsound.workers worker)).requests
  · rw [← hrequests]
    exact haccepted
  · by_cases hother : request = other
    · rw [hother]
      exact hsound.accepted_of_owned howned
    · rw [hsets.requests, Function.update_of_ne hother] at haccepted
      exact haccepted

/-- Every step that counts exactly leaves the running sums right. -/
theorem State.Sound.step_limit (hsound : s.Sound) (hcounts : ∀ worker, (s.workers worker).Counts s)
    {event : Event setup} (hfresh : scansFresh s event = true) (hexact : countsExactly s event = true)
    (hstep : s.step event = some s') (worker : Fin setup.config.instances) : (s'.workers worker).Counts s' := by
  -- A worker that owns what it owned and keeps its batch keeps its sum.
  have hkept {pc' : WorkerPc} (howned : pc'.owned = (s.workers worker).owned)
      (hpc : pc'.formation = (s.workers worker).formation)
      (hprocessing : ∀ batch, pc' = .processing batch → s.workers worker = .processing batch) : pc'.Counts s' := by
    apply ((hcounts worker).kept (.inl hpc) hprocessing).frame
    intro request hmem
    rw [howned] at hmem
    exact hsound.step_rows hstep (hsound.accepted_of_owned hmem)
  have hsound' := (hsound.step hfresh hstep).sound
  by_cases hactor : event.actor = some worker
  · cases event with
    | worker actor =>
      obtain rfl : actor = worker := Option.some.inj hactor
      apply (State.runWorker_limit hstep hexact (hcounts actor)).frame
      intro request hmem
      exact hsound.step_rows hstep (hsound.owned_accepted_before hsound' hstep hmem)
    | notifyErased actor woken =>
      obtain rfl : actor = worker := Option.some.inj hactor
      obtain ⟨formation, delay_elapsed, iterator, ops, hpc, hpc'⟩ | ⟨formation, hpc, hpc'⟩ :=
        State.notifyErased_self hstep
      · rw [hpc']
        exact hkept (by rw [hpc]; rfl) (by rw [hpc]; rfl) nofun
      · rw [hpc']
        exact hkept (by rw [hpc]; rfl) (by rw [hpc]; rfl) nofun
    | infer actor outcome =>
      obtain rfl : actor = worker := Option.some.inj hactor
      obtain ⟨pc', hquiet, hstepped⟩ := State.infer_quiet hstep
      have hforming : ∀ first, s.workers actor ≠ .forming first := by
        intro first hpc
        simp only [State.step, State.infer, hpc] at hstep
        cases hstep
      obtain ⟨hformation, hprocessing⟩ := hquiet.formation hforming
      rw [hstepped, State.setWorker_self, ← hstepped]
      exact hkept hquiet.owned hformation fun batch hbatch => absurd hbatch (hprocessing batch)
    | undefined actor formation queue_ =>
      rw [hsound.step_undefined] at hstep
      cases hstep
    | _ => cases hactor
  · obtain hsame | hwoken := hsound.step_others hstep hactor
    · rw [hsame]
      exact hkept rfl rfl fun _ hbatch => hbatch
    · rw [hwoken]
      exact hkept (wakeWorker_owned _) (wakeWorker_formation _).1 (wakeWorker_formation _).2

end Steps

end neuriplo.batch
