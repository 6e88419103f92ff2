import NeuriploRuntime.Batch.Promises

open neuriplo.scheduler neuriplo.tensor transition

namespace neuriplo.batch

variable {setup : Setup}

/-- What a call of `submit` has done with its request, or may rely on. -/
def SubmitPc.Sound (s : State setup) (request : Nat) : SubmitPc → Prop
  | .notifying => s.requests request ≠ none
  | .waiting => s.requests request ≠ none
  | .expiring _ => s.requests request ≠ none ∧ s.Late request
  | .returned result => s.requests request = none ∨ (s.pending request).promise = some result ∨
      (result = makeTimeoutResult ∧ s.Late request)
  | _ => s.requests request = none

/-- The model drains and the queue is empty: it stays so. -/
def State.Closed (s : State setup) : Prop := s.draining_ = true ∧ s.queue_ = []

def DrainPc.Sound (s : State setup) : DrainPc → Prop
  | .rejecting => s.Closed
  | .answering pending => pending = []
  | _ => True

/-- Every request is in one place at most, only accepted ones are in any, and
what is in none was answered or is late. -/
structure State.Sound (s : State setup) : Prop where
  places : ∀ request, s.places request ≤ 1
  absent : ∀ request, s.requests request = none → s.places request = 0
  lost : ∀ request, s.requests request ≠ none → s.places request = 0 → ¬ s.Open request ∨ s.Late request
  queue : ∀ request ∈ s.queue_, s.Open request
  workers : ∀ worker, (s.workers worker).Sound s
  cancelled : ∀ request, (s.pending request).cancelled = true → s.Late request
  submits : ∀ request, (s.submits request).Sound s request
  exited : ∀ worker, s.workers worker = .exited → s.Closed
  drains : ∀ thread, (s.drains thread).Sound s

section Steps

variable {s s' : State setup} {worker : Fin setup.config.instances}

/-- A request in a worker's hands is there once. -/
theorem State.Sound.owned_count (hsound : s.Sound) (worker : Fin setup.config.instances) (request : Nat) :
    s.queue_.count request + (s.workers worker).owned.count request ≤ 1 := by
  have hplaces := hsound.places request
  have hle := le_tally (fun other => (s.workers other).owned.count request) worker
  unfold State.places at hplaces
  omega

/-- A request in a worker's hands is not in the queue. -/
theorem State.Sound.not_queued (hsound : s.Sound) {request : Nat} (hmem : request ∈ (s.workers worker).owned) :
    request ∉ s.queue_ := by
  intro hqueued
  have hpos := List.count_pos_iff.mpr hmem
  have hpos' := List.count_pos_iff.mpr hqueued
  have hle := hsound.owned_count worker request
  omega

/-- A request is in one worker's hands. -/
theorem State.Sound.owner_unique (hsound : s.Sound) {other : Fin setup.config.instances} {request : Nat}
    (hmem : request ∈ (s.workers worker).owned) (hmem' : request ∈ (s.workers other).owned) : other = worker := by
  by_contra hother
  have hpos := List.count_pos_iff.mpr hmem
  have hpos' := List.count_pos_iff.mpr hmem'
  have hplaces := hsound.places request
  have hle := add_le_tally (fun other => (s.workers other).owned.count request) hother
  unfold State.places at hplaces
  omega

/-- A request in a worker's hands was accepted. -/
theorem State.Sound.accepted_of_owned (hsound : s.Sound) {request : Nat} (hmem : request ∈ (s.workers worker).owned) :
    s.requests request ≠ none := by
  intro hnone
  have hzero := hsound.absent request hnone
  have hpos := List.count_pos_iff.mpr hmem
  have hle := le_tally (fun other => (s.workers other).owned.count request) worker
  unfold State.places at hzero
  omega

/-- What a step keeps of a request. -/
structure State.Keeps (s s' : State setup) (request : Nat) : Prop where
  now : s.now ≤ s'.now
  accepted : s'.requests request = none ↔ s.requests request = none
  deadline : (s'.pending request).deadline = (s.pending request).deadline
  promise : ∀ result, (s.pending request).promise = some result → (s'.pending request).promise = some result
  cancelled : (s'.pending request).cancelled = true → (s.pending request).cancelled = true ∨ s'.Late request

theorem State.Keeps.of_same {request : Nat} (hnow : s.now ≤ s'.now)
    (hrequest : s'.requests request = s.requests request) :
    s.Keeps s' request := by
  have hpending := State.pending_congr hrequest
  refine ⟨hnow, by rw [hrequest], by rw [hpending], ?_, ?_⟩
  · intro result hpromise
    rw [hpending, hpromise]
  · intro hcancelled
    rw [hpending] at hcancelled
    exact .inl hcancelled

/-- To set a promise keeps every request. -/
theorem State.Keeps.of_sets {set : Nat} {result : SchedulerResult} (hsets : s.Sets s' set result)
    (hnow : s'.now = s.now)
    (haccepted : s.requests set ≠ none) (request : Nat) : s.Keeps s' request := by
  by_cases hset : request = set
  · subst hset
    refine ⟨hnow.ge, ?_, by rw [hsets.pending], ?_, ?_⟩
    · rw [hsets.requests, Function.update_self]
      exact iff_of_false nofun haccepted
    · intro other hpromise
      have hopen := hsets.was
      unfold State.Open at hopen
      rw [hopen] at hpromise
      cases hpromise
    · intro hcancelled
      rw [hsets.pending] at hcancelled
      exact .inl hcancelled
  · refine .of_same hnow.ge ?_
    rw [hsets.requests, Function.update_of_ne hset]

theorem State.Keeps.late {request : Nat} (hkeeps : s.Keeps s' request) (hlate : s.Late request) : s'.Late request := by
  have hnow := hkeeps.now
  unfold State.Late at hlate ⊢
  rw [hkeeps.deadline]
  omega

theorem State.Keeps.closed {request : Nat} (hkeeps : s.Keeps s' request) (hclosed : ¬ s.Open request) :
    ¬ s'.Open request := by
  unfold State.Open at hclosed ⊢
  obtain ⟨result, hpromise⟩ := Option.ne_none_iff_exists'.mp hclosed
  rw [hkeeps.promise result hpromise]
  exact nofun

theorem SubmitPc.Sound.keeps {request : Nat} {pc : SubmitPc} (hsound : pc.Sound s request)
    (hkeeps : s.Keeps s' request) : pc.Sound s' request := by
  cases pc with
  | notifying => exact fun hnone => hsound (hkeeps.accepted.mp hnone)
  | waiting => exact fun hnone => hsound (hkeeps.accepted.mp hnone)
  | expiring => exact ⟨fun hnone => hsound.1 (hkeeps.accepted.mp hnone), hkeeps.late hsound.2⟩
  | returned result =>
    obtain hnone | hpromise | ⟨hresult, hlate⟩ := hsound
    · exact .inl (hkeeps.accepted.mpr hnone)
    · exact .inr (.inl (hkeeps.promise result hpromise))
    · exact .inr (.inr ⟨hresult, hkeeps.late hlate⟩)
  | _ => exact hkeeps.accepted.mpr hsound

/-- A step leads to a sound state, keeps what was accepted and what was answered,
and makes nothing that was accepted ready to be handed out again. -/
structure State.Steps (s s' : State setup) : Prop where
  sound : s'.Sound
  accepted : ∀ request, s.requests request ≠ none → s'.requests request ≠ none
  handouts : ∀ request, s.requests request ≠ none → s'.handouts request ≤ s.handouts request
  promise : ∀ request result, (s.pending request).promise = some result → (s'.pending request).promise = some result

/-- Sound steps follow each other. -/
theorem State.Steps.trans {t : State setup} (hfirst : s.Steps t) (hsecond : t.Steps s') : s.Steps s' := by
  refine ⟨hsecond.sound, ?_, ?_, ?_⟩
  · intro request haccepted
    exact hsecond.accepted request (hfirst.accepted request haccepted)
  · intro request haccepted
    exact (hsecond.handouts request (hfirst.accepted request haccepted)).trans (hfirst.handouts request haccepted)
  · intro request result hpromise
    exact hsecond.promise request result (hfirst.promise request result hpromise)

/-- The step rule: the requests keep what they have, and what moves is sound. -/
theorem State.Sound.next (hsound : s.Sound) (hkeeps : ∀ request, s.Keeps s' request) (hflows : s.Flows s')
    (hqueue : ∀ request ∈ s'.queue_, s'.Open request) (hworkers : ∀ worker, (s'.workers worker).Sound s')
    (hsubmits : ∀ request, s'.submits request = s.submits request ∨ (s'.submits request).Sound s' request)
    (hclosed : s.Closed → s'.Closed)
    (hexited : ∀ worker, s'.workers worker = .exited → s.workers worker = .exited ∨ s'.Closed)
    (hdrains : ∀ thread, s'.drains thread = s.drains thread ∨ (s'.drains thread).Sound s') : s.Steps s' := by
  refine ⟨⟨?_, ?_, ?_, hqueue, hworkers, ?_, ?_, ?_, ?_⟩, ?_, fun request _ => hflows.handouts request,
    fun request => (hkeeps request).promise⟩
  · intro request
    exact (hflows.places request).trans (hsound.places request)
  · intro request hnone
    have hzero := hsound.absent request ((hkeeps request).accepted.mp hnone)
    have hle := hflows.places request
    omega
  · intro request haccepted hzero
    by_cases hwas : s.places request = 0
    · have haccepted' : s.requests request ≠ none := fun hnone => haccepted ((hkeeps request).accepted.mpr hnone)
      exact (hsound.lost request haccepted' hwas).imp (hkeeps request).closed (hkeeps request).late
    · exact hflows.lost request (by omega)
  · intro request hcancelled
    obtain hwas | hlate := (hkeeps request).cancelled hcancelled
    · exact (hkeeps request).late (hsound.cancelled request hwas)
    · exact hlate
  · intro request
    obtain hsame | hpc := hsubmits request
    · rw [hsame]
      exact (hsound.submits request).keeps (hkeeps request)
    · exact hpc
  · intro worker hexit
    obtain hwas | hnow := hexited worker hexit
    · exact hclosed (hsound.exited worker hwas)
    · exact hnow
  · intro thread
    obtain hsame | hpc := hdrains thread
    · have hwas := hsound.drains thread
      rw [hsame]
      cases hpc : s.drains thread with
      | rejecting =>
        rw [hpc] at hwas
        exact hclosed hwas
      | answering pending =>
        rw [hpc] at hwas
        exact hwas
      | _ => trivial
    · exact hpc
  · intro request haccepted hnone
    exact haccepted ((hkeeps request).accepted.mp hnone)

/-- A worker's step keeps the scheduler sound. -/
theorem State.Sound.work (hsound : s.Sound) (hworks : s.Works worker s') (hfresh : (s.workers worker).Fresh s) :
    s.Steps s' := by
  have hpc := hsound.workers worker
  obtain ⟨⟨pc', hworkers⟩, hnow, hsubmits, hdrains, hdraining, hqueue, hrequests⟩ := hworks.frame hpc
  have hkeeps (request : Nat) : s.Keeps s' request := by
    obtain hsame | ⟨set, hmem, result, hsets⟩ := hrequests
    · exact .of_same hnow.ge (by rw [hsame])
    · exact .of_sets hsets hnow (hsound.accepted_of_owned hmem) request
  have hopen {request : Nat} (hother : ∀ set ∈ (s.workers worker).owned, request ≠ set) (hopen : s.Open request) :
      s'.Open request := by
    obtain hsame | ⟨set, hmem, result, hsets⟩ := hrequests
    · unfold State.Open State.pending
      rw [hsame]
      exact hopen
    · exact hsets.open_of_ne (hother set hmem) hopen
  refine hsound.next hkeeps (hworks.flows hpc hfresh hsound.cancelled) ?_ ?_ ?_ ?_ ?_ ?_
  · intro request hmem
    have hqueued := hqueue request hmem
    apply hopen ?_ (hsound.queue request hqueued)
    rintro set hset rfl
    exact hsound.not_queued hset hqueued
  · intro other
    by_cases hother : other = worker
    · subst hother
      refine hworks.sound hpc hfresh hsound.queue ?_
      intro request
      have hle := hsound.owned_count other request
      omega
    · rw [hworkers, Function.update_of_ne hother]
      refine (hsound.workers other).frame hnow.ge ?_ (fun request _ => (hkeeps request).late)
      intro request hmem
      apply hopen
      rintro set hset rfl
      exact hother (hsound.owner_unique hset hmem)
  · intro request
    exact .inl (by rw [hsubmits])
  · rintro ⟨hdrains', hempty⟩
    refine ⟨hdraining.trans hdrains', List.eq_nil_iff_forall_not_mem.mpr ?_⟩
    intro request hmem
    have hqueued := hqueue request hmem
    rw [hempty] at hqueued
    cases hqueued
  · intro other hexited
    by_cases hother : other = worker
    · subst hother
      exact .inr (hworks.leaves hexited)
    · rw [hworkers, Function.update_of_ne hother] at hexited
      exact .inl hexited
  · intro thread
    exact .inl (by rw [hdrains])

/-- A straight-line step does not set a promise twice. -/
theorem State.Sound.not_terminated (hsound : s.Sound) {next : List WorkerOp → WorkerPc} {op : WorkerOp}
    {ops : List WorkerOp} (hperforms : (s.workers worker).Performs next (op :: ops))
    (hperform : s.perform worker next ops op = some s') (active_batch : List Nat) :
    s'.workers worker ≠ .terminated active_batch := by
  have hnext (ops' : List WorkerOp) : next ops' ≠ .terminated active_batch := by
    generalize s.workers worker = pc at hperforms
    cases hperforms <;> exact nofun
  cases State.perform_performed hperform with
  | kept => exact State.setWorker_self _ worker _ ▸ hnext _
  | dropped => exact State.setWorker_self _ worker _ ▸ hnext _
  | set => exact State.setWorker_self _ worker _ ▸ hnext _
  | terminated request result hop hclosed =>
    exact absurd ((hsound.workers worker).open_of_setValue hperforms (by rw [hop]; rfl)) hclosed

theorem wakeWorker_owned (pc : WorkerPc) : (State.wakeWorker pc).owned = pc.owned := by
  cases pc <;> rfl

theorem wakeWorker_isEarly (pc : WorkerPc) : (State.wakeWorker pc).isEarly = pc.isEarly := by
  cases pc <;> rfl

theorem wakeWorker_sound {pc : WorkerPc} (hsound : pc.Sound s) : (State.wakeWorker pc).Sound s := by
  cases pc <;> exact hsound

theorem wakeWorker_exited {pc : WorkerPc} (hexited : State.wakeWorker pc = .exited) : pc = .exited := by
  cases pc <;> first | rfl | cases hexited

/-- The requests and the queue are left as they are, and workers at most wake up. -/
theorem State.Sound.move (hsound : s.Sound) (hnow : s.now ≤ s'.now) (hrequests : s'.requests = s.requests)
    (hqueue : s'.queue_ = s.queue_)
    (hworkers : ∀ worker, s'.workers worker = s.workers worker ∨
      s'.workers worker = State.wakeWorker (s.workers worker))
    (hdraining : s.draining_ = true → s'.draining_ = true)
    (hsubmits : ∀ request, s'.submits request = s.submits request ∨ (s'.submits request).Sound s' request)
    (hdrains : ∀ thread, s'.drains thread = s.drains thread ∨ (s'.drains thread).Sound s') : s.Steps s' := by
  have hkeeps (request : Nat) : s.Keeps s' request := .of_same hnow (by rw [hrequests])
  have hpending (request : Nat) : s'.pending request = s.pending request := State.pending_congr (by rw [hrequests])
  have hopen {request : Nat} (hopen : s.Open request) : s'.Open request := by
    unfold State.Open
    rw [hpending]
    exact hopen
  refine hsound.next hkeeps (.of_same hqueue ?_ ?_) ?_ ?_ hsubmits ?_ ?_ hdrains
  · intro worker
    obtain hsame | hwoken := hworkers worker
    · rw [hsame]
    · rw [hwoken, wakeWorker_owned]
  · intro worker
    obtain hsame | hwoken := hworkers worker
    · rw [hsame]
    · rw [hwoken, wakeWorker_isEarly]
  · intro request hmem
    rw [hqueue] at hmem
    exact hopen (hsound.queue request hmem)
  · intro worker
    have hpc : (s'.workers worker).Sound s := by
      obtain hsame | hwoken := hworkers worker
      · rw [hsame]
        exact hsound.workers worker
      · rw [hwoken]
        exact wakeWorker_sound (hsound.workers worker)
    exact hpc.frame hnow (fun request _ => hopen) (fun request _ => (hkeeps request).late)
  · rintro ⟨hdrains', hempty⟩
    exact ⟨hdraining hdrains', by rw [hqueue, hempty]⟩
  · intro worker hexited
    left
    obtain hsame | hwoken := hworkers worker
    · rw [← hsame]
      exact hexited
    · exact wakeWorker_exited (hwoken ▸ hexited)

/-- To wake a worker keeps the scheduler sound. -/
theorem State.Sound.setWoken (hsound : s.Sound) (woken : Fin setup.config.instances) :
    s.Steps (s.setWorker woken (State.wakeWorker (s.workers woken))) := by
  refine hsound.move (le_refl _) rfl rfl ?_ id (fun _ => .inl rfl) (fun _ => .inl rfl)
  exact @update_or _ _ _ s.workers woken _ (fun worker pc => pc = State.wakeWorker (s.workers worker)) rfl

/-- A notification keeps the scheduler sound. -/
theorem State.Sound.notifyOne (hsound : s.Sound) {woken : Option (Fin setup.config.instances)}
    (hnotify : s.notifyOne woken = some s') : s.Steps s' := by
  unfold State.notifyOne at hnotify
  split at hnotify
  · split at hnotify <;> cases hnotify
    exact hsound.setWoken _
  · split at hnotify <;> cases hnotify
    exact ⟨hsound, fun _ haccepted => haccepted, fun _ _ => le_refl _, fun _ _ hpromise => hpromise⟩

end Steps

end neuriplo.batch
