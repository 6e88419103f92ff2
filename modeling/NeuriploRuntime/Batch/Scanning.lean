import NeuriploRuntime.Batch.Soundness

open neuriplo.scheduler neuriplo.tensor transition

namespace neuriplo.batch

variable {setup : Setup}

section Steps

variable {s s' : State setup} {worker : Fin setup.config.instances}

/-- One call of `submit` moves. -/
theorem State.Sound.setSubmit (hsound : s.Sound) (request : Nat) (pc' : SubmitPc) (metrics_ : SchedulerMetrics)
    (cancel_tokens : Nat → Bool) (hpc' : pc'.Sound s request) :
    s.Steps ({ s with metrics_, cancel_tokens }.setSubmit request pc') := by
  refine hsound.move (le_refl _) rfl rfl (fun _ => .inl rfl) id ?_ (fun _ => .inl rfl)
  exact update_or (hpc'.keeps (.of_same (le_refl _) rfl))

/-- A request that is queued keeps the scheduler sound. -/
theorem State.Sound.enqueued (hsound : s.Sound) {request : Nat} (hfresh : s.requests request = none)
    (call : ExecutionRequest) (enqueued_at deadline : Int) (metrics_ : SchedulerMetrics)
    (haccepting : s.draining_ = false) :
    s.Steps ({ s with
      queue_ := s.queue_ ++ [request]
      generation := s.generation + 1
      metrics_
      requests := Function.update s.requests request
        (some { request := call, enqueued_at, deadline }) }.setSubmit request .notifying) := by
  let t : State setup := { s with
    queue_ := s.queue_ ++ [request]
    generation := s.generation + 1
    metrics_
    requests := Function.update s.requests request
      (some { request := call, enqueued_at, deadline }) }.setSubmit request .notifying
  have hrequest {other : Nat} (hother : other ≠ request) : t.requests other = s.requests other :=
    Function.update_of_ne hother ..
  have hsome : t.requests request = some { request := call, enqueued_at, deadline } := Function.update_self ..
  have hself := State.pending_of_some hsome
  have hkeeps {other : Nat} (hother : other ≠ request) : s.Keeps t other := .of_same (le_refl _) (hrequest hother)
  have hplaces (other : Nat) : t.places other = s.places other + [request].count other := by
    unfold State.places
    change (s.queue_ ++ [request]).count other + _ = _
    rw [List.count_append]
    exact Nat.add_right_comm ..
  have hopen {other : Nat} (hother : other ≠ request) (hopen : s.Open other) : t.Open other := by
    unfold State.Open at hopen ⊢
    rw [State.pending_congr (hrequest hother)]
    exact hopen
  have howned {worker : Fin setup.config.instances} {other : Nat} (hmem : other ∈ (s.workers worker).owned) :
      other ≠ request := by
    rintro rfl
    exact hsound.accepted_of_owned hmem hfresh
  have haccepted {other : Nat} (haccepted : s.requests other ≠ none) : other ≠ request := by
    rintro rfl
    exact haccepted hfresh
  change s.Steps t
  have hopened : ¬ s.Closed := by
    rintro ⟨hdraining, -⟩
    rw [haccepting] at hdraining
    cases hdraining
  refine ⟨⟨?_, ?_, ?_, ?_, ?_, ?_, ?_, ?_, ?_⟩, ?_, ?_, ?_⟩
  · intro other
    rw [hplaces]
    by_cases hother : other = request
    · subst hother
      rw [hsound.absent other hfresh, List.count_singleton_self]
    · rw [List.count_eq_zero_of_not_mem (fun hmem => hother (List.mem_singleton.mp hmem))]
      exact hsound.places other
  · intro other hnone
    by_cases hother : other = request
    · subst hother
      rw [hsome] at hnone
      cases hnone
    · rw [hplaces, List.count_eq_zero_of_not_mem (fun hmem => hother (List.mem_singleton.mp hmem))]
      rw [hrequest hother] at hnone
      exact hsound.absent other hnone
  · intro other haccepted hzero
    rw [hplaces] at hzero
    have hother : other ≠ request := by
      rintro rfl
      rw [List.count_singleton_self] at hzero
      omega
    rw [hrequest hother] at haccepted
    have hlost := hsound.lost other haccepted (by omega)
    exact hlost.imp (hkeeps hother).closed (hkeeps hother).late
  · intro other hmem
    obtain hqueued | hself' := List.mem_append.mp hmem
    · apply hopen ?_ (hsound.queue other hqueued)
      rintro rfl
      have hzero := hsound.absent other hfresh
      have hpos := List.count_pos_iff.mpr hqueued
      unfold State.places at hzero
      omega
    · rw [List.mem_singleton.mp hself']
      unfold State.Open
      rw [hself]
  · intro worker
    refine (hsound.workers worker).frame (le_refl _) ?_ ?_
    · intro other hmem
      exact hopen (howned hmem)
    · intro other hmem
      exact (hkeeps (howned hmem)).late
  · intro other hcancelled
    by_cases hother : other = request
    · subst hother
      rw [hself] at hcancelled
      cases hcancelled
    · obtain hwas | hlate := (hkeeps hother).cancelled hcancelled
      · exact (hkeeps hother).late (hsound.cancelled other hwas)
      · exact hlate
  · intro other
    by_cases hother : other = request
    · subst hother
      have hsubmit : t.submits other = .notifying := Function.update_self ..
      rw [hsubmit]
      intro hnone
      rw [hsome] at hnone
      cases hnone
    · have hsubmit : t.submits other = s.submits other := Function.update_of_ne hother ..
      rw [hsubmit]
      exact (hsound.submits other).keeps (hkeeps hother)
  · intro worker hexited
    exact absurd (hsound.exited worker hexited) hopened
  · intro thread
    have hwas := hsound.drains thread
    change (s.drains thread).Sound t
    cases hpc : s.drains thread with
    | rejecting =>
      rw [hpc] at hwas
      exact absurd hwas hopened
    | answering pending =>
      rw [hpc] at hwas
      exact hwas
    | _ => trivial
  · intro other hsome'
    rw [hrequest (haccepted hsome')]
    exact hsome'
  · intro other hsome'
    have hother : other ∉ [request] := fun hmem => haccepted hsome' (List.mem_singleton.mp hmem)
    unfold State.handouts
    change (s.queue_ ++ [request]).count other + _ ≤ _
    rw [List.count_append, List.count_eq_zero_of_not_mem hother]
    exact le_refl _
  · intro other result hpromise
    by_cases hother : other = request
    · subst hother
      unfold State.pending at hpromise
      rw [hfresh] at hpromise
      cases hpromise
    · exact (hkeeps hother).promise result hpromise

/-- A submitter that gave up says so to the workers. -/
theorem State.Sound.cancel (hsound : s.Sound) {request : Nat} (haccepted : s.requests request ≠ none)
    (hlate : s.Late request) (pc' : SubmitPc)
    (hpc' : ∀ t : State setup, s.Keeps t request → pc'.Sound t request) :
    s.Steps ((s.setRequest request { s.pending request with cancelled := true }).setSubmit request pc') := by
  let t : State setup := (s.setRequest request { s.pending request with cancelled := true }).setSubmit request pc'
  have hsome : t.requests request = some { s.pending request with cancelled := true } := Function.update_self ..
  have hself := State.pending_of_some hsome
  have hkeeps (other : Nat) : s.Keeps t other := by
    by_cases hother : other = request
    · subst hother
      refine ⟨le_refl _, ?_, by rw [hself], ?_, ?_⟩
      · rw [hsome]
        exact iff_of_false nofun haccepted
      · intro result hpromise
        rw [hself]
        exact hpromise
      · intro _
        right
        unfold State.Late
        rw [hself]
        exact hlate
    · exact .of_same (le_refl _) (Function.update_of_ne hother ..)
  have hopen {other : Nat} (hopen : s.Open other) : t.Open other := by
    by_cases hother : other = request
    · subst hother
      unfold State.Open
      rw [hself]
      exact hopen
    · have hsame : t.requests other = s.requests other := Function.update_of_ne hother ..
      unfold State.Open
      rw [State.pending_congr hsame]
      exact hopen
  change s.Steps t
  refine hsound.next hkeeps (.of_same rfl (fun _ => rfl) (fun _ => rfl)) ?_ ?_ ?_ id (fun _ => .inl) (fun _ => .inl rfl)
  · intro other hmem
    exact hopen (hsound.queue other hmem)
  · intro worker
    exact (hsound.workers worker).frame (le_refl _) (fun _ _ => hopen) (fun other _ => (hkeeps other).late)
  · exact update_or (hpc' t (hkeeps request))

/-- A step of `submit` keeps the scheduler sound. -/
theorem State.Sound.runSubmit (hsound : s.Sound) {request : Nat} (hstep : s.runSubmit request = some s') :
    s.Steps s' := by
  have hcall := hsound.submits request
  have hmove (pc' : SubmitPc) (hpc' : pc'.Sound s request) : s.Steps (s.setSubmit request pc') :=
    hsound.setSubmit request pc' s.metrics_ s.cancel_tokens hpc'
  unfold State.runSubmit at hstep
  split at hstep
  case h_1 call hpc =>
    rw [hpc] at hcall
    cases hstep
    apply hmove
    split
    · exact .inl hcall
    · exact hcall
  case h_2 call hpc =>
    rw [hpc] at hcall
    cases hstep
    exact hmove _ hcall
  case h_3 call enqueued_at deadline hpc =>
    rw [hpc] at hcall
    cases hstep
    unfold State.enqueue
    split
    · exact hmove _ (.inl hcall)
    · split
      · exact hsound.setSubmit request _ _ s.cancel_tokens (.inl hcall)
      · exact hsound.enqueued hcall call enqueued_at deadline _ (Bool.not_eq_true _ ▸ ‹_›)
  case h_4 hpc =>
    rw [hpc] at hcall
    split at hstep
    · cases hstep
      exact hmove _ (.inr (.inl ‹_›))
    · split at hstep <;> cases hstep
      exact hmove _ ⟨hcall, ‹_›⟩
  case h_5 hpc =>
    rw [hpc] at hcall
    cases hstep
    exact hsound.setSubmit request _ s.metrics_ _ hcall
  case h_6 hpc =>
    rw [hpc] at hcall
    cases hstep
    refine hsound.cancel hcall.1 hcall.2 _ ?_
    intro t hkeeps
    exact ⟨fun hnone => hcall.1 (hkeeps.accepted.mp hnone), hkeeps.late hcall.2⟩
  case h_7 hpc =>
    rw [hpc] at hcall
    cases hstep
    exact hsound.setSubmit request _ _ s.cancel_tokens hcall
  case h_8 hpc =>
    rw [hpc] at hcall
    cases hstep
    exact hmove _ (.inr (.inr ⟨rfl, hcall.2⟩))
  case h_9 => cases hstep

/-- To begin a drain keeps the scheduler sound. -/
theorem State.Sound.setDrain (hsound : s.Sound) (thread : Nat) (draining_ : Bool)
    (workers : Fin setup.config.instances → WorkerPc) (pc' : DrainPc)
    (hdraining : s.draining_ = true → draining_ = true)
    (hworkers : ∀ worker, workers worker = s.workers worker ∨ workers worker = State.wakeWorker (s.workers worker))
    (hpc' : ∀ t : State setup, (s.Closed → t.Closed) → pc'.Sound t) :
    s.Steps ({ s with draining_, workers }.setDrain thread pc') := by
  refine hsound.move (le_refl _) rfl rfl hworkers hdraining (fun _ => .inl rfl) ?_
  have hclosed : pc'.Sound ({ s with draining_, workers }.setDrain thread pc') :=
    hpc' _ fun ⟨hdraining', hempty⟩ => ⟨hdraining hdraining', hempty⟩
  exact @update_or _ _ _ s.drains thread _ (fun _ pc => pc.Sound _) hclosed

/-- A step of a drain keeps the scheduler sound. -/
theorem State.Sound.runDrain (hsound : s.Sound) {thread : Nat} (hstep : s.runDrain thread = some s') : s.Steps s' := by
  have hwas := hsound.drains thread
  unfold State.runDrain at hstep
  split at hstep
  · cases hstep
    refine hsound.setDrain thread s.draining_ _ _ id (fun _ => .inr rfl) ?_
    intro t _
    split <;> trivial
  · split at hstep <;> cases hstep
    rename_i hall
    refine hsound.setDrain thread s.draining_ s.workers _ id (fun _ => .inl rfl) ?_
    intro t hclosed
    -- there is a worker, and it has left an empty queue behind
    let first : Fin setup.config.instances := ⟨0, setup.hinstances⟩
    have hexited := List.all_eq_true.mp hall first (List.mem_finRange first)
    apply hclosed
    apply hsound.exited first
    cases hpc : s.workers first with
    | exited => rfl
    | _ =>
      rw [hpc] at hexited
      cases hexited
  · rename_i hpc
    rw [hpc] at hwas
    obtain ⟨hdraining, hempty⟩ := hwas
    cases hstep
    rw [hempty]
    have hsame : ({ s with queue_ := [], generation := s.generation + 1 } : State setup).queue_ = s.queue_ :=
      hempty.symm
    refine hsound.move (le_refl _) rfl hsame (fun _ => .inl rfl) id (fun _ => .inl rfl) ?_
    exact @update_or _ _ _ s.drains thread (.answering []) (fun _ pc => pc.Sound _) rfl
  · cases hstep
    exact hsound.setDrain thread s.draining_ s.workers _ id (fun _ => .inl rfl) fun _ _ => trivial
  · rename_i request pending hpc
    rw [hpc] at hwas
    cases hwas
  · cases hstep

/-- A worker goes on with its iterator only while the queue is as it left it. -/
def scansFresh (s : State setup) : Event setup → Bool
  | .worker worker =>
    match s.workers worker with
    | .rescanning _ _ iterator => iterator.generation = s.generation
    | _ => true
  | _ => true

theorem fresh_of_scansFresh (hfresh : scansFresh s (.worker worker) = true) : (s.workers worker).Fresh s := by
  unfold WorkerPc.Fresh
  split
  · rename_i hpc
    simp only [scansFresh, hpc] at hfresh
    exact of_decide_eq_true hfresh
  · trivial

/-- No worker has gone on with an iterator that is not valid. -/
theorem State.Sound.step_undefined (hsound : s.Sound) (worker : Fin setup.config.instances) (formation : Formation)
    (queue_ : List Nat) : s.step (.undefined worker formation queue_) = none := by
  have hworker := hsound.workers worker
  simp only [State.step]
  split
  · next hpc =>
    rw [hpc] at hworker
    exact hworker.elim
  · rfl

/-- A worker is left alone by the steps of the others, or woken. -/
theorem State.Sound.step_others (hsound : s.Sound) {event : Event setup} (hstep : s.step event = some s')
    {worker : Fin setup.config.instances} (hother : event.actor ≠ some worker) :
    s'.workers worker = s.workers worker ∨ s'.workers worker = State.wakeWorker (s.workers worker) := by
  have hne {acting : Fin setup.config.instances} (hactor : event.actor = some acting) : worker ≠ acting := by
    rintro rfl
    exact hother hactor
  cases event with
  | worker acting =>
    obtain ⟨pc', hworkers⟩ := ((State.runWorker_works hstep).frame (hsound.workers acting)).workers
    rw [hworkers, Function.update_of_ne (hne rfl)]
    exact .inl rfl
  | notifyErased acting woken =>
    obtain ⟨t, pc', hnotify, -, rfl⟩ := State.notifyErased_quiet hstep
    rw [State.setWorker_of_ne t (hne rfl)]
    exact (State.notifyOne_leaves hnotify).workers worker
  | infer acting outcome =>
    obtain ⟨pc', -, rfl⟩ := State.infer_quiet hstep
    rw [State.setWorker_of_ne s (hne rfl)]
    exact .inl rfl
  | undefined acting formation queue_ =>
    rw [hsound.step_undefined] at hstep
    cases hstep
  | _ => exact (State.step_leaves hstep rfl).workers worker

/-- Every step with valid iterators keeps the scheduler sound. -/
theorem State.Sound.step (hsound : s.Sound) {event : Event setup} (hfresh : scansFresh s event = true)
    (hstep : s.step event = some s') : s.Steps s' := by
  cases event with
  | tick elapsed =>
    cases hstep
    have hnow : s.now ≤ s.now + elapsed := by omega
    exact hsound.move hnow rfl rfl (fun _ => .inl rfl) id (fun _ => .inl rfl) (fun _ => .inl rfl)
  | cancel request =>
    cases hstep
    exact hsound.move (le_refl _) rfl rfl (fun _ => .inl rfl) id (fun _ => .inl rfl) (fun _ => .inl rfl)
  | submit request call =>
    simp only [State.step] at hstep
    split at hstep <;> cases hstep
    rename_i hpc
    have hcall := hsound.submits request
    rw [hpc] at hcall
    exact hsound.setSubmit request _ s.metrics_ s.cancel_tokens hcall
  | submitter request => exact hsound.runSubmit hstep
  | notifySubmitted request woken =>
    simp only [State.step, State.notifySubmitted] at hstep
    split at hstep
    · rename_i hpc
      obtain ⟨t, hnotify, rfl⟩ := Option.map_eq_some_iff.mp hstep
      have hwoken := hsound.notifyOne hnotify
      have hcall := hsound.submits request
      rw [hpc] at hcall
      have haccepted := hwoken.accepted request hcall
      exact hwoken.trans (hwoken.sound.setSubmit request .waiting t.metrics_ t.cancel_tokens haccepted)
    · cases hstep
  | worker worker => exact hsound.work (State.runWorker_works hstep) (fresh_of_scansFresh hfresh)
  | notifyErased worker woken =>
    obtain ⟨t, pc', hnotify, hquiet, rfl⟩ := State.notifyErased_quiet hstep
    have hwoken := hsound.notifyOne hnotify
    exact hwoken.trans (hwoken.sound.work (.quiet pc' hquiet) (hquiet.fresh t))
  | wake worker =>
    simp only [State.step] at hstep
    split at hstep <;> cases hstep
    exact hsound.setWoken worker
  | infer worker outcome =>
    obtain ⟨pc', hquiet, rfl⟩ := State.infer_quiet hstep
    exact hsound.work (.quiet pc' hquiet) (hquiet.fresh s)
  | undefined worker formation queue_ =>
    rw [hsound.step_undefined] at hstep
    cases hstep
  | stopAccepting thread =>
    simp only [State.step] at hstep
    split at hstep <;> cases hstep
    exact hsound.setDrain thread true s.workers _ (fun _ => rfl) (fun _ => .inl rfl) fun _ _ => trivial
  | beginDrain thread =>
    simp only [State.step] at hstep
    split at hstep <;> cases hstep
    exact hsound.setDrain thread true s.workers _ (fun _ => rfl) (fun _ => .inl rfl) fun _ _ => trivial
  | drain thread => exact hsound.runDrain hstep

end Steps

/-- The scheduler whose workers use valid iterators only. -/
def scanning (setup : Setup) (start : Int) : System (State setup) (Event setup) :=
  (system setup start).restrict fun s event => scansFresh s event = true

theorem sound_start (setup : Setup) (start : Int) : ({ now := start } : State setup).Sound := by
  have hplaces (request : Nat) : ({ now := start } : State setup).places request = 0 :=
    (Nat.zero_add _).trans (tally_eq_zero.mpr fun _ => rfl)
  refine ⟨?_, ?_, ?_, nofun, fun _ => nofun, nofun, fun _ => rfl, nofun, fun _ => trivial⟩
  · intro request
    rw [hplaces]
    exact Nat.zero_le 1
  · intro request _
    exact hplaces request
  · intro request haccepted
    exact absurd rfl haccepted

/-- In every run with valid iterators the scheduler is sound. -/
theorem sound_reachable {setup : Setup} {start : Int} {s : State setup} (hreach : (scanning setup start).Reachable s) :
    s.Sound := by
  refine @System.Reachable.invariant _ _ (scanning setup start) State.Sound ?_ ?_ s hreach
  · rintro s rfl
    exact sound_start setup start
  · intro s event s' _ hsound hstep
    exact (hsound.step hstep.2 hstep.1).sound

/-- What the steps of sound states keep holds from any moment of a run on. -/
theorem scanning_stable {setup : Setup} {start : Int} {holds : State setup → Prop}
    (hnext : ∀ s s', s.Sound → s.Steps s' → holds s → holds s')
    {history : List (State setup)} {s : State setup} (hrun : (scanning setup start).Run history s) :
    ∀ moment ∈ history, holds moment → holds s := by
  refine System.Run.stable ?_ hrun
  intro s event s' hreach hholds hstep
  have hsound := sound_reachable hreach
  exact hnext s s' hsound (hsound.step hstep.2 hstep.1) hholds

end neuriplo.batch
