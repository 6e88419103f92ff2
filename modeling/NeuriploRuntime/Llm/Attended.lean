import NeuriploRuntime.Llm.Parting

open neuriplo.scheduler neuriplo.tensor transition

namespace neuriplo.llm

variable {setup : Setup}

section Steps

variable {s s' : State setup} {worker : Fin setup.config.kv_cache_slots}

/-- What was given up stays so. -/
theorem State.Keeps.givenUp {request : Nat} (hkeeps : s.Keeps s' request) (hgiven : s.GivenUp request) :
    s'.GivenUp request := by
  obtain ⟨pending, hpending, hcancelled⟩ := hgiven
  cases hfound : s'.requests request with
  | none =>
    rw [hkeeps.accepted.mp hfound] at hpending
    cases hpending
  | some pending' =>
    obtain ⟨found, hfound', -, -, hkept⟩ := hkeeps.pending pending' hfound
    rw [hpending, Option.some.injEq] at hfound'
    subst hfound'
    exact ⟨pending', hfound, hkept hcancelled⟩

/-- What was answered stays so. -/
theorem State.Keeps.closed {request : Nat} (hkeeps : s.Keeps s' request)
    (hclosed : ¬ s.Open request) : ¬ s'.Open request := by
  rintro ⟨pending', hpending', hopen⟩
  obtain ⟨pending, hpending, -, hpromise, -⟩ := hkeeps.pending pending' hpending'
  apply hclosed
  refine ⟨pending, hpending, ?_⟩
  cases hresult : pending.promise with
  | none => rfl
  | some result =>
    rw [hpromise result hresult] at hopen
    cases hopen

/-- The request was accepted, and its deadline has passed. -/
def State.Late (s : State setup) (request : Nat) : Prop :=
  ∃ pending, s.requests request = some pending ∧ pending.deadline ≤ s.now

/-- The request's promise is set to the result. -/
def State.Set (s : State setup) (request : Nat) (result : SchedulerResult) : Prop :=
  ∃ pending, s.requests request = some pending ∧ pending.promise = some result

/-- What a call of `submit` relies on, and what it returns. -/
def SubmitPc.Attended (s : State setup) (request : Nat) : SubmitPc → Prop
  | .waiting => s.requests request ≠ none
  | .expiring .setToken => s.Late request
  | .expiring .setCancelled => s.Late request
  | .expiring .countTimedOut => s.GivenUp request
  | .expiring .answer => s.GivenUp request
  | .returned result => s.requests request = none ∨ s.Set request result ∨
      (result = makeTimeoutResult ∧ s.GivenUp request)
  | _ => s.requests request = none

/-- What is late stays so. -/
theorem State.Keeps.late {request : Nat} (hkeeps : s.Keeps s' request) (hnow : s.now ≤ s'.now)
    (hlate : s.Late request) : s'.Late request := by
  obtain ⟨pending, hpending, hdeadline⟩ := hlate
  cases hfound : s'.requests request with
  | none =>
    rw [hkeeps.accepted.mp hfound] at hpending
    cases hpending
  | some pending' =>
    obtain ⟨found, hfound', hsame, -⟩ := hkeeps.pending pending' hfound
    rw [hpending, Option.some.injEq] at hfound'
    subst hfound'
    exact ⟨pending', hfound, by omega⟩

/-- A promise that is set stays so. -/
theorem State.Keeps.set {request : Nat} {result : SchedulerResult} (hkeeps : s.Keeps s' request)
    (hset : s.Set request result) : s'.Set request result := by
  obtain ⟨pending, hpending, hpromise⟩ := hset
  cases hfound : s'.requests request with
  | none =>
    rw [hkeeps.accepted.mp hfound] at hpending
    cases hpending
  | some pending' =>
    obtain ⟨found, hfound', -, hkept, -⟩ := hkeeps.pending pending' hfound
    rw [hpending, Option.some.injEq] at hfound'
    subst hfound'
    exact ⟨pending', hfound, hkept result hpromise⟩

/-- A call of `submit` goes on being attended to. -/
theorem SubmitPc.Attended.keeps {request : Nat} {pc : SubmitPc} (hattended : pc.Attended s request)
    (hkeeps : s.Keeps s' request) (hnow : s.now ≤ s'.now) : pc.Attended s' request := by
  cases pc with
  | waiting => exact fun hnone => hattended (hkeeps.accepted.mp hnone)
  | expiring expiry =>
    cases expiry with
    | setToken => exact hkeeps.late hnow hattended
    | setCancelled => exact hkeeps.late hnow hattended
    | countTimedOut => exact hkeeps.givenUp hattended
    | answer => exact hkeeps.givenUp hattended
  | returned result =>
    obtain hnone | hset | ⟨hresult, hgiven⟩ := hattended
    · exact .inl (hkeeps.accepted.mpr hnone)
    · exact .inr (.inl (hkeeps.set hset))
    · exact .inr (.inr ⟨hresult, hkeeps.givenUp hgiven⟩)
  | _ => exact hkeeps.accepted.mpr hattended

/-- Everything accepted is open while it is queued or in a worker's hands, and
what is in neither was answered or given up, which happens to late requests only. -/
structure State.Attended (s : State setup) : Prop where
  single : ∀ worker, (s.workers worker).Single
  queued : ∀ request ∈ s.queue_, s.Open request
  owned : ∀ worker request, (s.workers worker).owned = some request → s.Open request
  lost : ∀ request, s.requests request ≠ none → request ∉ s.queue_ →
    (∀ worker, (s.workers worker).owned ≠ some request) → ¬ s.Open request ∨ s.GivenUp request
  late : ∀ request, s.GivenUp request → s.Late request
  submits : ∀ request, (s.submits request).Attended s request

/-- The step rule: the requests keep what they have, and what moves is attended. -/
theorem State.Attended.next (hattended : s.Attended) (hnow : s.now ≤ s'.now) (hkeeps : ∀ request, s.Keeps s' request)
    (hsingle : ∀ worker, (s'.workers worker).Single) (hqueued : ∀ request ∈ s'.queue_, s'.Open request)
    (howned : ∀ worker request, (s'.workers worker).owned = some request → s'.Open request)
    (hlost : ∀ request, s'.requests request ≠ none → request ∉ s'.queue_ →
      (∀ worker, (s'.workers worker).owned ≠ some request) →
        (request ∉ s.queue_ ∧ ∀ worker, (s.workers worker).owned ≠ some request) ∨
          ¬ s'.Open request ∨ s'.GivenUp request)
    (hlate : ∀ request, s'.GivenUp request → s.GivenUp request ∨ s'.Late request)
    (hsubmits : ∀ request, s'.submits request = s.submits request ∨ (s'.submits request).Attended s' request) :
    s'.Attended := by
  refine ⟨hsingle, hqueued, howned, ?_, ?_, ?_⟩
  · intro request haccepted hqueue hworkers
    obtain ⟨hqueue', hworkers'⟩ | hparted := hlost request haccepted hqueue hworkers
    · have haccepted' : s.requests request ≠ none := fun hnone => haccepted ((hkeeps request).accepted.mpr hnone)
      exact (hattended.lost request haccepted' hqueue' hworkers').imp (hkeeps request).closed
        (hkeeps request).givenUp
    · exact hparted
  · intro request hgiven
    obtain hwas | hnow' := hlate request hgiven
    · exact (hkeeps request).late hnow (hattended.late request hwas)
    · exact hnow'
  · intro request
    obtain hsame | hpc := hsubmits request
    · rw [hsame]
      exact (hattended.submits request).keeps (hkeeps request) hnow
    · exact hpc

/-- Requests, queue and workers are left alone. -/
theorem State.Attended.move (hattended : s.Attended) (hnow : s.now ≤ s'.now) (hrequests : s'.requests = s.requests)
    (hqueue : s'.queue_ = s.queue_) (hworkers : s'.workers = s.workers)
    (hsubmits : ∀ request, s'.submits request = s.submits request ∨ (s'.submits request).Attended s' request) :
    s'.Attended := by
  have hkeeps (request : Nat) : s.Keeps s' request := .of_same (by rw [hrequests])
  have hopen (request : Nat) (hopen : s.Open request) : s'.Open request := by
    unfold Open
    rwa [hrequests]
  refine hattended.next hnow hkeeps ?_ ?_ ?_ ?_ ?_ hsubmits
  · rw [hworkers]
    exact hattended.single
  · rw [hqueue]
    exact fun request hmem => hopen request (hattended.queued request hmem)
  · rw [hworkers]
    exact fun worker request howned => hopen request (hattended.owned worker request howned)
  · rw [hqueue, hworkers]
    exact fun request _ hqueue' hworkers' => .inl ⟨hqueue', hworkers'⟩
  · unfold GivenUp
    rw [hrequests]
    exact fun request => .inl

/-- What a worker owns is in no other place. -/
def State.Placed (s : State setup) : Prop :=
  ∀ worker request, (s.workers worker).owned = some request →
    request ∉ s.queue_ ∧ ∀ other, (s.workers other).owned = some request → other = worker

/-- A worker's step leaves everything attended to. -/
theorem State.Attended.work (hattended : s.Attended) (hplaced : s.Placed) (hworks : s.Works worker s')
    (hstep : s.runWorker worker = some s' ∨ ∃ outcome, s.infer worker outcome = some s') : s'.Attended := by
  obtain ⟨pc', hworkers, hsingle, hparts⟩ :=
    hworks.parts hstep (hattended.single worker) (hattended.owned worker)
  obtain ⟨pc, hhandles⟩ := hworks.handles
  have hself : pc = pc' := by
    have hsame := congrFun (hhandles.workers.symm.trans hworkers) worker
    rwa [Function.update_self, Function.update_self] at hsame
  subst hself
  -- only the promise of the worker's own request may be set
  have hopen {request : Nat} (hopen : s.Open request)
      (hother : (s.workers worker).owned = some request → pc.owned = some request) : s'.Open request := by
    cases hparts with
    | unset hrequests =>
      unfold State.Open
      rwa [hrequests]
    | set set pending result howned hpending hpromise hrequests hparted =>
      have hne : request ≠ set := by
        rintro rfl
        rw [hother howned] at hparted
        cases hparted
      unfold State.Open
      rwa [hrequests, Function.update_of_ne hne]
  have hkeeps := hworks.keeps
  have hpc {other : Fin setup.config.kv_cache_slots} (hother : other ≠ worker) :
      s'.workers other = s.workers other := by
    rw [hworkers, Function.update_of_ne hother]
  have hpc' : s'.workers worker = pc := by rw [hworkers, Function.update_self]
  have hqueued (request : Nat) (hmem : request ∈ s'.queue_) : request ∈ s.queue_ := by
    obtain ⟨hqueue, -⟩ | ⟨first, -, hqueue, -⟩ := hhandles.owned
    · rwa [hqueue] at hmem
    · rw [hqueue]
      exact List.mem_cons_of_mem first hmem
  refine hattended.next hhandles.now.ge hkeeps ?_ ?_ ?_ ?_ ?_ fun _ => .inl (by rw [hhandles.submits])
  · intro other
    by_cases hother : other = worker
    · subst hother
      rw [hpc']
      exact hsingle
    · rw [hpc hother]
      exact hattended.single other
  · intro request hmem
    apply hopen (hattended.queued request (hqueued request hmem))
    intro howned
    exact absurd (hqueued request hmem) (hplaced worker request howned).1
  · intro other request howned
    by_cases hother : other = worker
    · subst hother
      rw [hpc'] at howned
      refine hopen ?_ fun _ => howned
      obtain ⟨-, hsame | hgone⟩ | ⟨first, -, hqueue, hfirst⟩ := hhandles.owned
      · exact hattended.owned other request (by rw [← hsame, howned])
      · rw [howned] at hgone
        cases hgone
      · rw [howned, Option.some.injEq] at hfirst
        apply hattended.queued
        rw [hqueue, hfirst]
        exact List.mem_cons_self
    · rw [hpc hother] at howned
      apply hopen (hattended.owned other request howned)
      intro howned'
      exact absurd ((hplaced worker request howned').2 other howned) hother
  · intro request _ hqueue hnobody
    have hnot : pc.owned ≠ some request := hpc' ▸ hnobody worker
    by_cases howned : (s.workers worker).owned = some request
    · right
      have hgone : pc.owned = none := by
        obtain ⟨-, hsame | hgone⟩ | ⟨first, hpopping, -⟩ := hhandles.owned
        · rw [hsame] at hnot
          exact absurd howned hnot
        · exact hgone
        · rw [hpopping] at howned
          cases howned
      cases hparts with
      | unset hrequests hparts => exact .inr ((hkeeps request).givenUp (hparts request howned hgone))
      | set set pending result howned' hpending hpromise hrequests =>
        rw [howned, Option.some.injEq] at howned'
        subst howned'
        left
        rintro ⟨found, hfound, hnone⟩
        rw [hrequests, Function.update_self, Option.some.injEq] at hfound
        subst hfound
        cases hnone
    · left
      refine ⟨?_, ?_⟩
      · intro hmem
        obtain ⟨hsame, -⟩ | ⟨first, -, hpopped, hfirst⟩ := hhandles.owned
        · exact hqueue (hsame ▸ hmem)
        · rw [hpopped] at hmem
          obtain rfl | hmem := List.mem_cons.mp hmem
          · exact hnot hfirst
          · exact hqueue hmem
      · intro other
        by_cases hother : other = worker
        · rw [hother]
          exact howned
        · rw [← hpc hother]
          exact hnobody other
  · intro request hgiven
    left
    cases hparts with
    | unset hrequests =>
      unfold State.GivenUp at hgiven ⊢
      rwa [hrequests] at hgiven
    | set set pending result howned hpending hpromise hrequests =>
      obtain ⟨found, hfound, hcancelled⟩ := hgiven
      rw [hrequests] at hfound
      obtain ⟨rfl, rfl⟩ | ⟨-, hbefore⟩ := update_some_eq_some_iff.mp hfound
      · exact ⟨pending, hpending, hcancelled⟩
      · exact ⟨found, hbefore, hcancelled⟩

/-- A request is queued for the first time. -/
theorem State.Attended.enqueued (hattended : s.Attended) {request : Nat} (hfresh : s.requests request = none)
    (call : ExecutionRequest) (enqueued_at deadline : Int) (metrics_ : SchedulerMetrics) :
    ({ s with
      queue_ := s.queue_ ++ [request]
      metrics_
      requests := Function.update s.requests request
        (some { request := call, enqueued_at, deadline }) }.setSubmit request .waiting).Attended := by
  have hrequest {other : Nat} (hother : other ≠ request) :
      Function.update s.requests request (some { request := call, enqueued_at, deadline }) other = s.requests other :=
    Function.update_of_ne hother ..
  have hself : Function.update s.requests request (some { request := call, enqueued_at, deadline }) request =
      some { request := call, enqueued_at, deadline } := Function.update_self ..
  have hother {other : Nat} (haccepted : s.requests other ≠ none) : other ≠ request := by
    rintro rfl
    exact haccepted hfresh
  have haccepted_of_open {other : Nat} (hopen : s.Open other) : s.requests other ≠ none := by
    obtain ⟨pending, hpending, -⟩ := hopen
    rw [hpending]
    simp
  refine ⟨hattended.single, ?_, ?_, ?_, ?_, ?_⟩
  · intro other hmem
    obtain hqueued | hlast := List.mem_append.mp hmem
    · obtain ⟨pending, hpending, hopen⟩ := hattended.queued other hqueued
      exact ⟨pending, (hrequest (hother (by rw [hpending]; simp))).trans hpending, hopen⟩
    · rw [List.mem_singleton.mp hlast]
      exact ⟨_, hself, rfl⟩
  · intro worker other howned
    obtain ⟨pending, hpending, hopen⟩ := hattended.owned worker other howned
    exact ⟨pending, (hrequest (hother (by rw [hpending]; simp))).trans hpending, hopen⟩
  · intro other haccepted hqueue hnobody
    have hne : other ≠ request := by
      rintro rfl
      exact hqueue (List.mem_append_right _ (List.mem_singleton_self other))
    have haccepted' : s.requests other ≠ none := by
      rw [← hrequest hne]
      exact haccepted
    have hkeeps : s.Keeps ({ s with
        queue_ := s.queue_ ++ [request]
        metrics_
        requests := Function.update s.requests request
          (some { request := call, enqueued_at, deadline }) }.setSubmit request .waiting) other :=
      .of_same (hrequest hne)
    have hlost := hattended.lost other haccepted' (fun hmem => hqueue (List.mem_append_left _ hmem)) hnobody
    exact hlost.imp hkeeps.closed hkeeps.givenUp
  · rintro other ⟨pending, hpending, hcancelled⟩
    obtain ⟨rfl, rfl⟩ | ⟨-, hbefore⟩ := update_some_eq_some_iff.mp hpending
    · cases hcancelled
    · obtain ⟨found, hfound, hlate⟩ := hattended.late other ⟨pending, hbefore, hcancelled⟩
      exact ⟨found, (hrequest (hother (by rw [hfound]; simp))).trans hfound, hlate⟩
  · intro other
    by_cases hne : other = request
    · subst hne
      simp only [State.setSubmit, Function.update_self, SubmitPc.Attended]
      simp
    · simp only [State.setSubmit, Function.update_of_ne hne]
      exact (hattended.submits other).keeps (.of_same (hrequest hne)) (le_refl _)

theorem SubmitPc.Attended.of_isEarly {request : Nat} {pc pc' : SubmitPc} (hpc : pc.isEarly = true)
    (hpc' : pc'.isEarly = true ∨ ∃ result, pc' = .returned result ∧ result.scheduler_error ≠ .timeout)
    (hattended : pc.Attended s request) : pc'.Attended s request := by
  have hnone : s.requests request = none := by
    cases pc with
    | waiting | expiring | returned => cases hpc
    | _ => exact hattended
  obtain hearly | ⟨result, rfl, -⟩ := hpc'
  · cases pc' with
    | waiting | expiring | returned => cases hearly
    | _ => exact hnone
  · exact .inl hnone

/-- A step of `submit` leaves everything attended to. -/
theorem State.Attended.submit (hattended : s.Attended) {request : Nat} (hsubmits : s.Submits request s') :
    s'.Attended := by
  have hcall := hattended.submits request
  have hmove {t : State setup} {pc' : SubmitPc} (hupdate : t.submits = Function.update s.submits request pc')
      (hnow : t.now = s.now) (hrequests : t.requests = s.requests) (hqueue : t.queue_ = s.queue_)
      (hworkers : t.workers = s.workers) (hpc' : pc'.Attended s request) : t.Attended := by
    refine hattended.move hnow.ge hrequests hqueue hworkers ?_
    rw [hupdate]
    apply @update_or _ _ _ s.submits request pc' fun other pc => pc.Attended t other
    exact hpc'.keeps (.of_same (by rw [hrequests])) hnow.ge
  cases hsubmits with
  | early pc' metrics_ hpc hpc' => exact hmove rfl rfl rfl rfl rfl (.of_isEarly hpc hpc' hcall)
  | enqueued call enqueued_at deadline hpc =>
    rw [hpc] at hcall
    exact hattended.enqueued hcall call enqueued_at deadline _
  | answered pending result hpc hpending hpromise =>
    exact hmove rfl rfl rfl rfl rfl (.inr (.inl ⟨pending, hpending, hpromise⟩))
  | late pending hpc hpending hlate => exact hmove rfl rfl rfl rfl rfl ⟨pending, hpending, hlate⟩
  | tokenSet hpc =>
    rw [hpc] at hcall
    exact hmove rfl rfl rfl rfl rfl hcall
  | cancelled pending hpc hpending =>
    rw [hpc] at hcall
    have hrequests : (s.setRequest request { pending with cancelled := true }).requests =
        Function.update s.requests request (some { pending with cancelled := true }) := rfl
    have hkeeps :=
      State.Keeps.of_update { pending with cancelled := true } hpending hrequests rfl (fun _ => id) fun _ => rfl
    have hopen {other : Nat} (hopen : s.Open other) :
        (s.setRequest request { pending with cancelled := true }).Open other := by
      by_cases hother : other = request
      · subst hother
        obtain ⟨found, hfound, hnone⟩ := hopen
        rw [hpending, Option.some.injEq] at hfound
        subst hfound
        exact ⟨_, Function.update_self .., hnone⟩
      · obtain ⟨found, hfound, hnone⟩ := hopen
        exact ⟨found, (Function.update_of_ne hother ..).trans hfound, hnone⟩
    refine hattended.next (le_refl _) (fun other => ⟨(hkeeps other).accepted, (hkeeps other).pending⟩)
      hattended.single (fun other hmem => hopen (hattended.queued other hmem))
      (fun worker other howned => hopen (hattended.owned worker other howned)) ?_ ?_ ?_
    · intro other _ hqueue hnobody
      exact .inl ⟨hqueue, hnobody⟩
    · rintro other ⟨found, hfound, hcancelled⟩
      obtain ⟨rfl, rfl⟩ | ⟨-, hbefore⟩ := update_some_eq_some_iff.mp hfound
      · obtain ⟨found, hfound', hlate⟩ := hcall
        rw [hpending, Option.some.injEq] at hfound'
        subst hfound'
        exact .inr ⟨_, hfound, hlate⟩
      · exact .inl ⟨found, hbefore, hcancelled⟩
    · apply @update_or _ _ _ s.submits request (.expiring .countTimedOut) fun other pc => pc.Attended _ other
      exact ⟨_, Function.update_self .., rfl⟩
  | counted hpc =>
    rw [hpc] at hcall
    exact hmove rfl rfl rfl rfl rfl hcall
  | timedOut hpc =>
    rw [hpc] at hcall
    exact hmove rfl rfl rfl rfl rfl (.inr (.inr ⟨rfl, hcall⟩))

/-- A drain finds nothing to answer. -/
theorem State.Shut.drain_leaves (hshut : s.Shut) {thread : Nat} (hstep : s.runDrain thread = some s') :
    s'.now = s.now ∧ s'.requests = s.requests ∧ s'.queue_ = s.queue_ ∧ s'.workers = s.workers ∧
      s'.submits = s.submits := by
  have hwas := hshut.drains thread
  unfold State.runDrain at hstep
  split at hstep
  · split at hstep <;> cases hstep
    exact ⟨rfl, rfl, rfl, rfl, rfl⟩
  · rename_i hpc
    rw [hpc] at hwas
    cases hstep
    exact ⟨rfl, rfl, (hshut.closed hwas).2.symm, rfl, rfl⟩
  · cases hstep
    exact ⟨rfl, rfl, rfl, rfl, rfl⟩
  · rename_i hpc
    rw [hpc] at hwas
    cases hwas.2
  · cases hstep

/-- Every step leaves everything attended to. -/
theorem State.Attended.step (hattended : s.Attended) (hplaced : s.Placed) (hshut : s.Shut) {event : Event setup}
    (hstep : s.step event = some s') : s'.Attended := by
  cases event with
  | tick elapsed =>
    cases hstep
    have hnow : s.now ≤ s.now + elapsed := by omega
    exact hattended.move hnow rfl rfl rfl fun _ => .inl rfl
  | cancel | stopAccepting =>
    cases hstep
    exact hattended.move (le_refl _) rfl rfl rfl fun _ => .inl rfl
  | submit request call =>
    simp only [State.step] at hstep
    split at hstep <;> cases hstep
    rename_i hpc
    have hcall := hattended.submits request
    rw [hpc] at hcall
    refine hattended.move (le_refl _) rfl rfl rfl ?_
    exact @update_or _ _ _ s.submits request (.validating call)
      (fun other pc => pc.Attended (s.setSubmit request (.validating call)) other) hcall
  | submitter request => exact hattended.submit (State.runSubmit_submits hstep)
  | worker worker => exact hattended.work hplaced (State.runWorker_works hstep) (.inl hstep)
  | infer worker outcome => exact hattended.work hplaced (State.infer_works hstep) (.inr ⟨outcome, hstep⟩)
  | beginDrain thread =>
    simp only [State.step] at hstep
    split at hstep <;> cases hstep
    exact hattended.move (le_refl _) rfl rfl rfl fun _ => .inl rfl
  | drain thread =>
    obtain ⟨hnow, hrequests, hqueue, hworkers, hsubmits⟩ := hshut.drain_leaves hstep
    exact hattended.move hnow.ge hrequests hqueue hworkers fun _ => .inl (by rw [hsubmits])

theorem State.Attended.submit_keeps (hattended : s.Attended) {submitted : Nat} (hsubmits : s.Submits submitted s')
    {request : Nat} (haccepted : s.requests request ≠ none) : s.Keeps s' request := by
  cases hsubmits with
  | enqueued call enqueued_at deadline hpc =>
    have hcall := hattended.submits submitted
    rw [hpc] at hcall
    have hother : request ≠ submitted := by
      rintro rfl
      exact haccepted hcall
    exact .of_same (Function.update_of_ne hother ..)
  | cancelled pending hpc hpending =>
    exact .of_update { pending with cancelled := true } hpending rfl rfl (fun _ => id) (fun _ => rfl) request
  | _ => exact .of_same rfl

/-- What was accepted is kept by every step. -/
theorem State.Attended.step_keeps (hattended : s.Attended) {event : Event setup} (hstep : s.step event = some s')
    {request : Nat} (haccepted : s.requests request ≠ none) : s.Keeps s' request := by
  cases event with
  | tick | cancel | stopAccepting =>
    cases hstep
    exact .of_same rfl
  | submit submitted call =>
    simp only [State.step] at hstep
    split at hstep <;> cases hstep
    exact .of_same rfl
  | submitter submitted => exact hattended.submit_keeps (State.runSubmit_submits hstep) haccepted
  | worker worker => exact (State.runWorker_works hstep).keeps request
  | infer worker outcome => exact (State.infer_works hstep).keeps request
  | beginDrain thread =>
    simp only [State.step] at hstep
    split at hstep <;> cases hstep
    exact .of_same rfl
  | drain thread => exact (State.runDrain_drains hstep).keeps request

/-- No step takes a request back that was given up. -/
theorem State.Attended.step_givenUp (hattended : s.Attended) {event : Event setup} (hstep : s.step event = some s')
    {request : Nat} (hgiven : s.GivenUp request) : s'.GivenUp request := by
  have haccepted : s.requests request ≠ none := by
    obtain ⟨pending, hpending, -⟩ := hgiven
    rw [hpending]
    simp
  exact (hattended.step_keeps hstep haccepted).givenUp hgiven

/-- A call of `submit` returns once. -/
theorem State.step_returned {event : Event setup} (hstep : s.step event = some s') {request : Nat}
    {result : SchedulerResult} (hreturned : s.submits request = .returned result) :
    s'.submits request = .returned result := by
  cases event with
  | tick | cancel | stopAccepting =>
    cases hstep
    exact hreturned
  | submit submitted call =>
    simp only [State.step] at hstep
    split at hstep <;> cases hstep
    rename_i hidle
    have hother : request ≠ submitted := by
      rintro rfl
      rw [hreturned] at hidle
      cases hidle
    exact (Function.update_of_ne hother ..).trans hreturned
  | submitter submitted =>
    have hother : request ≠ submitted := by
      rintro rfl
      simp [State.step, State.runSubmit, hreturned] at hstep
    cases State.runSubmit_submits hstep <;> exact (Function.update_of_ne hother ..).trans hreturned
  | worker worker =>
    obtain ⟨pc', hhandles⟩ := (State.runWorker_works hstep).handles
    rw [hhandles.submits]
    exact hreturned
  | infer worker outcome =>
    obtain ⟨pc', hhandles⟩ := (State.infer_works hstep).handles
    rw [hhandles.submits]
    exact hreturned
  | beginDrain thread =>
    simp only [State.step] at hstep
    split at hstep <;> cases hstep
    exact hreturned
  | drain thread => cases State.runDrain_drains hstep <;> exact hreturned

end Steps

/-- In every run a request is in one place. -/
theorem placed_reachable {start : Int} {s : State setup} (hreach : (system setup start).Reachable s) : s.Placed := by
  obtain ⟨log, hlogged⟩ := @System.Reachable.logged _ _ _ _ State.note _ hreach
  have hordered := WorkQueue.ordered_reachable (workQueue_reachable hlogged)
  intro worker request howned
  refine ⟨hordered.not_queued howned, ?_⟩
  intro other hother
  exact hordered.unshared other worker request hother howned

/-- In every run everything is attended to. -/
theorem attended_reachable {start : Int} {s : State setup} (hreach : (system setup start).Reachable s) :
    s.Attended := by
  refine @System.Reachable.invariant _ _ (system setup start) State.Attended ?_ ?_ s hreach
  · rintro s rfl
    refine ⟨fun _ => ⟨Nat.zero_le 1, by rintro _ ⟨⟩⟩, by rintro _ ⟨⟩, by rintro _ _ ⟨⟩, ?_, ?_, fun _ => rfl⟩
    · intro request haccepted
      exact absurd rfl haccepted
    · rintro request ⟨pending, hpending, -⟩
      cases hpending
  · intro s event s' hreach hattended hstep
    exact hattended.step (placed_reachable hreach) (shut_reachable hreach) hstep

end neuriplo.llm
