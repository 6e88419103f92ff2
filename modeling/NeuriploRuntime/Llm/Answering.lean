import NeuriploRuntime.Llm.Answers

open neuriplo.scheduler neuriplo.tensor transition

namespace neuriplo.llm

variable {setup : Setup}

section Steps

variable {past : List (State setup)} {s s' : State setup}

/-- What is left alone stays sound. -/
theorem State.Sound.next (hsound : s.Sound past) (hgrows : s.Grows s')
    (hworkers : ∀ worker, s'.workers worker = s.workers worker ∨ (s'.workers worker).Sound (s :: past) s')
    (hsubmits : ∀ request, (s'.submits request = s.submits request ∧
      (s.requests request = none → s'.requests request = none)) ∨ (s'.submits request).Sound (s :: past) s' request)
    (hpromises : ∀ request pending result, s'.requests request = some pending → pending.promise = some result →
      (∃ pending', s.requests request = some pending' ∧ pending'.promise = some result) ∨
        s'.Answers (s :: past) request result) :
    s'.Sound (s :: past) := by
  constructor
  · intro worker
    obtain hsame | hpc := hworkers worker
    · rw [hsame]
      exact (hsound.workers worker).grows hgrows
    · exact hpc
  · intro request
    obtain ⟨hsame, hfresh⟩ | hpc := hsubmits request
    · rw [hsame]
      exact (hsound.submits request).grows hgrows hfresh
    · exact hpc
  · intro request pending result hpending hpromise
    obtain ⟨pending', hpending', hpromise'⟩ | hanswers := hpromises request pending result hpending hpromise
    · exact hgrows.answers (hsound.promises request pending' result hpending' hpromise')
    · exact hanswers

/-- One thread moves, and nothing accepted is touched. -/
theorem State.Sound.move (hsound : s.Sound past) (hgrows : s.Grows s') (hrequests : s'.requests = s.requests)
    (hworkers : ∀ worker, s'.workers worker = s.workers worker ∨ (s'.workers worker).Sound (s :: past) s')
    (hsubmits : ∀ request, s'.submits request = s.submits request ∨
      (s'.submits request).Sound (s :: past) s' request) :
    s'.Sound (s :: past) := by
  refine hsound.next hgrows hworkers ?_ ?_
  · intro request
    exact (hsubmits request).imp_left fun hsame => ⟨hsame, fun hnone => by rw [hrequests, hnone]⟩
  · intro request pending result hpending hpromise
    rw [hrequests] at hpending
    exact .inl ⟨pending, hpending, hpromise⟩

/-- A worker's move keeps the state sound when its new place is. -/
theorem State.Sound.moveWorker (hsound : s.Sound past) {worker : Fin setup.config.kv_cache_slots} (pc' : WorkerPc)
    (hgrows : s.Grows s') (hworkers : s'.workers = Function.update s.workers worker pc')
    (hrequests : s'.requests = s.requests) (hsubmits : s'.submits = s.submits) (hpc' : pc'.Sound (s :: past) s') :
    s'.Sound (s :: past) := by
  refine hsound.move hgrows hrequests ?_ ?_
  · rw [hworkers]
    exact update_or hpc'
  · intro request
    exact .inl (by rw [hsubmits])

/-- What is set for one request is an answer it may be given. -/
theorem State.Sound.setPromise (hsound : s.Sound past) {request : Nat} {pending : PendingRequest}
    {result : SchedulerResult} (hpending : s.requests request = some pending) (hanswers : s.Answers past request result)
    (hrequests : s'.requests = Function.update s.requests request (some { pending with promise := some result }))
    (hnow : s'.now = s.now) (htokens : s'.cancel_tokens = s.cancel_tokens) (hsubmits : s'.submits = s.submits)
    (hworkers : ∀ worker, s'.workers worker = s.workers worker ∨
      (s.Grows s' → (s'.workers worker).Sound (s :: past) s')) :
    s'.Sound (s :: past) := by
  have hgrows : s.Grows s' :=
    .setRequest { pending with promise := some result } hpending hrequests rfl rfl hnow htokens
  refine hsound.next hgrows ?_ ?_ ?_
  · intro worker
    exact (hworkers worker).imp_right fun hpc => hpc hgrows
  · intro other
    refine .inl ⟨by rw [hsubmits], ?_⟩
    intro hnone
    have hother : other ≠ request := by
      rintro rfl
      rw [hpending] at hnone
      cases hnone
    rw [hrequests, Function.update_of_ne hother, hnone]
  · intro other found found_result hfound hpromise
    rw [hrequests] at hfound
    obtain ⟨rfl, rfl⟩ | ⟨-, hbefore⟩ := update_some_eq_some_iff.mp hfound
    · cases hpromise
      exact .inr (hgrows.answers hanswers)
    · exact .inl ⟨found, hbefore, hpromise⟩

/-- A quiet step leaves a sound place. -/
theorem WorkerPc.Quiet.sound {worker : Fin setup.config.kv_cache_slots} {pc' : WorkerPc}
    (hquiet : (s.workers worker).Quiet pc') (hsound : (s.workers worker).Sound past s) (hgrows : s.Grows s') :
    pc'.Sound (s :: past) s' := by
  have hexecuted {request executor_index : Nat} {execution_started : Int}
      (hpc : s.workers worker = .executing request executor_index execution_started) :
      ∃ moment ∈ s :: past, moment.Executes request :=
    ⟨s, List.mem_cons_self, worker, executor_index, execution_started, hpc⟩
  generalize hpc : s.workers worker = pc at hquiet hsound
  cases hquiet with
  | accepting request timedOut =>
    cases timedOut with
    | true => exact hgrows.cutOff hsound
    | false => trivial
  | inferred => exact hexecuted hpc
  | threw => exact ⟨hexecuted hpc, nofun⟩
  | _ => trivial

theorem WorkerPc.Sound.nil (past : List (State setup)) (s : State setup) (request : Nat) :
    (WorkerPc.finishing request []).Sound past s :=
  List.forall_mem_nil _

/-- Steps are sound when each of them is. -/
theorem WorkerPc.Sound.cons {request : Nat} {op : WorkerOp} {ops : List WorkerOp} (hop : op.Sound past s request)
    (hops : (WorkerPc.finishing request ops).Sound past s) : (WorkerPc.finishing request (op :: ops)).Sound past s :=
  List.forall_mem_cons.mpr ⟨hop, hops⟩

/-- A worker may time a request out that is due. -/
theorem WorkerPc.Sound.timeout {request : Nat} (hdue : s.CutOff request) :
    (WorkerPc.finishing request [.countTimedOut, .fulfillResult makeTimeoutResult]).Sound past s := by
  refine .cons hdue (.cons ?_ (.nil past s request))
  exact .inl ⟨rfl, hdue⟩

/-- The expiry of a request that is cut off is sound. -/
theorem WorkerPc.Sound.expired {request : Nat} (hdue : s.CutOff request) :
    (WorkerPc.finishing request expired).Sound past s :=
  .cons hdue (.timeout hdue)

/-- A straight-line step keeps the state sound. -/
theorem State.Sound.perform (hsound : s.Sound past) {worker : Fin setup.config.kv_cache_slots} {request : Nat}
    {op : WorkerOp} {ops : List WorkerOp} {pending : PendingRequest}
    (hpc : s.workers worker = .finishing request (op :: ops)) (hpending : s.requests request = some pending) :
    (s.perform worker request pending ops op).Sound (s :: past) := by
  have hall : ∀ op' ∈ op :: ops, op'.Sound past s request := by
    have hworker := hsound.workers worker
    rwa [hpc] at hworker
  have hop := hall op List.mem_cons_self
  -- what is left to do, with new steps that are sound before them
  have hmove {t : State setup} {ops' : List WorkerOp}
      (hworkers : t.workers = Function.update s.workers worker (.finishing request ops'))
      (hrequests : t.requests = s.requests) (hsubmits : t.submits = s.submits) (hgrows : s.Grows t)
      (hops' : ∀ op' ∈ ops', op' ∈ ops ∨ (s.Grows t → op'.Sound (s :: past) t request)) : t.Sound (s :: past) := by
    refine hsound.moveWorker (.finishing request ops') hgrows hworkers hrequests hsubmits ?_
    intro op' hmem
    obtain hrest | hnew := hops' op' hmem
    · exact (hall op' (List.mem_cons_of_mem op hrest)).grows hgrows
    · exact hnew hgrows
  cases op with
  | setToken =>
    have hgrows : s.Grows (s.perform worker request pending ops .setToken) :=
      .of_same (le_refl _) (fun _ htoken => State.setToken_mono htoken) rfl
    exact hmove rfl rfl rfl hgrows fun _ hmem => .inl hmem
  | decrementInflight => exact hmove rfl rfl rfl (.of_unchanged rfl rfl rfl) fun _ hmem => .inl hmem
  | releaseDecodeSlot =>
    simp only [State.perform, State.setWorker]
    exact hmove rfl rfl rfl (.of_unchanged rfl rfl rfl) fun _ hmem => .inl hmem
  | recordLatencies => exact hmove rfl rfl rfl (.of_unchanged rfl rfl rfl) fun _ hmem => .inl hmem
  | countTimedOut => exact hmove rfl rfl rfl (.of_unchanged rfl rfl rfl) fun _ hmem => .inl hmem
  | settle started finished response =>
    obtain ⟨hfinished, hexecuted⟩ := hop
    simp only [State.perform]
    split
    · exact hmove rfl rfl rfl (.of_unchanged rfl rfl rfl) fun _ hmem => .inl hmem
    · split
      · refine hmove rfl rfl rfl (.of_unchanged rfl rfl rfl) ?_
        intro op' hmem
        obtain hmem | hmem := List.mem_append.mp hmem
        · have hdue : s.CutOff request := .inr ⟨pending, hpending, by omega⟩
          exact .inr (WorkerPc.Sound.expired hdue op' hmem).grows
        · exact .inl hmem
      · obtain ⟨moment, hmem, hexecutes⟩ := hexecuted
        have hanswers : s.Answers past request (completedResult pending.enqueued_at started finished 1 response) :=
          .completed moment hmem hexecutes pending hpending started finished response
        refine hmove rfl rfl rfl (.of_unchanged rfl rfl rfl) ?_
        intro op' hmem'
        obtain rfl | hmem' := List.mem_cons.mp hmem'
        · exact .inr fun _ => trivial
        · obtain rfl | hmem' := List.mem_cons.mp hmem'
          · exact .inr fun hgrows => .inr (hgrows.answers hanswers)
          · exact .inl hmem'
  | fulfillResult result =>
    simp only [State.perform]
    split
    · exact hmove rfl rfl rfl (.of_unchanged rfl rfl rfl) fun _ hmem => .inl hmem
    · refine hmove rfl rfl rfl (.of_unchanged rfl rfl rfl) ?_
      intro op' hmem
      obtain rfl | hmem := List.mem_cons.mp hmem
      · obtain ⟨rfl, hdue⟩ | hanswers := hop
        · refine .inr fun hgrows => ?_
          exact .timeout s List.mem_cons_self (.inr ⟨worker, ops, hpc⟩) hdue (hgrows.cutOff hdue)
        · exact .inr fun hgrows => hgrows.answers hanswers
      · exact .inl hmem
  | setValue result =>
    simp only [State.perform]
    split
    · refine hsound.setPromise hpending hop rfl rfl rfl rfl ?_
      apply @update_or _ _ _ s.workers worker (.finishing request ops) fun _ pc => s.Grows _ → pc.Sound (s :: past) _
      intro hgrows op' hmem
      exact (hall op' (List.mem_cons_of_mem _ hmem)).grows hgrows
    · exact hsound.moveWorker (.terminated ops) (.of_unchanged rfl rfl rfl) rfl rfl rfl trivial

/-- A worker's step keeps the state sound. -/
theorem State.Sound.works (hsound : s.Sound past) (hheld : s.SlotsHeld) {worker : Fin setup.config.kv_cache_slots}
    (hrefuses : ∀ request, s.workers worker = .acquiring request .readDraining → s.draining_ = true → s.CutOff request)
    (hworks : s.Works worker s') : s'.Sound (s :: past) := by
  have hworker := hsound.workers worker
  have hmove {t : State setup} {pc' : WorkerPc} (hworkers : t.workers = Function.update s.workers worker pc')
      (hrequests : t.requests = s.requests) (hsubmits : t.submits = s.submits) (hnow : t.now = s.now)
      (htokens : t.cancel_tokens = s.cancel_tokens) (hpc' : s.Grows t → pc'.Sound (s :: past) t) :
      t.Sound (s :: past) := by
    have hgrows : s.Grows t := .of_same (hnow ▸ le_refl _) (fun _ htoken => htokens ▸ htoken) hrequests
    exact hsound.moveWorker pc' hgrows hworkers hrequests hsubmits (hpc' hgrows)
  cases hworks with
  | quiet pc' hquiet => exact hmove rfl rfl rfl rfl rfl (hquiet.sound hworker)
  | popped | parked | selected | acquired => exact hmove rfl rfl rfl rfl rfl fun _ => trivial
  | late request pending hpc hpending hlate =>
    have hdue : s.CutOff request := .inr ⟨pending, hpending, hlate⟩
    exact hmove rfl rfl rfl rfl rfl (WorkerPc.Sound.expired hdue).grows
  | locked request stage timedOut hpc hfree hstage htimedOut =>
    refine hmove rfl rfl rfl rfl rfl fun hgrows => ?_
    cases timedOut with
    | false => trivial
    | true => exact hgrows.cutOff (.inr (htimedOut rfl))
  | refused request stage hpc hreason =>
    have hdue : s.CutOff request := by
      obtain rfl | ⟨rfl, hdraining⟩ | ⟨rfl, hfull⟩ := hreason
      · rwa [hpc] at hworker
      · exact hrefuses request hpc hdraining
      · -- a worker that asks for a slot holds none, so one is free
        have hfree := @State.SlotsHeld.free _ _ hheld worker (by rw [hpc]; rfl)
        omega
    exact hmove rfl rfl rfl rfl rfl (WorkerPc.Sound.timeout hdue).grows
  | drained request hpc =>
    refine hmove rfl rfl rfl rfl rfl fun _ => ?_
    exact .cons trivial (.cons (.inr .draining) (.nil _ _ request))
  | overdue request pending hpc hpending hlate =>
    have hdue : s.CutOff request := .inr ⟨pending, hpending, hlate⟩
    refine hmove rfl rfl rfl rfl rfl fun hgrows => ?_
    exact .cons (hgrows.cutOff hdue) (.cons trivial (.timeout (hgrows.cutOff hdue)))
  | readToken request executor_index execution_started response hpc =>
    rw [hpc] at hworker
    refine hmove rfl rfl rfl rfl rfl fun hgrows => ⟨State.Grows.executed s hworker, ?_⟩
    intro hfailed
    rw [Bool.not_eq_false'] at hfailed
    exact hgrows.cutOff (.inl hfailed)
  | executed request executor_index execution_started response completed hpc =>
    rw [hpc] at hworker
    obtain ⟨hexecuted, hfailed⟩ := hworker
    refine hmove rfl rfl rfl rfl rfl fun hgrows => .cons trivial (.cons trivial ?_)
    cases completed with
    | false => exact .expired (hgrows.cutOff (hfailed rfl))
    | true => exact .cons ⟨le_refl _, State.Grows.executed s hexecuted⟩ (.nil _ _ request)
  | performed request op ops pending hpc hpending => exact hsound.perform hpc hpending

/-- One call of `submit` moves, and what was accepted keeps its promises. -/
theorem State.Sound.moveSubmit (hsound : s.Sound past) {request : Nat} (pc' : SubmitPc) (hgrows : s.Grows s')
    (hsubmits : s'.submits = Function.update s.submits request pc') (hworkers : s'.workers = s.workers)
    (hother : ∀ other, other ≠ request → s'.requests other = s.requests other)
    (hpromise : ∀ pending result, s'.requests request = some pending → pending.promise = some result →
      ∃ pending', s.requests request = some pending' ∧ pending'.promise = some result)
    (hpc' : pc'.Sound (s :: past) s' request) : s'.Sound (s :: past) := by
  refine hsound.next hgrows ?_ ?_ ?_
  · intro worker
    exact .inl (by rw [hworkers])
  · intro other
    by_cases hsame : other = request
    · subst hsame
      rw [hsubmits, Function.update_self]
      exact .inr hpc'
    · refine .inl ⟨by rw [hsubmits, Function.update_of_ne hsame], ?_⟩
      intro hnone
      rw [hother other hsame, hnone]
  · intro other pending result hpending hset
    by_cases hsame : other = request
    · subst hsame
      exact .inl (hpromise pending result hpending hset)
    · rw [hother other hsame] at hpending
      exact .inl ⟨pending, hpending, hset⟩

/-- A step of `submit` keeps the state sound. -/
theorem State.Sound.submits_step (hsound : s.Sound past) {request : Nat} (hsubmits : s.Submits request s') :
    s'.Sound (s :: past) := by
  have hcall := hsound.submits request
  have hmove {t : State setup} {pc' : SubmitPc} (hupdate : t.submits = Function.update s.submits request pc')
      (hworkers : t.workers = s.workers) (hrequests : t.requests = s.requests) (hgrows : s.Grows t)
      (hpc' : pc'.Sound (s :: past) t request) : t.Sound (s :: past) := by
    refine hsound.moveSubmit pc' hgrows hupdate hworkers (fun _ _ => by rw [hrequests]) ?_ hpc'
    intro pending result hpending hset
    rw [hrequests] at hpending
    exact ⟨pending, hpending, hset⟩
  cases hsubmits with
  | early pc' metrics_ hpc hpc' hmetrics =>
    have hnone : s.requests request = none := (SubmitPc.Sound.of_isEarly hpc).mp hcall
    refine hmove rfl rfl rfl (.of_unchanged rfl rfl rfl) ?_
    obtain hearly | ⟨result, rfl, hresult⟩ := hpc'
    · exact (SubmitPc.Sound.of_isEarly hearly).mpr hnone
    · exact .inl ⟨hnone, hresult⟩
  | enqueued call enqueued_at deadline hpc =>
    have hnone : s.requests request = none := by rwa [hpc] at hcall
    refine hsound.moveSubmit .waiting ?_ rfl rfl ?_ ?_ trivial
    · refine ⟨le_refl _, fun _ htoken => htoken, ?_⟩
      intro other found hfound
      have hother : other ≠ request := by
        rintro rfl
        rw [hnone] at hfound
        cases hfound
      exact ⟨found, (Function.update_of_ne hother ..).trans hfound, rfl, rfl⟩
    · intro other hother
      exact Function.update_of_ne hother ..
    · intro pending result hpending hset
      change Function.update _ _ _ _ = _ at hpending
      rw [Function.update_self, Option.some.injEq] at hpending
      subst hpending
      cases hset
  | answered pending result hpc hpending hpromise =>
    have hgrows : s.Grows (s.setSubmit request (.returned result)) := .of_unchanged rfl rfl rfl
    refine hmove rfl rfl rfl hgrows ?_
    exact .inr (hgrows.answers (hsound.promises request pending result hpending hpromise))
  | late pending hpc hpending hlate =>
    have hgrows : s.Grows (s.setSubmit request (.expiring .setToken)) := .of_unchanged rfl rfl rfl
    exact hmove rfl rfl rfl hgrows (hgrows.cutOff (.inr ⟨pending, hpending, hlate⟩))
  | tokenSet hpc =>
    rw [hpc] at hcall
    have hgrows : s.Grows ((s.setToken request).setSubmit request (.expiring .setCancelled)) :=
      .of_same (le_refl _) (fun _ htoken => State.setToken_mono htoken) rfl
    exact hmove rfl rfl rfl hgrows (hgrows.cutOff hcall)
  | cancelled pending hpc hpending =>
    rw [hpc] at hcall
    have hgrows : s.Grows
        ((s.setRequest request { pending with cancelled := true }).setSubmit request (.expiring .countTimedOut)) :=
      .setRequest { pending with cancelled := true } hpending rfl rfl rfl rfl rfl
    refine hsound.moveSubmit (.expiring .countTimedOut) hgrows rfl rfl ?_ ?_ (hgrows.cutOff hcall)
    · intro other hother
      exact Function.update_of_ne hother ..
    · intro found result hfound hset
      change Function.update _ _ _ _ = _ at hfound
      rw [Function.update_self, Option.some.injEq] at hfound
      subst hfound
      exact ⟨pending, hpending, hset⟩
  | counted hpc =>
    rw [hpc] at hcall
    have hgrows : s.Grows (s.countTimedOut.setSubmit request (.expiring .answer)) := .of_unchanged rfl rfl rfl
    exact hmove rfl rfl rfl hgrows (hgrows.cutOff hcall)
  | timedOut hpc =>
    rw [hpc] at hcall
    have hgrows : s.Grows (s.setSubmit request (.returned makeTimeoutResult)) := .of_unchanged rfl rfl rfl
    refine hmove rfl rfl rfl hgrows ?_
    exact .inr (.timeout s List.mem_cons_self (.inl hpc) hcall (hgrows.cutOff hcall))

/-- A step of a drain keeps the state sound. -/
theorem State.Sound.drains_step (hsound : s.Sound past) {thread : Nat} (hdrains : s.Drains thread s') :
    s'.Sound (s :: past) := by
  cases hdrains with
  | moved queue_ pc' =>
    have hgrows : s.Grows ({ s with queue_ }.setDrain thread pc') := .of_same (le_refl _) (fun _ htoken => htoken) rfl
    exact hsound.move hgrows rfl (fun _ => .inl rfl) (fun _ => .inl rfl)
  | answered request found pc' hfound hpromise =>
    exact hsound.setPromise hfound .draining rfl rfl rfl rfl fun _ => .inl rfl

end Steps

/-- A worker that reads the draining flag raised inside `acquireDecodeSlot` has a
request that is cut off anyway. -/
def State.refusesCutOff (s : State setup) (event : Event setup) : Prop :=
  ∀ worker request, event = .worker worker → s.workers worker = .acquiring request .readDraining →
    s.draining_ = true → s.CutOff request

/-- Every step that refuses only what is cut off keeps the state sound. -/
theorem State.Sound.step {past : List (State setup)} {s s' : State setup} {event : Event setup}
    (hsound : s.Sound past) (hheld : s.SlotsHeld) (hrefuses : s.refusesCutOff event)
    (hstep : s.step event = some s') : s'.Sound (s :: past) := by
  have hsame {t : State setup} (hgrows : s.Grows t) (hrequests : t.requests = s.requests)
      (hworkers : t.workers = s.workers) (hsubmits : t.submits = s.submits) : t.Sound (s :: past) :=
    hsound.move hgrows hrequests (fun _ => .inl (by rw [hworkers])) (fun _ => .inl (by rw [hsubmits]))
  cases event with
  | tick elapsed =>
    cases hstep
    have hnow : s.now ≤ s.now + elapsed := by omega
    exact hsame (.of_same hnow (fun _ htoken => htoken) rfl) rfl rfl rfl
  | cancel request =>
    cases hstep
    exact hsame (.of_same (le_refl _) (fun _ htoken => State.setToken_mono htoken) rfl) rfl rfl rfl
  | submit request call =>
    simp only [State.step] at hstep
    split at hstep
    · rename_i hpc
      cases hstep
      have hcall := hsound.submits request
      rw [hpc] at hcall
      refine hsound.moveSubmit (.validating call) ?_ rfl rfl (fun _ _ => rfl) ?_ hcall
      · exact .of_same (le_refl _) (fun _ htoken => htoken) rfl
      · intro pending result hpending hset
        exact ⟨pending, hpending, hset⟩
    · cases hstep
  | submitter request => exact hsound.submits_step (State.runSubmit_submits hstep)
  | worker worker =>
    exact hsound.works hheld (fun _ hpc hdraining => hrefuses _ _ rfl hpc hdraining) (State.runWorker_works hstep)
  | infer worker outcome =>
    refine hsound.works hheld ?_ (State.infer_works hstep)
    intro request hpc
    simp [State.step, State.infer, hpc] at hstep
  | stopAccepting =>
    cases hstep
    exact hsame (.of_same (le_refl _) (fun _ htoken => htoken) rfl) rfl rfl rfl
  | beginDrain thread =>
    simp only [State.step] at hstep
    split at hstep <;> cases hstep
    exact hsame (.of_same (le_refl _) (fun _ htoken => htoken) rfl) rfl rfl rfl
  | drain thread => exact hsound.drains_step (State.runDrain_drains hstep)

end neuriplo.llm
