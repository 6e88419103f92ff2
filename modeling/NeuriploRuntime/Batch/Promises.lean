import NeuriploRuntime.Batch.Places

open neuriplo.scheduler neuriplo.tensor transition

namespace neuriplo.batch

variable {setup : Setup}

/-- What a worker still answers has no answer yet; only while it goes through its
batch for the first time may it keep what it has answered, which is late. -/
def WorkerPc.Sound (s : State setup) : WorkerPc → Prop
  | .sweeping now swept rest =>
    now ≤ s.now ∧ (∀ request ∈ swept, s.Open request ∨ s.Late request) ∧ ∀ request ∈ rest, s.Open request
  | .sweepExpiring now swept request rest ops =>
    now ≤ s.now ∧ (∀ request ∈ swept, s.Open request ∨ s.Late request) ∧ (∀ request ∈ rest, s.Open request) ∧
      s.Late request ∧
        (ops.filterMap (·.answers) = [] ∨ (ops.filterMap (·.answers) = [request] ∧ s.Open request))
  | .collecting rest active_batch =>
    (∀ request ∈ rest, s.Open request ∨ s.Late request) ∧ ∀ request ∈ active_batch, s.Open request
  | .collectingDeadline request rest active_batch =>
    (s.Open request ∨ s.Late request) ∧ (∀ request ∈ rest, s.Open request ∨ s.Late request) ∧
      ∀ request ∈ active_batch, s.Open request
  | .undefined => False
  | pc => ∀ request ∈ pc.owned, s.Open request

section Steps

variable {s s' : State setup} {worker : Fin setup.config.instances}

/-- A worker that answers nothing early keeps what it may rely on as long as its
own requests do. -/
theorem WorkerPc.Sound.frame {pc : WorkerPc} (hsound : pc.Sound s) (hnow : s.now ≤ s'.now)
    (hopen : ∀ request ∈ pc.owned, s.Open request → s'.Open request)
    (hlate : ∀ request ∈ pc.owned, s.Late request → s'.Late request) : pc.Sound s' := by
  have hboth {request : Nat} (hmem : request ∈ pc.owned) (h : s.Open request ∨ s.Late request) :
      s'.Open request ∨ s'.Late request := h.imp (hopen request hmem) (hlate request hmem)
  cases pc with
  | sweeping now swept rest =>
    obtain ⟨hle, hswept, hrest⟩ := hsound
    refine ⟨hle.trans hnow, ?_, ?_⟩
    · intro request hmem
      exact hboth (List.mem_append_left _ hmem) (hswept request hmem)
    · intro request hmem
      exact hopen request (List.mem_append_right _ hmem) (hrest request hmem)
  | sweepExpiring now swept request rest ops =>
    obtain ⟨hle, hswept, hrest, hlate', hops⟩ := hsound
    have hself : request ∈ (WorkerPc.sweepExpiring now swept request rest ops).owned :=
      List.mem_append_right _ List.mem_cons_self
    refine ⟨hle.trans hnow, ?_, ?_, hlate request hself hlate', ?_⟩
    · intro other hmem
      exact hboth (List.mem_append_left _ hmem) (hswept other hmem)
    · intro other hmem
      exact hopen other (List.mem_append_right _ (List.mem_cons_of_mem _ hmem)) (hrest other hmem)
    · exact hops.imp_right fun ⟨hanswers, hopen'⟩ => ⟨hanswers, hopen request hself hopen'⟩
  | collecting rest active_batch =>
    obtain ⟨hrest, hactive⟩ := hsound
    refine ⟨?_, ?_⟩
    · intro request hmem
      exact hboth (List.mem_append_left _ hmem) (hrest request hmem)
    · intro request hmem
      exact hopen request (List.mem_append_right _ hmem) (hactive request hmem)
  | collectingDeadline request rest active_batch =>
    obtain ⟨hself, hrest, hactive⟩ := hsound
    refine ⟨hboth List.mem_cons_self hself, ?_, ?_⟩
    · intro other hmem
      exact hboth (List.mem_cons_of_mem _ (List.mem_append_left _ hmem)) (hrest other hmem)
    · intro other hmem
      exact hopen other (List.mem_cons_of_mem _ (List.mem_append_right _ hmem)) (hactive other hmem)
  | undefined => exact hsound
  | _ =>
    intro request hmem
    exact hopen request hmem (hsound request hmem)

/-- A quiet step leaves a worker with what it may rely on. -/
theorem WorkerPc.Quiet.sound {pc pc' : WorkerPc} (hquiet : pc.Quiet pc') (hsound : pc.Sound s) : pc'.Sound s := by
  cases hquiet with
  | swept now swept =>
    obtain ⟨-, hswept, -⟩ := hsound
    exact ⟨hswept, nofun⟩
  | passed now swept request rest =>
    obtain ⟨hle, hswept, hrest⟩ := hsound
    refine ⟨hle, ?_, fun other hmem => hrest other (List.mem_cons_of_mem _ hmem)⟩
    intro other hmem
    obtain hmem | hmem := List.mem_append.mp hmem
    · exact hswept other hmem
    · rw [List.mem_singleton.mp hmem]
      exact .inl (hrest request List.mem_cons_self)
  | sweptExpired now swept request rest =>
    obtain ⟨hle, hswept, hrest, hlate, -⟩ := hsound
    refine ⟨hle, ?_, hrest⟩
    intro other hmem
    obtain hmem | hmem := List.mem_append.mp hmem
    · exact hswept other hmem
    · rw [List.mem_singleton.mp hmem]
      exact .inr hlate
  | uncancelled request rest active_batch =>
    obtain ⟨hrest, hactive⟩ := hsound
    exact ⟨hrest request List.mem_cons_self, fun other hmem => hrest other (List.mem_cons_of_mem _ hmem), hactive⟩
  | none => nofun
  | one => exact hsound.2
  | several => exact hsound.2
  | waiting | popWoken | finished => nofun
  | forming first formation hbatch =>
    intro request hmem
    change request ∈ formation.batch at hmem
    rw [hbatch] at hmem
    exact hsound request hmem
  | alone => exact hsound
  | _ => exact hsound

/-- What a worker has of a job is the same before and after it settles it. -/
theorem settleJob_owned (s : State setup) (job : Job) (executor_index : Nat) (execution_started : Int)
    (response : ExecutionResponse) :
    (s.settleJob job executor_index execution_started response).owned = job.members := by
  have hzip (settle : Nat → ExecutionResponse → WorkerOp) (hanswers : ∀ request part, (settle request part).answers =
      some request) (requests : List Nat) (parts : List ExecutionResponse) (hlength : parts.length = requests.length) :
      (List.zipWith settle requests parts).filterMap (·.answers) = requests := by
    induction requests generalizing parts with
    | nil => rfl
    | cons request requests ih =>
      cases parts with
      | nil => cases hlength
      | cons part parts =>
        rw [List.zipWith_cons_cons, List.filterMap_cons_some (hanswers request part)]
        rw [ih parts (Nat.succ.inj hlength)]
  cases job with
  | single => rfl
  | batched active_batch merged =>
    simp only [State.settleJob]
    split
    · rename_i hsplit
      refine hzip _ (fun _ _ => rfl) active_batch _ ?_
      rw [splitExecutionResponse_length hsplit, List.length_map]
    · rfl

/-- A batch that cannot be merged is answered request by request. -/
theorem unmerged_answers (active_batch : List Nat) (result : SchedulerResult) :
    (active_batch.map fun request => WorkerOp.fulfillResult request result).filterMap (·.answers) = active_batch := by
  rw [List.filterMap_map]
  exact List.filterMap_some

/-- Beside what its straight-line steps answer a worker has a batch, which relies on
nothing but its promises; in the sweep the batch has the request the steps are
about. -/
theorem WorkerPc.Performs.shape {pc : WorkerPc} {next : List WorkerOp → WorkerPc} {ops : List WorkerOp}
    (hperforms : pc.Performs next ops) :
    (pc = next ops ∧ ∃ batch, (∀ ops', (next ops').owned = ops'.filterMap (·.answers) ++ batch) ∧
      ∀ {setup : Setup} (s : State setup) ops', (next ops').Sound s = ∀ request ∈ (next ops').owned, s.Open request) ∨
    ∃ now swept request rest, pc = .sweepExpiring now swept request rest ops ∧
      next = .sweepExpiring now swept request rest := by
  cases hperforms with
  | expiring formation => exact .inl ⟨rfl, formation.batch, fun _ => rfl, fun _ _ => rfl⟩
  | sweepExpiring now swept request rest => exact .inr ⟨now, swept, request, rest, rfl, rfl⟩
  | finishing => exact .inl ⟨rfl, [], fun _ => (List.append_nil _).symm, fun _ _ => rfl⟩
  | throwing active_batch => exact .inl ⟨rfl, active_batch, fun _ => rfl, fun _ _ => rfl⟩

/-- What is left to answer after a straight-line step, of what was. -/
theorem WorkerPc.Performs.owned {pc : WorkerPc} {next : List WorkerOp → WorkerPc} {ops : List WorkerOp}
    (hperforms : pc.Performs next ops) (ops' : List WorkerOp) :
    (∃ rest, pc.owned = ops.filterMap (·.answers) ++ rest ∧ (next ops').owned = ops'.filterMap (·.answers) ++ rest) ∨
      (next ops').owned = pc.owned := by
  obtain ⟨rfl, batch, howned, -⟩ | ⟨now, swept, request, rest, rfl, rfl⟩ := hperforms.shape
  · exact .inl ⟨batch, howned ops, howned ops'⟩
  · exact .inr rfl

theorem WorkerPc.Performs.isEarly {pc : WorkerPc} {next : List WorkerOp → WorkerPc} {ops : List WorkerOp}
    (hperforms : pc.Performs next ops) (ops' : List WorkerOp) : (next ops').isEarly = pc.isEarly := by
  cases hperforms <;> rfl

/-- A worker that answers keeps its other requests. -/
theorem WorkerPc.Performs.count {pc : WorkerPc} {next : List WorkerOp → WorkerPc} {op : WorkerOp}
    {ops : List WorkerOp} (hperforms : pc.Performs next (op :: ops)) (request : Nat)
    (hother : op.answers ≠ some request) :
    (next ops).owned.count request = pc.owned.count request := by
  obtain ⟨rest, hpc, hnext⟩ | hsame := hperforms.owned ops
  · rw [hpc, hnext, List.count_append, List.count_append]
    cases hanswers : op.answers with
    | none => rw [List.filterMap_cons_none hanswers]
    | some answered =>
      have hne : answered ≠ request := by
        rintro rfl
        exact hother hanswers
      rw [List.filterMap_cons_some hanswers, List.count_cons_of_ne hne]
  · rw [hsame]

/-- A straight-line step takes no request on. -/
theorem WorkerPc.Performs.count_le {pc : WorkerPc} {next : List WorkerOp → WorkerPc} {op : WorkerOp}
    {ops : List WorkerOp} (hperforms : pc.Performs next (op :: ops)) (request : Nat) :
    (next ops).owned.count request ≤ pc.owned.count request := by
  obtain ⟨rest, hpc, hnext⟩ | hsame := hperforms.owned ops
  · rw [hpc, hnext, List.count_append, List.count_append]
    have hsub : (ops.filterMap (·.answers)).Sublist ((op :: ops).filterMap (·.answers)) :=
      (List.sublist_cons_self op ops).filterMap _
    have hle := hsub.count_le request
    omega
  · rw [hsame]

/-- What a worker took from the queue it did not change stays with it or is lost
as `hlost` says. -/
theorem State.Flows.of_owned {pc pc' : WorkerPc} (hpc : s.workers worker = pc)
    (hworkers : s'.workers = Function.update s.workers worker pc') (hqueue : s'.queue_ = s.queue_)
    (hcount : ∀ request, pc'.owned.count request ≤ pc.owned.count request)
    (hearly : pc'.isEarly = true → pc'.owned = [] ∨ pc.isEarly = true)
    (hlost : ∀ request, pc'.owned.count request < pc.owned.count request → ¬ s'.Open request ∨ s'.Late request) :
    s.Flows s' := by
  refine .of_worker pc' hworkers ?_ ?_ (hpc ▸ hearly) ?_
  · intro request
    rw [hqueue]
  · intro request
    have hle := hcount request
    rw [hqueue, hpc]
    omega
  · intro request hlt
    apply hlost
    rw [hqueue, hpc] at hlt
    omega

/-- A step that keeps the worker's requests flows. -/
theorem State.Flows.of_equal {pc pc' : WorkerPc} (hpc : s.workers worker = pc)
    (hworkers : s'.workers = Function.update s.workers worker pc') (hqueue : s'.queue_ = s.queue_)
    (hcount : ∀ request, pc'.owned.count request = pc.owned.count request)
    (hearly : pc'.isEarly = true → pc'.owned = [] ∨ pc.isEarly = true) : s.Flows s' := by
  refine .of_owned hpc hworkers hqueue (fun request => (hcount request).le) hearly ?_
  intro request hlt
  exact absurd (hcount request) hlt.ne

/-- A straight-line step flows. -/
theorem State.Performed.flows {next : List WorkerOp → WorkerPc} {op : WorkerOp} {ops : List WorkerOp}
    (hperformed : s.Performed worker next op ops s') (hperforms : (s.workers worker).Performs next (op :: ops))
    (hclosed : ∀ request result, op = .setValue request result → s.Open request)
    (hcancelled : ∀ request, (s.pending request).cancelled = true → s.Late request) : s.Flows s' := by
  have hearly (ops' : List WorkerOp) (h : (next ops').isEarly = true) :
      (next ops').owned = [] ∨ (s.workers worker).isEarly = true := .inr (hperforms.isEarly ops' ▸ h)
  cases hperformed with
  | kept ops' inflight_ metrics_ cancel_tokens hanswers =>
    refine .of_equal rfl rfl rfl ?_ (hearly ops')
    intro request
    obtain ⟨rest, hpc, hnext⟩ | hsame := hperforms.owned ops'
    · rw [hpc, hnext, hanswers]
    · rw [hsame]
  | dropped request hanswers hcancel =>
    refine .of_owned rfl rfl rfl hperforms.count_le (hearly ops) ?_
    intro other hlt
    by_cases hother : op.answers = some other
    · rw [hanswers, Option.some.injEq] at hother
      subst hother
      exact .inr (hcancelled request hcancel)
    · exact absurd (hperforms.count other hother) hlt.ne
  | set request result hop hopen =>
    refine .of_owned rfl rfl rfl hperforms.count_le (hearly ops) ?_
    intro other hlt
    by_cases hother : op.answers = some other
    · subst hop
      cases hother
      left
      simp [State.Open, State.pending, State.setRequest, State.setWorker]
    · exact absurd (hperforms.count other hother) hlt.ne
  | terminated request result hop hnot => exact absurd (hclosed request result hop) hnot

/-- Where a scan leaves its worker. -/
theorem State.runScan_pc (s : State setup) (worker : Fin setup.config.instances) (formation : Formation)
    (delay_elapsed : Bool) (position : Nat) (made_progress : Bool) :
    ∃ pc' generation, s.runScan worker formation delay_elapsed position made_progress =
        { s with
          queue_ := (s.scan formation (s.queue_.take position) made_progress (s.queue_.drop position)).queue_
          generation }.setWorker worker pc' ∧
      pc'.isEarly = true ∧
      (∀ request, pc'.owned.count request =
        (s.scan formation (s.queue_.take position) made_progress (s.queue_.drop position)).scanned.taken.count request +
          formation.batch.count request) ∧
      ∀ t : State setup, (∀ request ∈ pc'.owned, t.Open request) → pc'.Sound t := by
  refine ⟨_, _, rfl, ?_⟩
  split
  · rename_i hscanned
    have hcount (request : Nat) : formation.batch.count request =
        (s.scan formation (s.queue_.take position) made_progress (s.queue_.drop position)).scanned.taken.count request +
          formation.batch.count request := by
      rw [hscanned]
      exact (Nat.zero_add _).symm
    split
    · exact ⟨rfl, hcount, fun t hopen => hopen⟩
    · split
      · exact ⟨rfl, hcount, fun t hopen => hopen⟩
      · exact ⟨rfl, hcount, fun t hopen => hopen⟩
  · rename_i next position hscanned
    refine ⟨rfl, fun request => ?_, fun t hopen => hopen⟩
    rw [hscanned]
    exact List.count_append
  · rename_i next hscanned
    refine ⟨rfl, fun request => ?_, fun t hopen => hopen⟩
    rw [hscanned]
    exact List.count_append.trans (Nat.add_comm ..)

/-- A scan flows. -/
theorem State.runScan_flows (hcancelled : ∀ request, (s.pending request).cancelled = true → s.Late request)
    {formation : Formation} {delay_elapsed : Bool} (position : Nat) (made_progress : Bool)
    (hearly : (s.workers worker).isEarly = true) (howned : (s.workers worker).owned = formation.batch) :
    s.Flows (s.runScan worker formation delay_elapsed position made_progress) := by
  obtain ⟨pc', generation, hscan, -, hcount, -⟩ := s.runScan_pc worker formation delay_elapsed position made_progress
  obtain ⟨dropped, hdropped, hqueue⟩ := s.scan_count formation position made_progress
  rw [hscan]
  refine .of_worker pc' rfl ?_ ?_ (fun _ => .inr hearly) ?_
  · intro request
    have hsplit := hqueue request
    change List.count request (State.scan ..).queue_ ≤ _
    omega
  · intro request
    have hsplit := hqueue request
    rw [hcount, howned]
    change List.count request (State.scan ..).queue_ + _ ≤ _
    omega
  · intro request hlt
    have hsplit := hqueue request
    rw [hcount, howned] at hlt
    change List.count request (State.scan ..).queue_ + _ < _ at hlt
    have hmem : request ∈ dropped := by
      apply List.count_pos_iff.mp
      omega
    exact .inr (hcancelled request (hdropped request hmem))

/-- The worker does not go on with an iterator that the queue has left behind. -/
def WorkerPc.Fresh (s : State setup) : WorkerPc → Prop
  | .rescanning _ _ iterator => iterator.generation = s.generation
  | _ => True

theorem WorkerPc.Quiet.fresh {pc pc' : WorkerPc} (hquiet : pc.Quiet pc') (s : State setup) : pc.Fresh s := by
  cases hquiet <;> trivial

/-- A worker's request with nothing left to set has a promise to set. -/
theorem WorkerPc.Sound.open_of_setValue {next : List WorkerOp → WorkerPc} {op : WorkerOp} {ops : List WorkerOp}
    {pc : WorkerPc} (hperforms : pc.Performs next (op :: ops)) (hsound : pc.Sound s) {request : Nat}
    (hanswers : op.answers = some request) : s.Open request := by
  have hmem : request ∈ (op :: ops).filterMap (·.answers) :=
    List.mem_filterMap.mpr ⟨op, List.mem_cons_self, hanswers⟩
  obtain ⟨rfl, batch, howned, hnext⟩ | ⟨now, swept, expired, rest, rfl, rfl⟩ := hperforms.shape
  · rw [hnext] at hsound
    exact hsound request (howned _ ▸ List.mem_append_left batch hmem)
  · obtain ⟨-, -, -, -, hnone | ⟨hself, hopen⟩⟩ := hsound
    · rw [hnone] at hmem
      cases hmem
    · rw [hself, List.mem_singleton] at hmem
      rw [hmem]
      exact hopen

/-- Every step of a worker flows. -/
theorem State.Works.flows (hworks : s.Works worker s') (hsound : (s.workers worker).Sound s)
    (hfresh : (s.workers worker).Fresh s)
    (hcancelled : ∀ request, (s.pending request).cancelled = true → s.Late request) : s.Flows s' := by
  have hlate {t : State setup} {request other : Nat} {rest : List Nat} (ht : t.Late request)
      (hlt : rest.count other < (request :: rest).count other) : ¬ t.Open other ∨ t.Late other := by
    by_cases hother : request = other
    · subst hother
      exact .inr ht
    · rw [List.count_cons_of_ne hother] at hlt
      exact absurd rfl hlt.ne
  have hcons (first request : Nat) (queue_ : List Nat) :
      (first :: queue_).count request = queue_.count request + [first].count request := by
    rw [← List.singleton_append, List.count_append, Nat.add_comm]
  cases hworks with
  | quiet pc' hquiet =>
    refine .of_equal rfl rfl rfl (fun request => by rw [hquiet.owned]) hquiet.isEarly
  | popped first queue_ hpc hqueue =>
    refine .of_worker (.forming first) rfl ?_ ?_ (fun _ => .inr (by rw [hpc]; rfl)) ?_
    · intro request
      rw [hqueue]
      exact (List.sublist_cons_self first queue_).count_le request
    · intro request
      rw [hqueue, hpc, hcons first request queue_]
      exact Nat.le_add_right ..
    · intro request hlt
      rw [hqueue, hpc, hcons first request queue_] at hlt
      exact absurd rfl hlt.ne
  | exited hpc => exact .of_equal hpc rfl rfl (fun _ => rfl) (fun _ => .inl rfl)
  | scanned formation delay_elapsed position made_progress hpc =>
    obtain hpc | ⟨iterator, hpc⟩ := hpc
    · exact State.runScan_flows hcancelled position made_progress (by rw [hpc]; rfl) (by rw [hpc]; rfl)
    · exact State.runScan_flows hcancelled position made_progress (by rw [hpc]; rfl) (by rw [hpc]; rfl)
  | stale formation delay_elapsed iterator hpc hstale =>
    rw [hpc] at hfresh
    exact absurd hfresh hstale
  | formed formation metrics_ hpc => exact .of_equal hpc rfl rfl (fun _ => rfl) (fun _ => .inr rfl)
  | processing batch hpc => exact .of_equal hpc rfl rfl (fun _ => rfl) (fun _ => .inr rfl)
  | overdue now swept request rest hpc => exact .of_equal hpc rfl rfl (fun _ => rfl) (fun _ => .inr rfl)
  | dropped request rest active_batch hpc hcancel =>
    refine .of_owned hpc rfl rfl ?_ (fun _ => .inr rfl) ?_
    · intro other
      exact (List.sublist_cons_self request (rest ++ active_batch)).count_le other
    · intro other hlt
      exact hlate (hcancelled request hcancel) hlt
  | late request rest active_batch hpc hoverdue =>
    refine .of_owned hpc rfl rfl ?_ (fun _ => .inr rfl) ?_
    · intro other
      exact (List.sublist_cons_self request (rest ++ active_batch)).count_le other
    · intro other hlt
      exact hlate hoverdue hlt
  | active request rest active_batch hpc hinTime =>
    refine .of_equal hpc rfl rfl ?_ (fun _ => .inr rfl)
    intro other
    have hperm : (rest ++ (active_batch ++ [request])).Perm (request :: (rest ++ active_batch)) := by
      rw [← List.append_assoc]
      exact List.perm_append_singleton ..
    exact hperm.count_eq other
  | unmerged active_batch error hpc =>
    refine .of_equal hpc rfl rfl ?_ (fun hearly => nomatch hearly)
    intro request
    exact congrArg (List.count request) (unmerged_answers active_batch _)
  | singleDropped request hpc hcancel =>
    refine .of_owned hpc rfl rfl (fun _ => Nat.zero_le _) (fun _ => .inr rfl) ?_
    intro other hlt
    exact hlate (hcancelled request hcancel) hlt
  | singleLate request hpc => exact .of_equal hpc rfl rfl (fun _ => rfl) (fun hearly => nomatch hearly)
  | selected job hpc => exact .of_equal hpc rfl rfl (fun _ => rfl) (fun _ => .inr rfl)
  | executed job executor_index execution_started response ops hpc hsettle
  | unsplit job executor_index execution_started response ops hpc hsettle =>
    have howned := settleJob_owned s job executor_index execution_started response
    rw [hsettle] at howned
    exact .of_equal hpc rfl rfl (fun request => congrArg (List.count request) howned) nofun
  | performed next op ops hperforms hperform =>
    refine (State.perform_performed hperform).flows hperforms ?_ hcancelled
    rintro request result rfl
    exact hsound.open_of_setValue hperforms rfl

/-- The promise of one request is set, and nothing else of the requests changes. -/
structure State.Sets (s s' : State setup) (request : Nat) (result : SchedulerResult) : Prop where
  was : s.Open request
  requests : s'.requests =
    Function.update s.requests request (some { s.pending request with promise := some result })

theorem State.Sets.pending {request : Nat} {result : SchedulerResult} (hsets : s.Sets s' request result) :
    s'.pending request = { s.pending request with promise := some result } := by
  apply State.pending_of_some
  rw [hsets.requests, Function.update_self]

/-- To set one promise leaves the other requests alone. -/
theorem State.Sets.others {request : Nat} {result : SchedulerResult} (hsets : s.Sets s' request result) {other : Nat}
    (hother : other ≠ request) : s'.pending other = s.pending other := by
  apply State.pending_congr
  rw [hsets.requests, Function.update_of_ne hother]

theorem State.Sets.late {request : Nat} {result : SchedulerResult} (hsets : s.Sets s' request result)
    (hnow : s'.now = s.now) {other : Nat}
    (hlate : s.Late other) : s'.Late other := by
  unfold State.Late at hlate ⊢
  rw [hnow]
  by_cases hother : other = request
  · subst hother
    rw [hsets.pending]
    exact hlate
  · rw [hsets.others hother]
    exact hlate

/-- To set one promise leaves the others open. -/
theorem State.Sets.open_of_ne {request : Nat} {result : SchedulerResult} (hsets : s.Sets s' request result)
    {other : Nat} (hother : other ≠ request)
    (hopen : s.Open other) : s'.Open other := by
  unfold State.Open at hopen ⊢
  rw [hsets.others hother]
  exact hopen

/-- Beside its own position a worker changes the queue and what is counted, and
sets at most the promise of a request it has. -/
structure State.Works.Frame (s : State setup) (worker : Fin setup.config.instances) (s' : State setup) : Prop where
  workers : ∃ pc', s'.workers = Function.update s.workers worker pc'
  now : s'.now = s.now
  submits : s'.submits = s.submits
  drains : s'.drains = s.drains
  draining : s'.draining_ = s.draining_
  queue : ∀ request ∈ s'.queue_, request ∈ s.queue_
  requests : s'.requests = s.requests ∨ ∃ request ∈ (s.workers worker).owned, ∃ result, s.Sets s' request result

/-- What a worker's step changes of the requests. -/
theorem State.Works.frame (hworks : s.Works worker s') (hsound : (s.workers worker).Sound s) :
    State.Works.Frame s worker s' := by
  have hmove {t : State setup} {pc' : WorkerPc} (hworkers : t.workers = Function.update s.workers worker pc')
      (hnow : t.now = s.now) (hsubmits : t.submits = s.submits) (hdrains : t.drains = s.drains)
      (hdraining : t.draining_ = s.draining_) (hqueue : t.queue_ = s.queue_) (hrequests : t.requests = s.requests) :
      State.Works.Frame s worker t :=
    ⟨⟨pc', hworkers⟩, hnow, hsubmits, hdrains, hdraining, fun request hmem => hqueue ▸ hmem, .inl hrequests⟩
  cases hworks with
  | popped first queue_ hpc hqueue =>
    refine ⟨⟨_, rfl⟩, rfl, rfl, rfl, rfl, ?_, .inl rfl⟩
    intro request hmem
    rw [hqueue]
    exact List.mem_cons_of_mem first hmem
  | scanned formation delay_elapsed position made_progress hpc =>
    obtain ⟨pc', generation, hscan, -⟩ := s.runScan_pc worker formation delay_elapsed position made_progress
    obtain ⟨dropped, -, hqueue⟩ := s.scan_count formation position made_progress
    rw [hscan]
    refine ⟨⟨_, rfl⟩, rfl, rfl, rfl, rfl, ?_, .inl rfl⟩
    intro request hmem
    have hpos := List.count_pos_iff.mpr hmem
    have hsplit := hqueue request
    change 0 < List.count request (State.scan ..).queue_ at hpos
    apply List.count_pos_iff.mp
    omega
  | performed next op ops hperforms hperform =>
    cases State.perform_performed hperform with
    | kept => exact hmove rfl rfl rfl rfl rfl rfl rfl
    | dropped => exact hmove rfl rfl rfl rfl rfl rfl rfl
    | terminated => exact hmove rfl rfl rfl rfl rfl rfl rfl
    | set request result hop hopen =>
      refine ⟨⟨_, rfl⟩, rfl, rfl, rfl, rfl, fun request hmem => hmem, .inr ⟨request, ?_, result, ⟨hopen, rfl⟩⟩⟩
      have hmem : request ∈ (op :: ops).filterMap (·.answers) :=
        List.mem_filterMap.mpr ⟨op, List.mem_cons_self, by rw [hop]; rfl⟩
      generalize s.workers worker = pc at hperforms hsound
      obtain ⟨rfl, batch, howned, -⟩ | ⟨now, swept, expired, rest, rfl, rfl⟩ := hperforms.shape
      · rw [howned]
        exact List.mem_append_left batch hmem
      · obtain ⟨-, -, -, -, hnone | ⟨hself, -⟩⟩ := hsound
        · rw [hnone] at hmem
          cases hmem
        · rw [hself, List.mem_singleton] at hmem
          rw [hmem]
          exact List.mem_append_right _ List.mem_cons_self
  | _ => exact hmove rfl rfl rfl rfl rfl rfl rfl

/-- A worker leaves when the model drains and the queue is empty. -/
theorem State.Works.leaves (hworks : s.Works worker s') (hexited : s'.workers worker = .exited) :
    s'.draining_ = true ∧ s'.queue_ = [] := by
  have hmoved {t : State setup} {pc' : WorkerPc} (hworkers : t.workers = Function.update s.workers worker pc')
      (hpc' : pc' ≠ .exited) : t.workers worker ≠ .exited := by
    rw [hworkers, Function.update_self]
    exact hpc'
  cases hworks with
  | quiet pc' hquiet =>
    refine absurd hexited (hmoved rfl ?_)
    rintro rfl
    generalize s.workers worker = pc at hquiet
    cases hquiet
  | exited hpc hqueue hdraining => exact ⟨hdraining, hqueue⟩
  | scanned formation delay_elapsed position made_progress hpc =>
    refine absurd hexited (hmoved rfl ?_)
    split
    · split
      · exact nofun
      · split <;> exact nofun
    · exact nofun
    · exact nofun
  | performed next op ops hperforms hperform =>
    have hnext (ops' : List WorkerOp) : next ops' ≠ .exited := by
      generalize s.workers worker = pc at hperforms
      cases hperforms <;> exact nofun
    cases State.perform_performed hperform with
    | kept => exact absurd hexited (hmoved rfl (hnext _))
    | dropped => exact absurd hexited (hmoved rfl (hnext _))
    | set => exact absurd hexited (hmoved rfl (hnext _))
    | terminated => exact absurd hexited (hmoved rfl nofun)
  | _ => exact absurd hexited (hmoved rfl nofun)

/-- What is left alone is relied on as before. -/
theorem WorkerPc.Sound.move {pc' : WorkerPc} (hworkers : s'.workers = Function.update s.workers worker pc')
    (hrequests : s'.requests = s.requests) (hnow : s'.now = s.now) (hpc' : pc'.Sound s) :
    (s'.workers worker).Sound s' := by
  have hpending (request : Nat) : s'.pending request = s.pending request := State.pending_congr (by rw [hrequests])
  rw [hworkers, Function.update_self]
  refine hpc'.frame hnow.ge ?_ ?_
  · intro request _ hopen
    unfold State.Open
    rw [hpending]
    exact hopen
  · intro request _ hlate
    unfold State.Late
    rw [hpending, hnow]
    exact hlate

/-- A straight-line step leaves the worker with what it may rely on. -/
theorem State.Performed.sound {next : List WorkerOp → WorkerPc} {op : WorkerOp} {ops : List WorkerOp}
    (hperformed : s.Performed worker next op ops s') (hperforms : (s.workers worker).Performs next (op :: ops))
    (hsound : (s.workers worker).Sound s)
    (hsingle : ∀ request, (s.workers worker).owned.count request ≤ 1) : (s'.workers worker).Sound s' := by
  cases hperformed with
  | kept ops' inflight_ metrics_ cancel_tokens hanswers =>
    refine .move rfl rfl rfl ?_
    generalize s.workers worker = pc at hperforms hsound
    obtain ⟨rfl, batch, howned, hnext⟩ | ⟨now, swept, expired, rest, rfl, rfl⟩ := hperforms.shape
    · rw [hnext, howned] at hsound ⊢
      rwa [hanswers]
    · obtain ⟨hle, hswept, hrest, hlate, hops⟩ := hsound
      exact ⟨hle, hswept, hrest, hlate, by rw [hanswers]; exact hops⟩
  | dropped request hanswers hcancelled =>
    refine .move rfl rfl rfl ?_
    have hfilter : (op :: ops).filterMap (·.answers) = request :: ops.filterMap (·.answers) :=
      List.filterMap_cons_some hanswers
    generalize s.workers worker = pc at hperforms hsound
    obtain ⟨rfl, batch, howned, hnext⟩ | ⟨now, swept, expired, rest, rfl, rfl⟩ := hperforms.shape
    · rw [hnext, howned] at hsound ⊢
      rw [hfilter] at hsound
      intro other hmem
      exact hsound other (List.mem_cons_of_mem _ hmem)
    · obtain ⟨hle, hswept, hrest, hlate, hops⟩ := hsound
      refine ⟨hle, hswept, hrest, hlate, .inl ?_⟩
      obtain hnone | ⟨hself, -⟩ := hops
      · rw [hfilter] at hnone
        cases hnone
      · rw [hfilter] at hself
        exact (List.cons.inj hself).2
  | set request result hop hopen =>
    have hsets : s.Sets
        ((s.setRequest request { s.pending request with promise := some result }).setWorker worker (next ops))
        request result := ⟨hopen, rfl⟩
    have hfilter : (op :: ops).filterMap (·.answers) = request :: ops.filterMap (·.answers) :=
      List.filterMap_cons_some (by rw [hop]; rfl)
    change (Function.update s.workers worker (next ops) worker).Sound _
    rw [Function.update_self]
    -- the request is in the batch once, so what is left of it is about others
    have hothers {rest : List Nat} (hcount : (request :: rest).count request ≤ 1) :
        ∀ other ∈ rest, other ≠ request := by
      rintro other hmem rfl
      have hpos := List.count_pos_iff.mpr hmem
      rw [List.count_cons_self] at hcount
      omega
    have hcount := hsingle request
    generalize s.workers worker = pc at hperforms hsound hcount
    obtain ⟨rfl, batch, howned, hnext⟩ | ⟨now, swept, expired, rest, rfl, rfl⟩ := hperforms.shape
    · rw [hnext, howned] at hsound ⊢
      rw [howned, hfilter] at hcount
      rw [hfilter] at hsound
      intro other hmem
      exact hsets.open_of_ne (hothers hcount other hmem) (hsound other (List.mem_cons_of_mem _ hmem))
    · obtain ⟨hle, hswept, hrest, hlate, hops⟩ := hsound
      obtain hnone | ⟨hself, -⟩ := hops
      · rw [hfilter] at hnone
        cases hnone
      · rw [hfilter] at hself
        obtain ⟨rfl, hnil⟩ := List.cons.inj hself
        change List.count request (swept ++ request :: rest) ≤ 1 at hcount
        rw [List.perm_middle.count_eq] at hcount
        refine ⟨hle, ?_, ?_, hsets.late rfl hlate, .inl hnil⟩
        · intro other hmem
          have hother := hothers hcount other (List.mem_append_left _ hmem)
          exact (hswept other hmem).imp (hsets.open_of_ne hother) (hsets.late rfl)
        · intro other hmem
          exact hsets.open_of_ne (hothers hcount other (List.mem_append_right _ hmem)) (hrest other hmem)
  | terminated request result hop hnot =>
    exact absurd (hsound.open_of_setValue hperforms (by rw [hop]; rfl)) hnot

/-- A worker relies on the same things after its step. -/
theorem State.Works.sound (hworks : s.Works worker s') (hsound : (s.workers worker).Sound s)
    (hfresh : (s.workers worker).Fresh s) (hqueue : ∀ request ∈ s.queue_, s.Open request)
    (hsingle : ∀ request, (s.workers worker).owned.count request ≤ 1) : (s'.workers worker).Sound s' := by
  have hmove {t : State setup} {pc' : WorkerPc} (hworkers : t.workers = Function.update s.workers worker pc')
      (hrequests : t.requests = s.requests) (hnow : t.now = s.now) (hpc' : pc'.Sound s) :
      (t.workers worker).Sound t := .move hworkers hrequests hnow hpc'
  cases hworks with
  | quiet pc' hquiet => exact hmove rfl rfl rfl (hquiet.sound hsound)
  | popped first queue_ hpc hqueue' =>
    refine hmove rfl rfl rfl ?_
    intro request hmem
    apply hqueue
    rw [hqueue', List.mem_singleton.mp hmem]
    exact List.mem_cons_self
  | exited => exact hmove rfl rfl rfl nofun
  | scanned formation delay_elapsed position made_progress hpc =>
    have hbatch : ∀ request ∈ formation.batch, s.Open request := by
      obtain hpc | ⟨iterator, hpc⟩ := hpc
      · rwa [hpc] at hsound
      · rwa [hpc] at hsound
    obtain ⟨pc', generation, hscan, -, hcount, hpc'⟩ :=
      s.runScan_pc worker formation delay_elapsed position made_progress
    obtain ⟨dropped, -, hsplit⟩ := s.scan_count formation position made_progress
    rw [hscan]
    refine hmove rfl rfl rfl (hpc' s ?_)
    intro request hmem
    have hpos := List.count_pos_iff.mpr hmem
    rw [hcount] at hpos
    by_cases hmember : request ∈ formation.batch
    · exact hbatch request hmember
    · rw [List.count_eq_zero_of_not_mem hmember] at hpos
      apply hqueue
      apply List.count_pos_iff.mp
      have htaken := hsplit request
      omega
  | stale formation delay_elapsed iterator hpc hstale =>
    rw [hpc] at hfresh
    exact absurd hfresh hstale
  | formed formation metrics_ hpc =>
    rw [hpc] at hsound
    exact hmove rfl rfl rfl hsound
  | processing batch hpc =>
    rw [hpc] at hsound
    exact hmove rfl rfl rfl ⟨le_refl _, nofun, hsound⟩
  | overdue now swept request rest hpc hlate =>
    rw [hpc] at hsound
    obtain ⟨hle, hswept, hrest⟩ := hsound
    refine hmove rfl rfl rfl ⟨hle, hswept, ?_, hlate.trans hle, .inr ⟨rfl, hrest request List.mem_cons_self⟩⟩
    intro other hmem
    exact hrest other (List.mem_cons_of_mem _ hmem)
  | dropped request rest active_batch hpc =>
    rw [hpc] at hsound
    exact hmove rfl rfl rfl ⟨fun other hmem => hsound.1 other (List.mem_cons_of_mem _ hmem), hsound.2⟩
  | late request rest active_batch hpc =>
    rw [hpc] at hsound
    exact hmove rfl rfl rfl hsound.2
  | active request rest active_batch hpc hinTime =>
    rw [hpc] at hsound
    obtain ⟨hself, hrest, hactive⟩ := hsound
    refine hmove rfl rfl rfl ⟨hrest, ?_⟩
    intro other hmem
    obtain hmem | hmem := List.mem_append.mp hmem
    · exact hactive other hmem
    · rw [List.mem_singleton.mp hmem]
      exact hself.resolve_right hinTime
  | unmerged active_batch error hpc =>
    rw [hpc] at hsound
    refine hmove rfl rfl rfl ?_
    intro request hmem
    apply hsound.2
    rwa [← unmerged_answers active_batch (makeExecutorFailureResult error)]
  | singleDropped => exact hmove rfl rfl rfl nofun
  | singleLate request hpc =>
    rw [hpc] at hsound
    exact hmove rfl rfl rfl hsound
  | selected job hpc =>
    rw [hpc] at hsound
    exact hmove rfl rfl rfl hsound
  | executed job executor_index execution_started response ops hpc hsettle
  | unsplit job executor_index execution_started response ops hpc hsettle =>
    rw [hpc] at hsound
    have howned := settleJob_owned s job executor_index execution_started response
    rw [hsettle] at howned
    refine hmove rfl rfl rfl ?_
    intro request hmem
    rw [howned] at hmem
    exact hsound request hmem
  | performed next op ops hperforms hperform =>
    exact (State.perform_performed hperform).sound hperforms hsound hsingle

end Steps

end neuriplo.batch
