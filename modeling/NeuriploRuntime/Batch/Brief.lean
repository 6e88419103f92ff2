import NeuriploRuntime.Batch.Measure

open neuriplo.scheduler neuriplo.tensor transition

namespace neuriplo.batch

variable {setup : Setup}

section Steps

variable {s s' : State setup} {worker : Fin setup.config.instances}

/-- How many requests are still answered by straight-line steps. -/
def answersLeft (ops : List WorkerOp) : Nat := (ops.filterMap (·.answers)).length

theorem answersLeft_cons (op : WorkerOp) (ops : List WorkerOp) :
    answersLeft (op :: ops) = answersLeft ops + if op.answers.isSome then 1 else 0 := by
  unfold answersLeft
  cases hanswers : op.answers with
  | none => rw [List.filterMap_cons_none hanswers, Option.isSome_none, if_neg Bool.false_ne_true, Nat.add_zero]
  | some request => rw [List.filterMap_cons_some hanswers, List.length_cons, Option.isSome_some, if_pos rfl]

/-- The straight-line steps are paid for by the answers among them, but for three, and so they are from each of them
on; none of them notifies. -/
structure Brief (ops : List WorkerOp) : Prop where
  short : ∀ left, left <:+ ops → opsLeft left ≤ 5 * answersLeft left + 3
  silent : ∀ op ∈ ops, op ≠ .notifyOne

/-- Brief steps are paid for by the answers among them. -/
theorem Brief.opsLeft_le {ops : List WorkerOp} (hbrief : Brief ops) : opsLeft ops ≤ 5 * answersLeft ops + 3 :=
  hbrief.short ops (List.suffix_refl ops)

theorem Brief.tail {op : WorkerOp} {ops : List WorkerOp} (hbrief : Brief (op :: ops)) : Brief ops where
  short left hleft := hbrief.short left (hleft.trans (List.suffix_cons op ops))
  silent other hother := hbrief.silent other (List.mem_cons_of_mem _ hother)

theorem brief_nil : Brief [] where
  short left hleft := by
    rw [List.suffix_nil.mp hleft]
    exact Nat.zero_le _
  silent _ hop := absurd hop List.not_mem_nil

/-- Brief steps stay so behind one that is paid for. -/
theorem Brief.cons {op : WorkerOp} {ops : List WorkerOp} (hbrief : Brief ops) (hsilent : op ≠ .notifyOne)
    (hop : opsLeft (op :: ops) ≤ 5 * answersLeft (op :: ops) + 3) : Brief (op :: ops) where
  short left hleft := by
    obtain rfl | hleft := List.suffix_cons_iff.mp hleft
    · exact hop
    · exact hbrief.short left hleft
  silent := List.forall_mem_cons.mpr ⟨hsilent, hbrief.silent⟩

/-- Brief steps stay so behind one that answers a request. -/
theorem Brief.answer {op : WorkerOp} {ops : List WorkerOp} (hbrief : Brief ops) (hanswers : op.answers.isSome = true)
    (hsteps : op.steps ≤ 5) : Brief (op :: ops) := by
  have hops := hbrief.opsLeft_le
  apply hbrief.cons
  · rintro rfl
    cases hanswers
  · rw [opsLeft_cons, answersLeft_cons, if_pos hanswers]
    omega

/-- Brief steps stay so behind the expiry of a request. -/
theorem Brief.expire {ops : List WorkerOp} (hbrief : Brief ops) (request : Nat) :
    Brief (batch.expire request ++ ops) := by
  have hops := hbrief.opsLeft_le
  have hanswer : Brief (.fulfillResult request makeTimeoutResult :: ops) :=
    hbrief.answer rfl (Nat.le_of_ble_eq_true rfl)
  have hcounted : Brief (.countTimedOut request :: .fulfillResult request makeTimeoutResult :: ops) := by
    apply hanswer.cons (by rintro ⟨⟩)
    simp only [opsLeft_cons, answersLeft_cons, WorkerOp.steps, WorkerOp.answers, Option.isSome_some, if_true]
    omega
  apply hcounted.cons (by rintro ⟨⟩)
  simp only [opsLeft_cons, answersLeft_cons, WorkerOp.steps, WorkerOp.answers, Option.isSome_some, if_true]
  omega

theorem brief_expire (request : Nat) : Brief (expire request) := brief_nil.expire request

theorem brief_unmerged (active_batch : List Nat) (result : SchedulerResult) :
    Brief (active_batch.map fun request => .fulfillResult request result) := by
  induction active_batch with
  | nil => exact brief_nil
  | cons request active_batch ih => exact ih.answer rfl (Nat.le_of_ble_eq_true rfl)

/-- What a worker does with the response of an executor is brief. -/
theorem brief_settleJob (s : State setup) (job : Job) (executor_index : Nat) (execution_started : Int)
    (response : ExecutionResponse) : Brief (s.settleJob job executor_index execution_started response).ops := by
  have hzip (settle : Nat → ExecutionResponse → WorkerOp) (hsteps : ∀ request part, (settle request part).steps = 5)
      (hanswers : ∀ request part, (settle request part).answers.isSome = true) (requests : List Nat)
      (parts : List ExecutionResponse) : Brief (List.zipWith settle requests parts) ∧
        opsLeft (List.zipWith settle requests parts) ≤ 5 * answersLeft (List.zipWith settle requests parts) := by
    induction requests generalizing parts with
    | nil => exact ⟨brief_nil, le_refl _⟩
    | cons request requests ih =>
      cases parts with
      | nil => exact ⟨brief_nil, le_refl _⟩
      | cons part parts =>
        obtain ⟨hbrief, hle⟩ := ih parts
        rw [List.zipWith_cons_cons]
        refine ⟨hbrief.answer (hanswers request part) (Nat.le_of_eq (hsteps request part)), ?_⟩
        rw [opsLeft_cons, answersLeft_cons, hsteps, if_pos (hanswers request part)]
        omega
  cases job with
  | single request =>
    have hcheck : Brief [.checkCancelled request execution_started s.now response] := by
      apply brief_nil.cons (by rintro ⟨⟩)
      exact (by decide : 6 ≤ 8)
    apply hcheck.cons (by rintro ⟨⟩)
    exact (by decide : 7 ≤ 8)
  | batched active_batch merged =>
    simp only [State.settleJob]
    split
    · next responses hsplit =>
      obtain ⟨hbrief, hle⟩ := hzip (fun request => .settle request execution_started s.now active_batch.length)
        (fun _ _ => rfl) (fun _ _ => rfl) active_batch responses
      refine Brief.cons (Brief.cons hbrief (by rintro ⟨⟩) ?_) (by rintro ⟨⟩) ?_ <;>
      · simp only [opsLeft_cons, answersLeft_cons, WorkerOp.steps, WorkerOp.answers, Option.isSome_none]
        omega
    · have hrecord : Brief [.recordBatchExecution (s.now - execution_started)] := by
        apply brief_nil.cons (by rintro ⟨⟩)
        exact (by decide : 1 ≤ 3)
      apply hrecord.cons (by rintro ⟨⟩)
      exact (by decide : 2 ≤ 3)

/-- A straight-line step leaves brief ones, or ends the worker. -/
theorem State.perform_brief {next : List WorkerOp → WorkerPc} {op : WorkerOp} {ops : List WorkerOp}
    (hbrief : Brief (op :: ops)) (hperform : s.perform worker next ops op = some s') :
    s'.workers worker = .terminated [] ∨ ∃ left, s'.workers worker = next left ∧ Brief left := by
  have hops := hbrief.tail
  have hleft {t : State setup} {left : List WorkerOp} (hleft : Brief left) :
      (t.setWorker worker (next left)).workers worker = .terminated [] ∨
        ∃ other, (t.setWorker worker (next left)).workers worker = next other ∧ Brief other :=
    .inr ⟨left, t.setWorker_self worker _, hleft⟩
  cases op with
  | notifyOne => cases hperform
  | setToken | countTimedOut | release | recordBatchExecution | recordLatencies =>
    cases hperform
    exact hleft hops
  | fulfillResult request result =>
    cases hperform
    apply hleft
    split
    · exact hops
    · exact hops.answer rfl (Nat.le_of_ble_eq_true rfl)
  | checkCancelled request execution_started execution_finished response =>
    cases hperform
    apply hleft
    split
    · exact hops
    · exact hops.answer rfl (Nat.le_of_ble_eq_true rfl)
  | settle request execution_started execution_finished batch_size response =>
    cases hperform
    apply hleft
    split
    · exact hops.expire request
    · have hle := hops.opsLeft_le
      have hanswer : Brief (.fulfillResult request (completedResult (s.pending request).enqueued_at execution_started
          execution_finished batch_size response) :: ops) := hops.answer rfl (Nat.le_of_ble_eq_true rfl)
      apply hanswer.cons (by rintro ⟨⟩)
      simp only [opsLeft_cons, answersLeft_cons, WorkerOp.steps, WorkerOp.answers, Option.isSome_some, if_true]
      omega
  | setValue request result =>
    simp only [perform] at hperform
    split at hperform <;> cases hperform
    · exact hleft hops
    · exact .inl (s.setWorker_self worker _)

/-- The straight-line steps that a worker has left; after it erased an expired request it notifies first. -/
def WorkerPc.Brief : WorkerPc → Prop
  | .expiring _ _ _ ops => batch.Brief ops ∨ ∃ rest, ops = .notifyOne :: rest ∧ batch.Brief rest
  | .sweepExpiring _ _ _ _ ops => batch.Brief ops
  | .finishing ops => batch.Brief ops
  | .throwing _ ops => batch.Brief ops
  | _ => True

/-- A quiet step leaves brief ones. -/
theorem WorkerPc.Quiet.brief {pc pc' : WorkerPc} (hquiet : pc.Quiet pc') (hbrief : pc.Brief) : pc'.Brief := by
  cases hquiet with
  | expiredNotified formation delay_elapsed iterator ops =>
    obtain hnever | ⟨rest, hops, hrest⟩ := hbrief
    · exact absurd rfl (hnever.silent .notifyOne List.mem_cons_self)
    · rw [(List.cons.inj hops).2]
      exact .inl hrest
  | _ => trivial

theorem WorkerPc.Performs.brief {pc : WorkerPc} {next : List WorkerOp → WorkerPc} {op : WorkerOp} {ops : List WorkerOp}
    (hperforms : pc.Performs next (op :: ops)) (hop : op ≠ .notifyOne) (hbrief : pc.Brief) :
    batch.Brief (op :: ops) ∧ ∀ left, batch.Brief left → (next left).Brief := by
  cases hperforms with
  | expiring =>
    refine ⟨?_, fun _ => .inl⟩
    obtain hbrief | ⟨rest, hops, -⟩ := hbrief
    · exact hbrief
    · exact absurd (List.cons.inj hops).1 hop
  | sweepExpiring | finishing | throwing => exact ⟨hbrief, fun _ => id⟩

/-- Every step of a worker leaves it with brief ones. -/
theorem State.Works.brief (hworks : s.Works worker s') (hbrief : (s.workers worker).Brief) :
    (s'.workers worker).Brief := by
  cases hworks with
  | quiet pc' hquiet =>
    rw [setWorker_self]
    exact hquiet.brief hbrief
  | scanned formation delay_elapsed position made_progress hpc =>
    rw [runScan, setWorker_self]
    split
    · split
      · trivial
      · split <;> trivial
    · exact .inr ⟨_, rfl, brief_expire _⟩
    · trivial
  | performed next op ops hperforms hperform =>
    have hop : op ≠ .notifyOne := by
      rintro rfl
      cases hperform
    obtain ⟨hops, hnext⟩ := hperforms.brief hop hbrief
    obtain hterminated | ⟨left, hleft, hbrief⟩ := State.perform_brief hops hperform
    · rw [hterminated]
      trivial
    · rw [hleft]
      exact hnext left hbrief
  | overdue now swept request rest =>
    rw [setWorker_self]
    exact brief_expire request
  | singleLate request =>
    rw [setWorker_self]
    exact brief_expire request
  | unmerged active_batch error =>
    rw [setWorker_self]
    exact brief_unmerged active_batch _
  | executed job executor_index execution_started response ops hpc hsettle
  | unsplit job executor_index execution_started response ops hpc hsettle =>
    have hsettled := brief_settleJob s job executor_index execution_started response
    rw [hsettle] at hsettled
    rw [setWorker_self]
    exact hsettled
  | _ =>
    rw [setWorker_self]
    trivial

theorem brief_wakeWorker {pc : WorkerPc} (hbrief : pc.Brief) : (State.wakeWorker pc).Brief := by
  cases pc with
  | popWaiting | formWaiting => trivial
  | _ => exact hbrief

/-- Every step of the scheduler leaves the workers with brief ones. -/
theorem State.Sound.step_brief (hsound : s.Sound) (hbrief : ∀ worker, (s.workers worker).Brief)
    {event : Event setup} (hstep : s.step event = some s') (worker : Fin setup.config.instances) :
    (s'.workers worker).Brief := by
  by_cases hactor : event.actor = some worker
  · cases event with
    | worker acting =>
      obtain rfl : acting = worker := Option.some.inj hactor
      exact (State.runWorker_works hstep).brief (hbrief acting)
    | notifyErased acting woken =>
      obtain rfl : acting = worker := Option.some.inj hactor
      obtain ⟨t, pc', hnotify, hquiet, rfl⟩ := State.notifyErased_quiet hstep
      rw [State.setWorker_self]
      apply hquiet.brief
      obtain hsame | hwoken := (State.notifyOne_leaves hnotify).workers acting
      · rw [hsame]
        exact hbrief acting
      · rw [hwoken]
        exact brief_wakeWorker (hbrief acting)
    | infer acting outcome =>
      obtain rfl : acting = worker := Option.some.inj hactor
      obtain ⟨pc', hquiet, rfl⟩ := State.infer_quiet hstep
      exact (State.Works.quiet pc' hquiet).brief (hbrief acting)
    | undefined acting formation queue_ =>
      rw [hsound.step_undefined] at hstep
      cases hstep
    | _ => cases hactor
  · obtain hsame | hwoken := hsound.step_others hstep hactor
    · rw [hsame]
      exact hbrief worker
    · rw [hwoken]
      exact brief_wakeWorker (hbrief worker)

/-- How many requests the workers have taken and not answered. -/
def State.held (s : State setup) : Nat := tally fun worker => (s.workers worker).owned.length

/-- A worker's rank is bounded by the requests in its hands. -/
theorem WorkerPc.rank_le {pc : WorkerPc} (hbrief : pc.Brief) (hsound : pc.Sound s) :
    pc.rank ≤ 13 * pc.owned.length + 30 := by
  cases pc with
  | expiring formation delay_elapsed iterator ops =>
    have hops : opsLeft ops ≤ 5 * answersLeft ops + 4 := by
      obtain hbrief | ⟨rest, rfl, hbrief⟩ := hbrief
      · exact hbrief.opsLeft_le.trans (Nat.le_succ _)
      · have hrest := hbrief.opsLeft_le
        simp only [opsLeft_cons, answersLeft_cons, WorkerOp.steps, WorkerOp.answers, Option.isSome_none]
        omega
    unfold answersLeft at hops
    simp only [WorkerPc.rank, WorkerPc.owned, List.length_append]
    omega
  | sweepExpiring now swept request rest ops =>
    have hops := Brief.opsLeft_le hbrief
    have hone : answersLeft ops ≤ 1 := by
      unfold answersLeft
      obtain ⟨-, -, -, -, hnone | ⟨hself, -⟩⟩ := hsound
      · rw [hnone]
        exact Nat.zero_le 1
      · rw [hself]
        exact le_refl 1
    simp only [WorkerPc.rank, WorkerPc.owned, List.length_append, List.length_cons]
    omega
  | finishing ops | throwing active_batch ops =>
    have hops := Brief.opsLeft_le hbrief
    unfold answersLeft at hops
    simp only [WorkerPc.rank, WorkerPc.owned, List.length_append]
    omega
  | _ =>
    simp only [WorkerPc.rank, WorkerPc.owned, List.length_append, List.length_cons, List.length_nil]
    omega

/-- The rank is bounded by the requests in the queue and in the workers' hands. -/
theorem State.Sound.rank_le (hsound : s.Sound) (hbrief : ∀ worker, (s.workers worker).Brief) :
    s.rank ≤ 30 * (s.queue_.length + setup.config.instances + s.held) := by
  have htally : (tally fun worker => (s.workers worker).rank) ≤
      tally fun worker => 13 * (s.workers worker).owned.length + 30 :=
    tally_mono fun worker => WorkerPc.rank_le (hbrief worker) (hsound.workers worker)
  have hsum : (tally fun worker => 13 * (s.workers worker).owned.length + 30) =
      13 * s.held + 30 * setup.config.instances := by
    unfold tally State.held tally
    rw [Finset.sum_add_distrib, ← Finset.mul_sum, Finset.sum_const_nat fun _ _ => rfl, Finset.card_univ,
      Fintype.card_fin, Nat.mul_comm setup.config.instances]
  unfold State.rank
  omega

end Steps

end neuriplo.batch
