import NeuriploRuntime.Llm.Deadline
import NeuriploRuntime.Llm.Executors

open neuriplo.scheduler neuriplo.tensor transition

namespace neuriplo.llm

variable {setup : Setup}

/-- The worker neither waits for a slot nor has it waited. -/
def WorkerPc.NeverParked : WorkerPc → Prop
  | .acquiring _ .parked => False
  | .acquiring _ (.predDraining timedOut) => timedOut = false
  | .acquiring _ (.predActive timedOut) => timedOut = false
  | _ => True

section Steps

variable {s s' : State setup} {worker : Fin setup.config.kv_cache_slots}

@[simp] theorem State.setWorker_self (s : State setup) (worker : Fin setup.config.kv_cache_slots) (pc : WorkerPc) :
    (s.setWorker worker pc).workers worker = pc :=
  Function.update_self ..

/-- A worker that asks for a slot gets one, unless the model drains. -/
theorem State.SlotsHeld.acquire (hheld : s.SlotsHeld) {request : Nat} {stage : AcquireStage}
    (hpc : s.workers worker = .acquiring request stage) (hnever : (s.workers worker).NeverParked)
    (hstep : s.acquire worker request stage = some s') :
    (s'.workers worker).NeverParked ∧ (s.draining_ = true ∨ ∀ ops, s'.workers worker ≠ .finishing request ops) := by
  have hnone : (s.workers worker).holds = 0 := by
    rw [hpc]
    rfl
  have hfree := hheld.free hnone
  rw [hpc] at hnever
  cases stage with
  | lock =>
    simp only [State.acquire, Option.ite_none_right_eq_some, Option.some.injEq] at hstep
    obtain ⟨-, rfl⟩ := hstep
    rw [State.setWorker_self]
    exact ⟨rfl, .inr (by rintro _ ⟨⟩)⟩
  | predDraining timedOut =>
    cases hstep
    rw [State.setWorker_self]
    split
    · exact ⟨trivial, .inr (by rintro _ ⟨⟩)⟩
    · exact ⟨hnever, .inr (by rintro _ ⟨⟩)⟩
  | predActive timedOut =>
    simp only [State.acquire, hfree, ↓reduceIte, Option.some.injEq] at hstep
    subst hstep
    rw [State.setWorker_self]
    exact ⟨trivial, .inr (by rintro _ ⟨⟩)⟩
  | parked => exact hnever.elim
  | readDraining =>
    simp only [State.acquire] at hstep
    split at hstep <;> cases hstep
    · exact ⟨by rw [State.refuseSlot, State.setWorker_self]; trivial, .inl ‹_›⟩
    · rw [State.setWorker_self]
      exact ⟨trivial, .inr (by rintro _ ⟨⟩)⟩
  | readActive =>
    simp only [State.acquire, Nat.not_le.mpr hfree, ↓reduceIte, Option.some.injEq] at hstep
    subst hstep
    rw [State.setWorker_self]
    exact ⟨trivial, .inr (by rintro _ ⟨⟩)⟩
  | add =>
    cases hstep
    rw [State.setWorker_self]
    exact ⟨trivial, .inr (by rintro _ ⟨⟩)⟩

/-- A straight-line step parks nobody. -/
theorem State.perform_neverParked {request : Nat} {pending : PendingRequest} {op : WorkerOp} {ops : List WorkerOp} :
    ((s.perform worker request pending ops op).workers worker).NeverParked := by
  have hfinishing {t : State setup} {ops' : List WorkerOp} :
      ((t.setWorker worker (.finishing request ops')).workers worker).NeverParked := by
    rw [State.setWorker_self]
    trivial
  cases op with
  | settle =>
    simp only [State.perform]
    split
    · exact hfinishing
    · split <;> exact hfinishing
  | setValue =>
    simp only [State.perform]
    split
    · exact hfinishing
    · rw [State.setWorker_self]
      trivial
  | _ => exact hfinishing

/-- A worker that asks for no slot starts at most to ask for one. -/
theorem State.Works.neverParked (hworks : s.Works worker s')
    (hother : ∀ request stage, s.workers worker ≠ .acquiring request stage) : (s'.workers worker).NeverParked := by
  cases hworks with
  | quiet pc' hquiet =>
    rw [State.setWorker_self]
    generalize s.workers worker = pc at hquiet hother
    cases hquiet <;> first | trivial | exact absurd rfl (hother _ _)
  | locked _ _ _ hpc => exact absurd hpc (hother _ _)
  | parked _ hpc => exact absurd hpc (hother _ _)
  | refused _ _ hpc => exact absurd hpc (hother _ _)
  | acquired _ hpc => exact absurd hpc (hother _ _)
  | performed => exact State.perform_neverParked
  | _ =>
    rw [State.setWorker_self]
    trivial

/-- With a slot for each worker nobody is parked. -/
theorem State.SlotsHeld.runWorker (hheld : s.SlotsHeld) (hnever : (s.workers worker).NeverParked)
    (hstep : s.runWorker worker = some s') : (s'.workers worker).NeverParked := by
  by_cases hacquiring : ∃ request stage, s.workers worker = .acquiring request stage
  · obtain ⟨request, stage, hpc⟩ := hacquiring
    simp only [State.runWorker, hpc] at hstep
    exact (hheld.acquire hpc hnever hstep).1
  · refine (State.runWorker_works hstep).neverParked ?_
    intro request stage hpc
    exact hacquiring ⟨request, stage, hpc⟩

end Steps

/-- In every run nobody is parked for a slot. -/
theorem neverParked_reachable {start : Int} {s : State setup} (hreach : (system setup start).Reachable s) :
    ∀ worker, (s.workers worker).NeverParked := by
  refine @System.Reachable.invariant _ _ (system setup start)
    (fun s => ∀ worker, (s.workers worker).NeverParked) ?_ ?_ s hreach
  · rintro s rfl worker
    trivial
  · intro s event s' hreach hnever hstep other
    obtain ⟨worker, hworks, hmoves⟩ | ⟨hworkers, -⟩ := State.step_frame hstep
    · have hself : (s'.workers worker).NeverParked := by
        obtain hrun | ⟨outcome, hinfer⟩ := hmoves
        · exact (slotsHeld_reachable hreach).runWorker (hnever worker) hrun
        · refine hworks.neverParked ?_
          intro request stage hpc
          simp only [State.infer, hpc] at hinfer
          cases hinfer
      obtain ⟨⟨pc', hworkers, -⟩, -⟩ := hworks.shares (releasesFirst_reachable hreach worker)
      by_cases hother : other = worker
      · subst hother
        exact hself
      · rw [hworkers, Function.update_of_ne hother]
        exact hnever other
    · rw [hworkers]
      exact hnever other

/-- In every run `active_decodes_` counts the workers between the acquisition and
the release of a slot, the executors' counters those between selection and
release, and nobody waits for a slot or is refused one, unless the model drains. -/
theorem slots_accounted {start : Int} {s : State setup} (hreach : (system setup start).Reachable s) :
    (s.active_decodes_ = tally s.held ∧ (∀ worker, s.held worker ≤ 1) ∧
      s.active_decodes_ ≤ setup.config.kv_cache_slots) ∧
    (∀ worker request ops, s.workers worker = .finishing request (.releaseDecodeSlot :: ops) →
      0 < s.active_decodes_) ∧
    (∀ executor_index, s.inflight_[executor_index]?.getD 0 =
      load (fun worker => (s.workers worker).selected) executor_index) ∧
    ((∀ worker, s.workers worker = .popping ∨ s.workers worker = .exited) →
      s.active_decodes_ = 0 ∧ ∀ inflight ∈ s.inflight_, inflight = 0) ∧
    (∀ worker request, s.workers worker ≠ .acquiring request .parked) ∧
    ∀ worker request stage s', s.workers worker = .acquiring request stage → s.step (.worker worker) = some s' →
      s.draining_ = true ∨ ∀ ops, s'.workers worker ≠ .finishing request ops := by
  have hheld := slotsHeld_reachable hreach
  have hnever := neverParked_reachable hreach
  have hshared := poolSystem_evenlyShared setup.hexecutors (executorPool_reachable hreach)
  refine ⟨⟨hheld.active, hheld.single, hheld.le_slots⟩, ?_, hshared.counts, ?_, ?_, ?_⟩
  · intro worker request ops hpc
    have hle := le_tally s.held worker
    have hholds : s.held worker = ops.countP (·.isRelease) + 1 := by
      rw [State.held, hpc]
      exact List.countP_cons_of_pos rfl
    have hactive := hheld.active
    omega
  · intro hidle
    have hnone (worker : Fin setup.config.kv_cache_slots) :
        s.held worker = 0 ∧ (s.workers worker).selected = none := by
      unfold State.held
      rcases hidle worker with hpc | hpc <;> rw [hpc] <;> exact ⟨rfl, rfl⟩
    refine ⟨?_, ?_⟩
    · rw [hheld.active]
      exact tally_eq_zero.mpr fun worker => (hnone worker).1
    · have hsum : s.inflight_.sum = 0 := by
        refine hshared.sum.trans (tally_eq_zero.mpr ?_)
        intro worker
        simp only [State.executorPool, (hnone worker).2]
        rfl
      exact List.sum_eq_zero_iff_forall_eq_nat.mp hsum
  · intro worker request hpc
    have hself := hnever worker
    rw [hpc] at hself
    exact hself
  · intro worker request stage s' hpc hstep
    simp only [State.step, State.runWorker, hpc] at hstep
    exact (hheld.acquire hpc (hnever worker) hstep).2

/-- The only worker has its request inside the executor, then has answered it. -/
theorem slots_accounted_served :
    ∃ s t, System.replay State.step { now := 0 } (queued ++ List.replicate 13 (.worker onlyWorker)) = some s ∧
      System.replay State.step { now := 0 } served = some t ∧
      tally s.held = 1 ∧ load (fun worker => (s.workers worker).selected) 0 = 1 ∧
      tally t.held = 0 ∧ ∀ inflight ∈ t.inflight_, inflight = 0 := by
  have hreplay : ∃ s, System.replay State.step { now := 0 } (queued ++ List.replicate 13 (.worker onlyWorker)) =
      some s ∧ s.active_decodes_ = 1 ∧ s.inflight_ = [1] := ⟨_, rfl, rfl, rfl⟩
  have hreplay' : ∃ s, System.replay State.step { now := 0 } served = some s ∧ s.workers onlyWorker = .popping :=
    ⟨_, rfl, rfl⟩
  obtain ⟨s, hrun, hactive, hinflight⟩ := hreplay
  obtain ⟨t, hrun', hidle⟩ := hreplay'
  obtain ⟨⟨hheld, -⟩, -, hcounts, -⟩ := slots_accounted (System.reachable_of_replay hrun)
  obtain ⟨⟨hheld', -⟩, -, -, hzero, -⟩ := slots_accounted (System.reachable_of_replay hrun')
  have honly (worker : Fin singleSlot.config.kv_cache_slots) : worker = onlyWorker :=
    @Subsingleton.elim (Fin 1) _ worker onlyWorker
  obtain ⟨hnone, hnone'⟩ := hzero fun worker => .inl (honly worker ▸ hidle)
  refine ⟨s, t, hrun, hrun', ?_, ?_, ?_, hnone'⟩
  · rw [← hheld, hactive]
  · rw [← hcounts, hinflight]
    rfl
  · rw [← hheld', hnone]

end neuriplo.llm
