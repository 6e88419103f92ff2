import NeuriploRuntime.Llm.Moves
import NeuriploRuntime.Transition.Tally

open neuriplo.scheduler neuriplo.tensor transition

namespace neuriplo.llm

variable {setup : Setup}

def WorkerOp.isRelease : WorkerOp → Bool
  | .releaseDecodeSlot => true
  | _ => false

/-- How many decode slots a worker has acquired and not released. -/
def WorkerPc.holds : WorkerPc → Nat
  | .recheckingDraining _ => 1
  | .recheckingDeadline _ => 1
  | .selecting _ => 1
  | .starting _ _ => 1
  | .executing _ _ _ => 1
  | .readingToken _ _ _ _ => 1
  | .executed _ _ _ _ _ => 1
  | .finishing _ ops => ops.countP (·.isRelease)
  | .terminated ops => ops.countP (·.isRelease)
  | _ => 0

def State.held (s : State setup) (worker : Fin setup.config.kv_cache_slots) : Nat := (s.workers worker).holds

/-- `active_decodes_` counts the slots the workers hold, at most one each. -/
structure State.SlotsHeld (s : State setup) : Prop where
  active : s.active_decodes_ = tally s.held
  single : ∀ worker, s.held worker ≤ 1

/-- A quiet step neither takes nor releases a slot. -/
theorem WorkerPc.Quiet.holds {pc pc' : WorkerPc} (hquiet : pc.Quiet pc') : pc'.holds = pc.holds := by
  cases hquiet <;> rfl

/-- The counter follows what one worker acquires or releases. -/
theorem State.SlotsHeld.move {s s' : State setup} (hheld : s.SlotsHeld)
    (worker : Fin setup.config.kv_cache_slots) (pc' : WorkerPc)
    (hworkers : s'.workers = Function.update s.workers worker pc')
    (hactive : s'.active_decodes_ + (s.workers worker).holds = s.active_decodes_ + pc'.holds)
    (hsingle : pc'.holds ≤ 1) : s'.SlotsHeld := by
  have hupdate : s'.held = Function.update s.held worker pc'.holds := by
    have hcomp := Function.comp_update WorkerPc.holds s.workers worker pc'
    rw [← hworkers] at hcomp
    exact hcomp
  constructor
  · have htally := tally_update s.held worker pc'.holds
    have hactive' := hheld.active
    have hshare : s.held worker = (s.workers worker).holds := rfl
    rw [hupdate]
    omega
  · intro other
    rw [hupdate]
    revert other
    rw [Function.forall_update_iff s.held fun _ holds => holds ≤ 1]
    exact ⟨hsingle, fun other _ => hheld.single other⟩

/-- A worker that holds no slot finds one free: there are as many workers as
slots. -/
theorem State.SlotsHeld.free {s : State setup} (hheld : s.SlotsHeld)
    {worker : Fin setup.config.kv_cache_slots} (hnone : (s.workers worker).holds = 0) :
    s.active_decodes_ < setup.config.kv_cache_slots := by
  have hlt := tally_lt_card hheld.single worker hnone
  rw [Fintype.card_fin] at hlt
  rw [hheld.active]
  exact hlt

/-- No more slots are held than there are. -/
theorem State.SlotsHeld.le_slots {s : State setup} (hheld : s.SlotsHeld) :
    s.active_decodes_ ≤ setup.config.kv_cache_slots := by
  have hle := tally_le_card hheld.single
  rw [Fintype.card_fin] at hle
  rw [hheld.active]
  exact hle

/-- To take one off a positive count does not wrap. -/
theorem fetchSub_of_pos {value : Nat} (hpos : 0 < value) (hsize : value < 2 ^ 64) : fetchSub value = value - 1 := by
  unfold fetchSub wrapSize
  omega

/-- A straight-line step keeps the slots counted. -/
theorem State.SlotsHeld.perform {s : State setup} (hheld : s.SlotsHeld)
    {worker : Fin setup.config.kv_cache_slots} {request : Nat} {op : WorkerOp} {ops : List WorkerOp}
    {pending : PendingRequest} (hpc : s.workers worker = .finishing request (op :: ops)) :
    (s.perform worker request pending ops op).SlotsHeld := by
  have hsingle := hheld.single worker
  have hshare : s.held worker = (op :: ops).countP (·.isRelease) := by
    rw [held, hpc]
    rfl
  have hshare' : (s.workers worker).holds = (op :: ops).countP (·.isRelease) := hshare
  have hmove {s' : State setup} {pc' : WorkerPc} (hworkers : s'.workers = Function.update s.workers worker pc')
      (hactive : s'.active_decodes_ = s.active_decodes_) (hholds : pc'.holds = (op :: ops).countP (·.isRelease)) :
      s'.SlotsHeld := by
    refine hheld.move worker pc' hworkers ?_ ?_ <;> omega
  cases op with
  | setToken => exact hmove rfl rfl rfl
  | decrementInflight => exact hmove rfl rfl rfl
  | recordLatencies => exact hmove rfl rfl rfl
  | countTimedOut => exact hmove rfl rfl rfl
  | settle execution_started execution_finished response =>
    simp only [State.perform]
    split
    · exact hmove rfl rfl rfl
    · split
      · exact hmove rfl rfl rfl
      · exact hmove rfl rfl rfl
  | fulfillResult result =>
    refine hmove rfl rfl ?_
    split <;> rfl
  | setValue result =>
    simp only [State.perform]
    split
    · exact hmove rfl rfl rfl
    · exact hmove rfl rfl rfl
  | releaseDecodeSlot =>
    have hcount : (WorkerOp.releaseDecodeSlot :: ops).countP (·.isRelease) = ops.countP (·.isRelease) + 1 :=
      List.countP_cons_of_pos rfl
    have hle := le_tally s.held worker
    have hactive := hheld.active
    have hsub : fetchSub s.active_decodes_ = s.active_decodes_ - 1 := by
      apply fetchSub_of_pos
      · omega
      · have hbound := hheld.le_slots
        have hsize := setup.hsize
        omega
    have hholds : (WorkerPc.finishing request ops).holds = ops.countP (·.isRelease) := rfl
    apply hheld.move worker (.finishing request ops) rfl
    · change fetchSub s.active_decodes_ + _ = _
      omega
    · omega

/-- A worker's step keeps the slots counted. -/
theorem State.SlotsHeld.works {s s' : State setup} (hheld : s.SlotsHeld)
    {worker : Fin setup.config.kv_cache_slots} (hworks : s.Works worker s') : s'.SlotsHeld := by
  have hsingle := hheld.single worker
  have hmove {t : State setup} {pc' : WorkerPc} (hworkers : t.workers = Function.update s.workers worker pc')
      (hactive : t.active_decodes_ = s.active_decodes_) (hholds : pc'.holds = (s.workers worker).holds) :
      t.SlotsHeld := by
    refine hheld.move worker pc' hworkers ?_ ?_
    · omega
    · rw [hholds]
      exact hsingle
  cases hworks with
  | quiet pc' hquiet => exact hmove rfl rfl hquiet.holds
  | popped request queue_ hpc => exact hmove rfl rfl (by rw [hpc]; rfl)
  | late request pending hpc => exact hmove rfl rfl (by rw [hpc]; rfl)
  | locked request stage timedOut hpc => exact hmove rfl rfl (by rw [hpc]; rfl)
  | parked request hpc => exact hmove rfl rfl (by rw [hpc]; rfl)
  | refused request stage hpc => exact hmove rfl rfl (by rw [hpc]; rfl)
  | acquired request hpc =>
    have hnone : (s.workers worker).holds = 0 := by rw [hpc]; rfl
    have hfree := hheld.free hnone
    have hsize := setup.hsize
    have hadd : wrapSize (s.active_decodes_ + 1) = s.active_decodes_ + 1 := Nat.mod_eq_of_lt (by omega)
    apply hheld.move worker (.recheckingDraining request) rfl
    · change wrapSize (s.active_decodes_ + 1) + _ = _ + 1
      omega
    · exact Nat.le_refl 1
  | drained request hpc => exact hmove rfl rfl (by rw [hpc]; rfl)
  | overdue request pending hpc => exact hmove rfl rfl (by rw [hpc]; rfl)
  | selected request hpc => exact hmove rfl rfl (by rw [hpc]; rfl)
  | readToken request executor_index execution_started response hpc => exact hmove rfl rfl (by rw [hpc]; rfl)
  | executed request executor_index execution_started response completed hpc =>
    refine hmove rfl rfl ?_
    rw [hpc]
    cases completed <;> rfl
  | performed request op ops pending hpc => exact hheld.perform hpc

/-- The slots stay accounted for in every run. -/
theorem slotsHeld_reachable {start : Int} {s : State setup} (hreach : (system setup start).Reachable s) :
    s.SlotsHeld := by
  refine hreach.invariant ?_ ?_
  · rintro s rfl
    refine ⟨?_, fun _ => Nat.zero_le 1⟩
    exact (tally_eq_zero.mpr fun _ => rfl).symm
  · intro s event s' _ hheld hstep
    obtain ⟨worker, hworks, -⟩ | ⟨hworkers, hactive, -⟩ := State.step_frame hstep
    · exact hheld.works hworks
    · have hshares : s'.held = s.held := by
        funext worker
        rw [State.held, State.held, hworkers]
      exact ⟨by rw [hactive, hheld.active, hshares], by rw [hshares]; exact hheld.single⟩

end neuriplo.llm
