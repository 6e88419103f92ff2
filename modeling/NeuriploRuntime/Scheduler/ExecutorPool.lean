import NeuriploRuntime.Scheduler.Result
import NeuriploRuntime.Transition.Balance
import NeuriploRuntime.Transition.System

open transition

namespace neuriplo.scheduler

/-- The executor selected is one with the fewest requests. -/
theorem selectExecutorIndex_lt {inflight : List Nat} (hpos : 0 < inflight.length) :
    selectExecutorIndex inflight < inflight.length ∧
      ∀ other < inflight.length, inflight[selectExecutorIndex inflight]?.getD 0 ≤ inflight[other]?.getD 0 := by
  obtain ⟨least, hleast⟩ : ∃ least, inflight.min? = some least :=
    Option.isSome_iff_exists.mp (List.isSome_min?_of_ne_nil (List.ne_nil_of_length_pos hpos))
  obtain ⟨hmem, hle⟩ := List.min?_eq_some_iff.mp hleast
  have hindex : selectExecutorIndex inflight = inflight.idxOf least := by
    unfold selectExecutorIndex
    rw [hleast]
    rfl
  have hlt : inflight.idxOf least < inflight.length := List.idxOf_lt_length_of_mem hmem
  rw [hindex]
  refine ⟨hlt, ?_⟩
  intro other hother
  rw [List.getElem?_eq_getElem hlt, List.getElem?_eq_getElem hother]
  simp only [Option.getD_some, List.getElem_idxOf]
  exact hle _ (List.getElem_mem hother)

/-- The counters of a pool of executors, and which executor each of the workers
that share it has selected. -/
@[ext]
structure ExecutorPool (workers : Nat) where
  inflight_ : List Nat
  selected : Fin workers → Option Nat := fun _ => none

inductive PoolEvent (workers : Nat) where
  | select (worker : Fin workers)
  | release (worker : Fin workers)

/-- A worker selects when it has released what it selected before, and releases
what it selected. -/
def ExecutorPool.step {workers : Nat} (pool : ExecutorPool workers) : PoolEvent workers → Option (ExecutorPool workers)
  | .select worker =>
    match pool.selected worker with
    | none =>
      let executor_index := selectExecutorIndex pool.inflight_
      some { inflight_ := pool.inflight_.modify executor_index (· + 1)
             selected := Function.update pool.selected worker (some executor_index) }
    | some _ => none
  | .release worker =>
    match pool.selected worker with
    | some executor_index =>
      some { inflight_ := pool.inflight_.modify executor_index (· - 1)
             selected := Function.update pool.selected worker none }
    | none => none

/-- A pool of idle executors. -/
def poolSystem (executors workers : Nat) : System (ExecutorPool workers) (PoolEvent workers) :=
  System.ofStep { inflight_ := List.replicate executors 0 } ExecutorPool.step

/-- In every run the executors are balanced. -/
theorem poolSystem_balanced {executors workers : Nat} (hexecutors : 0 < executors) {pool : ExecutorPool workers}
    (hreach : (poolSystem executors workers).Reachable pool) : Balanced executors pool.inflight_ pool.selected := by
  refine @System.Reachable.invariant _ _ (poolSystem executors workers)
    (fun pool => Balanced executors pool.inflight_ pool.selected) ?_ ?_ pool hreach
  · rintro pool rfl
    have hload (index : Nat) : load (fun _ : Fin workers => (none : Option Nat)) index = 0 :=
      tally_eq_zero.mpr fun _ => rfl
    refine ⟨List.length_replicate, ?_, ?_⟩
    · intro index
      rw [hload, List.getElem?_replicate]
      split <;> rfl
    · intro index
      rw [hload]
      exact Nat.zero_le _
  · intro pool event pool' _ hbalanced hstep
    cases event with
    | select worker =>
      simp only [poolSystem, System.ofStep, ExecutorPool.step] at hstep
      split at hstep <;> cases hstep
      rename_i hfree
      have hlength := hbalanced.length
      obtain ⟨hlt, hleast⟩ := @selectExecutorIndex_lt pool.inflight_ (by omega)
      apply hbalanced.acquire hfree (by omega)
      intro other hother
      rw [← hbalanced.counts, ← hbalanced.counts]
      exact hleast other (by omega)
    | release worker =>
      simp only [poolSystem, System.ofStep, ExecutorPool.step] at hstep
      split at hstep <;> cases hstep
      exact hbalanced.release ‹_›

/-- No executor is shared by more than its part of the workers, and the counters
tell how many workers are between their selection and their release. -/
structure ExecutorPool.EvenlyShared {workers : Nat} (pool : ExecutorPool workers) (executors : Nat) : Prop where
  length : pool.inflight_.length = executors
  bound : ∀ inflight ∈ pool.inflight_, inflight ≤ workers ⌈/⌉ executors
  counts : ∀ executor_index, pool.inflight_[executor_index]?.getD 0 = load pool.selected executor_index
  sum : pool.inflight_.sum = holders pool.selected

/-- In every run the executors are evenly shared. -/
theorem poolSystem_evenlyShared {executors workers : Nat} (hexecutors : 0 < executors) {pool : ExecutorPool workers}
    (hreach : (poolSystem executors workers).Reachable pool) : pool.EvenlyShared executors := by
  have hbalanced := poolSystem_balanced hexecutors hreach
  refine ⟨hbalanced.length, ?_, hbalanced.counts, hbalanced.sum⟩
  intro inflight hmem
  obtain ⟨executor_index, hlt, rfl⟩ := List.mem_iff_getElem.mp hmem
  have hcount := hbalanced.counts executor_index
  have hbound := hbalanced.bound executor_index
  rw [List.getElem?_eq_getElem hlt, Option.getD_some] at hcount
  rw [Fintype.card_fin] at hbound
  omega

/-- With as many executors as workers nobody shares one. -/
theorem ExecutorPool.EvenlyShared.alone {workers : Nat} {pool : ExecutorPool workers}
    (hshared : pool.EvenlyShared workers) {worker other : Fin workers} {executor_index : Nat}
    (hselected : pool.selected worker = some executor_index) (hother : pool.selected other = some executor_index) :
    worker = other := by
  by_contra hne
  have hle := add_le_tally (fun p => if pool.selected p = some executor_index then 1 else 0) hne
  rw [if_pos hselected, if_pos hother] at hle
  have hcount := hshared.counts executor_index
  have hworkers : 0 < workers := worker.pos
  unfold load at hcount
  by_cases hlt : executor_index < pool.inflight_.length
  · have hbound := hshared.bound _ (List.getElem_mem hlt)
    rw [List.getElem?_eq_getElem hlt, Option.getD_some] at hcount
    have hceil : workers ⌈/⌉ workers = 1 := by
      rw [Nat.ceilDiv_eq_add_pred_div]
      apply Nat.div_eq_of_lt_le <;> omega
    omega
  · rw [List.getElem?_eq_none (by omega), Option.getD_none] at hcount
    omega

end neuriplo.scheduler
