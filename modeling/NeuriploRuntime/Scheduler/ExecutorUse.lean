import NeuriploRuntime.Scheduler.ExecutorPool

open transition

namespace neuriplo.scheduler

/-- How the workers of a scheduler use its executors: the straight-line steps a
worker has left to do, the executor such a step releases, and the executor that a
worker has selected and not released. -/
structure ExecutorUse (Pc Op : Type) where
  ops : Pc → List Op
  releases : Op → Option Nat
  selected : Pc → Option Nat

namespace ExecutorUse

variable {Pc Op : Type} (use : ExecutorUse Pc Op)

/-- A worker releases before anything else, if it has something to release. -/
def ReleasesFirst (pc : Pc) : Prop := ∀ op ∈ (use.ops pc).tail, use.releases op = none

/-- A worker has selected the executor that it has yet to release, and no other. -/
def Straight (pc : Pc) : Prop := use.selected pc = (use.ops pc).findSome? use.releases

/-- What the workers of a scheduler and its executors are to each other. -/
def pool {workers : Nat} (inflight_ : List Nat) (pcs : Fin workers → Pc) : ExecutorPool workers where
  inflight_ := inflight_
  selected worker := use.selected (pcs worker)

/-- What a worker's step does to the executors, with where it leaves the worker. -/
structure Shares {workers : Nat} (worker : Fin workers) (inflight_ inflight_' : List Nat)
    (pcs pcs' : Fin workers → Pc) : Prop where
  workers : ∃ pc', pcs' = Function.update pcs worker pc' ∧ use.ReleasesFirst pc'
  pool : use.pool inflight_' pcs' = use.pool inflight_ pcs ∨
    ∃ event, (use.pool inflight_ pcs).step event = some (use.pool inflight_' pcs')

variable {use}

theorem ReleasesFirst.of_nil {pc : Pc} (hnil : use.ops pc = []) : use.ReleasesFirst pc := by
  intro op hmem
  rw [hnil] at hmem
  cases hmem

theorem ReleasesFirst.of_forall {pc : Pc} (hops : ∀ op ∈ use.ops pc, use.releases op = none) :
    use.ReleasesFirst pc := by
  intro op hmem
  exact hops op (List.mem_of_mem_tail hmem)

/-- Behind its first step a worker releases nothing. -/
theorem ReleasesFirst.rest {pc : Pc} {op : Op} {ops : List Op} (hfirst : use.ReleasesFirst pc)
    (hops : use.ops pc = op :: ops) : ∀ left ∈ ops, use.releases left = none := by
  intro left hmem
  apply hfirst
  rw [hops]
  exact hmem

/-- A worker with nothing to release has selected nothing. -/
theorem Straight.selected_eq_none {pc : Pc} (hstraight : use.Straight pc)
    (hops : ∀ op ∈ use.ops pc, use.releases op = none) : use.selected pc = none :=
  hstraight.trans (List.findSome?_eq_none_iff.mpr hops)

/-- The selections after one worker has moved. -/
theorem pool_update {workers : Nat} (inflight_ : List Nat) (pcs : Fin workers → Pc) (worker : Fin workers) (pc' : Pc) :
    use.pool inflight_ (Function.update pcs worker pc') =
      { inflight_, selected := Function.update (use.pool inflight_ pcs).selected worker (use.selected pc') } :=
  ExecutorPool.ext rfl (Function.comp_update use.selected pcs worker pc')

namespace Shares

variable {workers : Nat} {worker : Fin workers} {inflight_ inflight_' : List Nat} {pcs pcs' : Fin workers → Pc}
  {pc' : Pc}

/-- A step after which the worker has selected what it had before it. -/
theorem kept (hpcs : pcs' = Function.update pcs worker pc') (hinflight : inflight_' = inflight_)
    (hselected : use.selected pc' = use.selected (pcs worker)) (hfirst : use.ReleasesFirst pc') :
    use.Shares worker inflight_ inflight_' pcs pcs' := by
  refine ⟨⟨pc', hpcs, hfirst⟩, .inl ?_⟩
  rw [hpcs, hinflight, pool_update, hselected]
  exact ExecutorPool.ext rfl (Function.update_eq_self worker (use.pool inflight_ pcs).selected)

/-- A step that selects an executor. -/
theorem select (hpcs : pcs' = Function.update pcs worker pc')
    (hinflight : inflight_' = inflight_.modify (selectExecutorIndex inflight_) (· + 1))
    (hfree : use.selected (pcs worker) = none) (hselected : use.selected pc' = some (selectExecutorIndex inflight_))
    (hfirst : use.ReleasesFirst pc') : use.Shares worker inflight_ inflight_' pcs pcs' := by
  refine ⟨⟨pc', hpcs, hfirst⟩, .inr ⟨.select worker, ?_⟩⟩
  have hwas : (use.pool inflight_ pcs).selected worker = none := hfree
  rw [ExecutorPool.step, hwas, hpcs, hinflight, pool_update, hselected]
  rfl

/-- A straight-line step other than a release: the worker has nothing to release. -/
theorem performed {op : Op} {ops : List Op} (hpcs : pcs' = Function.update pcs worker pc')
    (hinflight : inflight_' = inflight_) (hfirst : use.ReleasesFirst (pcs worker))
    (hstraight : use.Straight (pcs worker)) (hops : use.ops (pcs worker) = op :: ops)
    (hop : use.releases op = none) (hstraight' : use.Straight pc')
    (hops' : ∀ left ∈ use.ops pc', use.releases left = none) :
    use.Shares worker inflight_ inflight_' pcs pcs' := by
  refine kept hpcs hinflight ?_ (.of_forall hops')
  rw [hstraight'.selected_eq_none hops', hstraight.selected_eq_none]
  intro left hmem
  rw [hops] at hmem
  obtain rfl | hmem := List.mem_cons.mp hmem
  · exact hop
  · exact hfirst.rest hops left hmem

/-- A straight-line step that releases the executor the worker has selected. -/
theorem release {op : Op} {ops : List Op} {executor_index : Nat} (hpcs : pcs' = Function.update pcs worker pc')
    (hinflight : inflight_' = inflight_.modify executor_index (· - 1)) (hfirst : use.ReleasesFirst (pcs worker))
    (hstraight : use.Straight (pcs worker)) (hops : use.ops (pcs worker) = op :: ops)
    (hop : use.releases op = some executor_index) (hstraight' : use.Straight pc') (hops' : use.ops pc' = ops) :
    use.Shares worker inflight_ inflight_' pcs pcs' := by
  have hrest : ∀ left ∈ use.ops pc', use.releases left = none := by
    rw [hops']
    exact hfirst.rest hops
  refine ⟨⟨pc', hpcs, .of_forall hrest⟩, .inr ⟨.release worker, ?_⟩⟩
  have hwas : (use.pool inflight_ pcs).selected worker = some executor_index := by
    refine hstraight.trans ?_
    rw [hops, List.findSome?_cons_of_isSome (by rw [hop]; rfl), hop]
  rw [ExecutorPool.step, hwas, hpcs, hinflight, pool_update, hstraight'.selected_eq_none hrest]
  rfl

/-- A worker's step leaves every worker with its release first. -/
theorem releasesFirst (hshares : use.Shares worker inflight_ inflight_' pcs pcs')
    (hfirst : ∀ worker, use.ReleasesFirst (pcs worker)) (other : Fin workers) : use.ReleasesFirst (pcs' other) := by
  obtain ⟨pc', hpcs, hpc'⟩ := hshares.workers
  rw [hpcs]
  by_cases hother : other = worker
  · subst hother
    rw [Function.update_self]
    exact hpc'
  · rw [Function.update_of_ne hother]
    exact hfirst other

end Shares

/-- What a step of a scheduler keeps: each worker releases before anything else,
and at most one worker selects or releases. -/
structure Keeps (use : ExecutorUse Pc Op) {workers : Nat} (inflight_ inflight_' : List Nat)
    (pcs pcs' : Fin workers → Pc) : Prop where
  releasesFirst : ∀ worker, use.ReleasesFirst (pcs' worker)
  pool : use.pool inflight_' pcs' = use.pool inflight_ pcs ∨
    ∃ event, (use.pool inflight_ pcs).step event = some (use.pool inflight_' pcs')

/-- What a worker's step does is what the scheduler's step does. -/
theorem Shares.keeps {workers : Nat} {worker : Fin workers} {inflight_ inflight_' : List Nat}
    {pcs pcs' : Fin workers → Pc} (hshares : use.Shares worker inflight_ inflight_' pcs pcs')
    (hfirst : ∀ worker, use.ReleasesFirst (pcs worker)) : use.Keeps inflight_ inflight_' pcs pcs' :=
  ⟨hshares.releasesFirst hfirst, hshares.pool⟩

section Runs

variable {State Event : Type} {sys : System State Event} {executors workers : Nat} {inflight_ : State → List Nat}
  {pcs : State → Fin workers → Pc}

/-- In every run the workers release before anything else. -/
theorem releasesFirst_reachable (hstart : ∀ s, sys.init s → ∀ worker, use.ReleasesFirst (pcs s worker))
    (hstep : ∀ s event s', (∀ worker, use.ReleasesFirst (pcs s worker)) → sys.step s event s' →
      use.Keeps (inflight_ s) (inflight_ s') (pcs s) (pcs s'))
    {s : State} (hreach : sys.Reachable s) (worker : Fin workers) : use.ReleasesFirst (pcs s worker) := by
  refine @System.Reachable.invariant _ _ sys (fun s => ∀ worker, use.ReleasesFirst (pcs s worker)) hstart ?_ s
    hreach worker
  intro s event s' _ hfirst hstep'
  exact (hstep s event s' hfirst hstep').releasesFirst

/-- A scheduler whose steps keep to that refines the pool of its executors. -/
theorem pool_reachable (hstart : ∀ s, sys.init s → ∀ worker, use.ReleasesFirst (pcs s worker))
    (hidle : ∀ s, sys.init s → use.pool (inflight_ s) (pcs s) = { inflight_ := List.replicate executors 0 })
    (hstep : ∀ s event s', (∀ worker, use.ReleasesFirst (pcs s worker)) → sys.step s event s' →
      use.Keeps (inflight_ s) (inflight_ s') (pcs s) (pcs s'))
    {s : State} (hreach : sys.Reachable s) :
    (poolSystem executors workers).Reachable (use.pool (inflight_ s) (pcs s)) := by
  refine hreach.simulate (fun s => use.pool (inflight_ s) (pcs s)) hidle ?_
  intro s event s' hreach hstep'
  exact (hstep s event s' (releasesFirst_reachable hstart hstep hreach) hstep').pool

end Runs

end ExecutorUse

end neuriplo.scheduler
