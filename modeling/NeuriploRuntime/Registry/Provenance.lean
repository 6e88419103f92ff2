import NeuriploRuntime.Registry.Reachable

open neuriplo.config neuriplo.model neuriplo.model.ModelLifecycle neuriplo.pipeline neuriplo.tensor transition

namespace neuriplo.registry

/-- Every replacement about to be published is what its own call built. -/
def State.Provenance (s : State) : Prop :=
  ∀ thread call next, s.threads thread = .finishing call next →
    ∃ prebuilt backend workers id, next = call.built prebuilt backend workers id

theorem Effect.finishing {registry registry' : ModelRegistry} {pc : Pc} {call : Call} {next : BuiltHandle}
    (heffect : Effect registry pc registry' (.finishing call next)) :
    ∃ prebuilt backend workers id, next = call.built prebuilt backend workers id := by
  cases heffect with
  | stay _ _ hnext => cases hnext
  | built _ prebuilt backend workers => exact ⟨prebuilt, backend, workers, _, rfl⟩
  | drained _ _ _ _ _ _ _ _ hpc' => cases hpc'.2.1

/-- No step publishes what another call built. -/
theorem State.Provenance.step {s s' : State} (hinv : s.Inv) (hprovenance : s.Provenance) {event : Event}
    (hstep : s.step event = some s') : s'.Provenance := by
  cases event with
  | thread thread action =>
    obtain ⟨registry', pc', heffect, -, rfl⟩ := hinv.effect hstep
    intro other call next hpc
    by_cases hother : other = thread
    · subst hother
      rw [State.move_threads_self] at hpc
      subst hpc
      exact heffect.finishing
    · rw [State.move_threads_ne hother] at hpc
      refine hprovenance other call next ?_
      split at hpc
      · cases hthread : s.threads other <;> simp_all [Pc.notified]
      · exact hpc
  | drainTask scheduler =>
    obtain ⟨-, rfl⟩ := State.step_drainTask hstep
    exact hprovenance
  | setRepositoryCatalog configs =>
    cases hstep
    exact hprovenance

/-- In every run a call publishes what it built itself. -/
theorem provenance_reachable {s : State} (hreach : system.Reachable s) : s.Provenance := by
  refine hreach.invariant ?_ ?_
  · rintro s rfl thread call next hpc
    cases hpc
  · intro s event s' hreach hprovenance hstep
    exact hprovenance.step (inv_reachable hreach) hstep

end neuriplo.registry
