import NeuriploRuntime.Llm.Answering
import NeuriploRuntime.Transition.Log

open neuriplo.scheduler neuriplo.tensor transition

namespace neuriplo.llm

variable {setup : Setup}

/-- The request whose cancel token the transport sets. -/
def cancels (_ : State setup) : Event setup → Option Nat
  | .cancel request => some request
  | _ => none

/-- The request's deadline has passed, or the transport has cancelled it. -/
def State.Due (s : State setup) (cancelled : List Nat) (request : Nat) : Prop :=
  request ∈ cancelled ∨ ∃ pending, s.requests request = some pending ∧ pending.deadline ≤ s.now

def State.isDue (s : State setup) (cancelled : List Nat) (request : Nat) : Bool :=
  cancelled.contains request || (s.requests request).any (·.deadline ≤ s.now)

theorem State.isDue_iff {s : State setup} {cancelled : List Nat} {request : Nat} :
    s.isDue cancelled request = true ↔ s.Due cancelled request := by
  simp only [isDue, Due, Bool.or_eq_true, List.contains_iff_mem, Option.any_eq_true, decide_eq_true_eq]

/-- A token is set if the transport has set it, and only then unless the deadline
has passed. -/
structure State.Heard (s : State setup) (cancelled : List Nat) : Prop where
  set : ∀ request ∈ cancelled, s.cancel_tokens request = true
  due : ∀ request, s.cancel_tokens request = true → s.Due cancelled request

section Steps

variable {past : List (State setup)} {s s' : State setup} {cancelled : List Nat} {request : Nat}

/-- Whoever set the tokens, nothing is cut off that is not due. -/
theorem State.Heard.cutOff_iff (hheard : s.Heard cancelled) : s.CutOff request ↔ s.Due cancelled request := by
  constructor
  · rintro (htoken | hlate)
    · exact hheard.due request htoken
    · exact .inr hlate
  · rintro (hcancelled | hlate)
    · exact .inl (hheard.set request hcancelled)
    · exact .inr hlate

/-- What is due stays so. -/
theorem State.Grows.due (hgrows : s.Grows s') (hdue : s.Due cancelled request) : s'.Due cancelled request := by
  obtain hcancelled | ⟨pending, hpending, hlate⟩ := hdue
  · exact .inl hcancelled
  · obtain ⟨pending', hpending', -, hdeadline⟩ := hgrows.requests request pending hpending
    have hnow := hgrows.now
    exact .inr ⟨pending', hpending', by omega⟩

/-- A worker's step takes nothing back. -/
theorem State.Works.grows {worker : Fin setup.config.kv_cache_slots} (hworks : s.Works worker s') : s.Grows s' := by
  cases hworks with
  | performed request op ops pending hpc hpending =>
    cases op with
    | setToken => exact .of_same (le_refl _) (fun _ htoken => State.setToken_mono htoken) rfl
    | settle =>
      simp only [State.perform]
      split
      · exact .of_unchanged rfl rfl rfl
      · split <;> exact .of_unchanged rfl rfl rfl
    | setValue result =>
      simp only [State.perform]
      split
      · exact .setRequest { pending with promise := some result } hpending rfl rfl rfl rfl rfl
      · exact .of_unchanged rfl rfl rfl
    | releaseDecodeSlot =>
      simp only [State.perform, State.setWorker]
      exact .of_unchanged rfl rfl rfl
    | _ => exact .of_unchanged rfl rfl rfl
  | acquired =>
    simp only [State.setWorker]
    exact .of_unchanged rfl rfl rfl
  | _ => exact .of_unchanged rfl rfl rfl

/-- What a step keeps of the state before it. -/
theorem State.Sound.grows (hsound : s.Sound past) {event : Event setup} (hstep : s.step event = some s') :
    s.Grows s' := by
  cases event with
  | tick elapsed =>
    cases hstep
    exact .of_same (show s.now ≤ s.now + elapsed by omega) (fun _ htoken => htoken) rfl
  | cancel request =>
    cases hstep
    exact .of_same (le_refl _) (fun _ htoken => State.setToken_mono htoken) rfl
  | submit request call =>
    simp only [State.step] at hstep
    split at hstep <;> cases hstep
    exact .of_unchanged rfl rfl rfl
  | submitter request =>
    have hcall := hsound.submits request
    cases State.runSubmit_submits hstep with
    | enqueued call enqueued_at deadline hpc =>
      -- The request is new, so nothing accepted is touched.
      rw [hpc] at hcall
      refine ⟨le_refl _, fun _ htoken => htoken, ?_⟩
      intro other found hfound
      have hother : other ≠ request := by
        rintro rfl
        rw [show s.requests other = none from hcall] at hfound
        cases hfound
      exact ⟨found, (Function.update_of_ne hother ..).trans hfound, rfl, rfl⟩
    | tokenSet => exact .of_same (le_refl _) (fun _ htoken => State.setToken_mono htoken) rfl
    | cancelled pending hpc hpending =>
      exact .setRequest { pending with cancelled := true } hpending rfl rfl rfl rfl rfl
    | _ => exact .of_unchanged rfl rfl rfl
  | worker worker => exact (State.runWorker_works hstep).grows
  | infer worker outcome => exact (State.infer_works hstep).grows
  | stopAccepting =>
    cases hstep
    exact .of_unchanged rfl rfl rfl
  | beginDrain thread =>
    simp only [State.step] at hstep
    split at hstep <;> cases hstep
    exact .of_unchanged rfl rfl rfl
  | drain thread =>
    cases State.runDrain_drains hstep with
    | moved queue_ pc' => exact .of_unchanged rfl rfl rfl
    | answered request found pc' hfound hpromise =>
      exact .setRequest { found with promise := some makeDrainingResult } hfound rfl rfl rfl rfl rfl

/-- To set one token sets no other. -/
theorem State.setToken_cases {set : Nat} (htoken : (s.setToken set).cancel_tokens request = true) :
    request = set ∨ s.cancel_tokens request = true := by
  by_cases hsame : request = set
  · exact .inl hsame
  · exact .inr ((Function.update_of_ne hsame ..).symm.trans htoken)

/-- A worker sets the token of a request that is cut off, and no other. -/
theorem State.Works.tokens {worker : Fin setup.config.kv_cache_slots} (hsound : (s.workers worker).Sound past s)
    (hworks : s.Works worker s') (htoken : s'.cancel_tokens request = true) :
    s.cancel_tokens request = true ∨ s.CutOff request := by
  cases hworks with
  | performed set op ops pending hpc hpending =>
    cases op with
    | setToken =>
      rw [hpc] at hsound
      obtain rfl | hwas := State.setToken_cases htoken
      · exact .inr (hsound _ List.mem_cons_self)
      · exact .inl hwas
    | settle =>
      simp only [State.perform] at htoken
      split at htoken
      · exact .inl htoken
      · split at htoken <;> exact .inl htoken
    | setValue =>
      simp only [State.perform] at htoken
      split at htoken <;> exact .inl htoken
    | releaseDecodeSlot =>
      simp only [State.perform, State.setWorker] at htoken
      exact .inl htoken
    | _ => exact .inl htoken
  | acquired =>
    simp only [State.setWorker] at htoken
    exact .inl htoken
  | _ => exact .inl htoken

/-- A token is set by the transport, or of a request that is cut off. -/
theorem State.Sound.tokens (hsound : s.Sound past) {event : Event setup} (hstep : s.step event = some s')
    (htoken : s'.cancel_tokens request = true) : event = .cancel request ∨ s.CutOff request := by
  cases event with
  | cancel set =>
    cases hstep
    obtain rfl | hwas := State.setToken_cases htoken
    · exact .inl rfl
    · exact .inr (.inl hwas)
  | submitter call =>
    have hcall := hsound.submits call
    cases State.runSubmit_submits hstep with
    | tokenSet hpc =>
      rw [hpc] at hcall
      obtain rfl | hwas := State.setToken_cases htoken
      · exact .inr hcall
      · exact .inr (.inl hwas)
    | _ => exact .inr (.inl htoken)
  | worker worker =>
    obtain hwas | hcut := State.Works.tokens (hsound.workers worker) (State.runWorker_works hstep) htoken
    · exact .inr (.inl hwas)
    · exact .inr hcut
  | infer worker outcome =>
    obtain hwas | hcut := State.Works.tokens (hsound.workers worker) (State.infer_works hstep) htoken
    · exact .inr (.inl hwas)
    · exact .inr hcut
  | drain thread =>
    cases State.runDrain_drains hstep <;> exact .inr (.inl htoken)
  | submit | beginDrain =>
    simp only [State.step] at hstep
    split at hstep <;> cases hstep
    exact .inr (.inl htoken)
  | _ =>
    cases hstep
    exact .inr (.inl htoken)

/-- Every step keeps the list of those cancelled. -/
theorem State.Heard.step (hheard : s.Heard cancelled) (hsound : s.Sound past) {event : Event setup}
    (hstep : s.step event = some s') : s'.Heard ((cancels s event).toList ++ cancelled) := by
  have hgrows := hsound.grows hstep
  constructor
  · intro request hmem
    obtain hnew | hold := List.mem_append.mp hmem
    · cases event with
      | cancel set =>
        cases hstep
        rw [List.mem_singleton.mp hnew]
        exact Function.update_self ..
      | _ => cases hnew
    · exact hgrows.tokens request (hheard.set request hold)
  · intro request htoken
    obtain rfl | hcut := hsound.tokens hstep htoken
    · exact .inl (List.mem_append_left _ List.mem_cons_self)
    · obtain hcancelled | hlate := hgrows.due (hheard.cutOff_iff.mp hcut)
      · exact .inl (List.mem_append_right _ hcancelled)
      · exact .inr hlate

end Steps

end neuriplo.llm
