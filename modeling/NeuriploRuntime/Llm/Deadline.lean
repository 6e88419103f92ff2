import NeuriploRuntime.Llm.Cancellation
import NeuriploRuntime.Llm.TimedOut

open neuriplo.scheduler neuriplo.tensor transition

namespace neuriplo.llm

variable {setup : Setup}

/-- A worker that reads the draining flag raised inside `acquireDecodeSlot` has a
request that is due anyway. -/
def refusesDue (s : State setup) (cancelled : List Nat) : Event setup → Bool
  | .worker worker =>
    match s.workers worker with
    | .acquiring request .readDraining => !s.draining_ || s.isDue cancelled request
    | _ => true
  | _ => true

/-- A step that refuses only what is due refuses only what is cut off. -/
theorem State.Heard.refusesCutOff {s : State setup} {cancelled : List Nat} (hheard : s.Heard cancelled)
    {event : Event setup} (hrefuses : refusesDue s cancelled event = true) : s.refusesCutOff event := by
  rintro worker request rfl hpc hdraining
  simp only [refusesDue, hpc, hdraining, Bool.not_true, Bool.false_or] at hrefuses
  exact hheard.cutOff_iff.mpr (State.isDue_iff.mp hrefuses)

/-- The scheduler whose workers only refuse requests that are due, with the requests
that the transport has cancelled so far. -/
def refusing (setup : Setup) (start : Int) : System (State setup × List Nat) (Event setup) :=
  ((system setup start).logged cancels).restrict fun s event => refusesDue s.1 s.2 event = true

/-- Runs that refuse only what is due are sound. -/
theorem sound_of_run {start : Int} {history : List (State setup × List Nat)} {s : State setup × List Nat}
    (hrun : (refusing setup start).Run history s) : s.1.Sound (history.map Prod.fst) ∧ s.1.Heard s.2 := by
  refine @System.Run.induction _ _ (refusing setup start)
    (fun history s => s.1.Sound (history.map Prod.fst) ∧ s.1.Heard s.2) ?_ ?_ history s hrun
  · rintro ⟨s, cancelled⟩ ⟨hinit, hnone⟩
    cases hinit
    cases hnone
    refine ⟨⟨fun _ => trivial, fun _ => rfl, ?_⟩, ⟨nofun, ?_⟩⟩
    · rintro request pending result ⟨⟩
    · intro request htoken
      cases htoken
  · rintro history ⟨s, cancelled⟩ event ⟨s', cancelled'⟩ hrun ⟨hsound, hheard⟩ ⟨⟨hstep, hlog⟩, hrefuses⟩
    cases hlog
    have hheld := slotsHeld_reachable (System.Run.of_restrict hrun).reachable.of_logged
    exact ⟨hsound.step hheld (hheard.refusesCutOff hrefuses) hstep, hheard.step hsound hstep⟩

/-- When no worker refuses a request that is not due because the model drains, a
timeout is returned only if it was made when the request was due, only due
requests are counted as timed out, and an accepted request that is not due is
answered by an executor it was inside, or that the model is draining. A token
that the scheduler itself has set makes no request due. -/
theorem timeouts_are_due {start : Int} {history : List (State setup × List Nat)} {s : State setup}
    {cancelled : List Nat} (hrun : (refusing setup start).Run history (s, cancelled)) (request : Nat) :
    (∀ result, s.submits request = .returned result → result.scheduler_error = .timeout →
      ∃ moment ∈ history, moment.1.Expires request ∧ moment.1.Due moment.2 request) ∧
    (∀ event s', s.step event = some s' →
      s'.metrics_.requests_timed_out =
        s.metrics_.requests_timed_out + (if (s.countsTimedOut event).isSome then 1 else 0) ∧
      (s.countsTimedOut event = some request → s.Due cancelled request)) ∧
    (∀ pending result, s.requests request = some pending → ¬ s.Due cancelled request →
      s.submits request = .returned result → result = makeDrainingResult ∨
        (∃ moment ∈ history, moment.1.Executes request) ∧
          ∃ execution_started execution_finished response,
            result = completedResult pending.enqueued_at execution_started execution_finished 1 response) := by
  obtain ⟨hsound, hheard⟩ := sound_of_run hrun
  have hcall := hsound.submits request
  have hheard_moment (moment : State setup × List Nat) (hmem : moment ∈ history) : moment.1.Heard moment.2 := by
    obtain ⟨earlier, hreach⟩ := hrun.reachable_of_mem hmem
    exact (sound_of_run hreach).2
  refine ⟨?_, ?_, ?_⟩
  · intro result hreturned htimeout
    rw [hreturned] at hcall
    obtain ⟨-, hresult⟩ | hanswers := hcall
    · exact absurd htimeout hresult
    · cases hanswers with
      | timeout moment hmem hexpires hthen =>
        obtain ⟨logged, hlogged, rfl⟩ := List.mem_map.mp hmem
        exact ⟨logged, hlogged, hexpires, (hheard_moment logged hlogged).cutOff_iff.mp hthen⟩
      | draining => cases htimeout
      | completed =>
        rw [completedResult_scheduler_error] at htimeout
        cases htimeout
  · intro event s' hstep
    refine ⟨State.step_countsTimedOut hstep, ?_⟩
    intro hcounts
    exact hheard.cutOff_iff.mp (hsound.countsTimedOut hcounts)
  · intro pending result hpending hdue hreturned
    rw [hreturned] at hcall
    obtain ⟨hnone, -⟩ | hanswers := hcall
    · rw [hnone] at hpending
      cases hpending
    · cases hanswers with
      | timeout moment hmem hexpires hthen hlate => exact absurd (hheard.cutOff_iff.mp hlate) hdue
      | draining => exact .inl rfl
      | completed moment hmem hexecutes found hfound started finished response =>
        obtain ⟨logged, hlogged, rfl⟩ := List.mem_map.mp hmem
        rw [hpending, Option.some.injEq] at hfound
        subst hfound
        exact .inr ⟨⟨logged, hlogged, hexecutes⟩, started, finished, response, rfl⟩

/-- One slot, one executor, and a prompt it can take. -/
def singleSlot : Setup where
  config := {}
  countTokens := String.length
  executors := 1
  hexecutors := Nat.one_pos
  hslots := Nat.one_pos
  hsize := by decide

def prompted : ExecutionRequest where
  inputs := [{ name := "prompt", datatype := "BYTES", shape := [1], string_data := ["hi"] }]

/-- A request is queued. -/
def queued : List (Event singleSlot) :=
  .submit 0 prompted :: List.replicate 5 (.submitter 0)

/-- Its worker. -/
def onlyWorker : Fin singleSlot.config.kv_cache_slots := ⟨0, singleSlot.hslots⟩

/-- The queued request is executed and answered. -/
def served : List (Event singleSlot) :=
  queued ++ List.replicate 13 (.worker onlyWorker) ++ [.infer onlyWorker (.ok {})] ++
    List.replicate 9 (.worker onlyWorker) ++ [.submitter 0]

/-- The model starts to drain before the worker asks for a slot. -/
def refused : List (Event singleSlot) :=
  queued ++ [.beginDrain 0] ++ List.replicate 9 (.worker onlyWorker) ++ [.submitter 0]

/-- A request that is executed in time. -/
theorem timeouts_are_due_served :
    ∃ history s, (refusing singleSlot 0).Run history s ∧ s.1.submits 0 = .returned (completedResult 0 0 0 1 {}) ∧
      ∃ moment ∈ history, moment.1.Executes 0 := by
  have hreplay : ∃ history s cancelled pending,
      System.trace (System.guarded (fun (s : State singleSlot × List Nat) event => refusesDue s.1 s.2 event)
        (System.logging cancels State.step)) [] ({ now := 0 }, []) served = some (history, (s, cancelled)) ∧
        s.submits 0 = .returned (completedResult 0 0 0 1 {}) ∧ s.requests 0 = some pending ∧
        s.isDue cancelled 0 = false :=
    ⟨_, _, _, _, rfl, rfl, rfl, rfl⟩
  obtain ⟨history, s, cancelled, pending, htrace, hreturned, hpending, hnot⟩ := hreplay
  have hrun : (refusing singleSlot 0).Run history (s, cancelled) :=
    (System.run_of_trace htrace).of_guarded.of_logging_restrict
  have hdue : ¬ s.Due cancelled 0 := by
    rw [← State.isDue_iff, hnot]
    exact Bool.false_ne_true
  refine ⟨history, (s, cancelled), hrun, hreturned, ?_⟩
  obtain hdraining | ⟨hexecuted, -⟩ := (timeouts_are_due hrun 0).2.2 pending _ hpending hdue hreturned
  · cases hdraining
  · exact hexecuted

/-- The refused request is answered a timeout, and counted, though it is due at
no moment of the run. -/
theorem refused_while_draining :
    ∃ history s, ((system singleSlot 0).logged cancels).Run history s ∧
      s.1.submits 0 = .returned makeTimeoutResult ∧ s.1.metrics_.requests_timed_out = 1 ∧
      ∀ moment ∈ s :: history, ¬ moment.1.Due moment.2 0 := by
  have hreplay : ∃ history s cancelled,
      System.trace (System.logging cancels State.step) [] (({ now := 0 } : State singleSlot), []) refused =
        some (history, (s, cancelled)) ∧ s.submits 0 = .returned makeTimeoutResult ∧
        s.metrics_.requests_timed_out = 1 ∧
        ((s, cancelled) :: history).all (fun moment => !moment.1.isDue moment.2 0) = true :=
    ⟨_, _, _, rfl, rfl, rfl, rfl⟩
  obtain ⟨history, s, cancelled, htrace, hreturned, hcounted, hall⟩ := hreplay
  refine ⟨history, (s, cancelled), (System.run_of_trace htrace).of_logging, hreturned, hcounted, ?_⟩
  intro moment hmem hdue
  have hnot := List.all_eq_true.mp hall moment hmem
  rw [State.isDue_iff.mpr hdue] at hnot
  cases hnot

end neuriplo.llm
