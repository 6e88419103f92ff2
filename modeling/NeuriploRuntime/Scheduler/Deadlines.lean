import NeuriploRuntime.Admin.Installed
import NeuriploRuntime.Batch.Step
import NeuriploRuntime.Llm.Step
import NeuriploRuntime.Model.Lifecycle

open neuriplo.admin neuriplo.config neuriplo.model neuriplo.tensor

namespace neuriplo.scheduler

/-- A config the command line lets through, and what the bodies accepted since then have made of it. -/
inductive Installable : AdminConfig → Prop where
  | commandLine {config : AdminConfig} (hchecks : finalChecks config.toRuntimeConfig = .ok ()) : Installable config
  | admin {defaults config : AdminConfig} {request : AdminRequest} {text : JsonText} {body : String}
      (hdefaults : Installable defaults) (haccepts : request.Accepts text body defaults config) : Installable config

/-- What can be installed is bounded. -/
theorem Installable.bounded {config : AdminConfig} (hinstallable : Installable config) : config.Bounded := by
  induction hinstallable with
  | commandLine hchecks => exact ((finalChecks_eq_ok_iff _).mp hchecks).toBounded
  | admin _ haccepts ih => exact accepts_bounded haccepts ih

def FitsInt64 (value : Int) : Prop := -2 ^ 63 ≤ value ∧ value < 2 ^ 63

/-- A deadline that is `count` units away, computed in `int64_t` nanoseconds without an overflow. -/
structure Deadline (now count unit deadline : Int) : Prop where
  converted : FitsInt64 (count * unit)
  added : FitsInt64 (now + count * unit)
  exact : deadline = now + count * unit
  not_past : now ≤ deadline

/-- The wrapped deadline is the right one exactly when the sum fits 64 bits. -/
theorem deadline_iff {now count unit : Int} (hnow : 0 ≤ now) (hcount : 0 ≤ count) (hunit : 0 ≤ unit) :
    Deadline now count unit (wrapInt64 (now + wrapInt64 (count * unit))) ↔ now + count * unit < 2 ^ 63 := by
  have hproduct : 0 ≤ count * unit := Int.mul_nonneg hcount hunit
  constructor
  · exact fun hdeadline => hdeadline.added.2
  · intro hfits
    have hconverted : wrapInt64 (count * unit) = count * unit := wrapInt64_of_range (by omega) (by omega)
    have hadded : wrapInt64 (now + count * unit) = now + count * unit := wrapInt64_of_range (by omega) hfits
    rw [hconverted, hadded]
    exact ⟨⟨by omega, by omega⟩, ⟨by omega, hfits⟩, rfl, by omega⟩

/-- The deadlines that the schedulers of a config compute at a time. -/
structure DeadlinesHold (config : RuntimeConfig) (now : Int) : Prop where
  modelScheduler : ∀ (setup : batch.Setup) (s : batch.State setup) request call,
    setup.config = modelSchedulerConfig config → s.now = now → s.submits request = .dating call →
      ∃ deadline, s.runSubmit request = some (s.setSubmit request (.enqueuing call now deadline)) ∧
        Deadline now config.request_timeout_ms 1000000 deadline
  llmScheduler : ∀ (setup : llm.Setup) (s : llm.State setup) request call,
    setup.config = llmSchedulerConfig config → s.now = now → s.submits request = .dating call →
      ∃ deadline, s.runSubmit request = some (s.setSubmit request (.enqueuing call now deadline)) ∧
        Deadline now config.request_timeout_ms 1000000 deadline
  formBatch : ∀ (setup : batch.Setup) (s : batch.State setup) first formation,
    setup.config = modelSchedulerConfig config → s.now = now → s.form first = .deciding formation →
      formation.formation_started = now ∧ Deadline now config.max_queue_delay_us 1000 formation.formation_deadline

/-- A call of a `ModelScheduler` is dated with the deadline so computed. -/
theorem submit_deadline {setup : batch.Setup} {s : batch.State setup} {request : Nat} {call : ExecutionRequest}
    (hpc : s.submits request = .dating call) :
    s.runSubmit request = some (s.setSubmit request
      (.enqueuing call s.now (deadlineAfter s.now setup.config.request_timeout_ms))) := by
  unfold batch.State.runSubmit
  rw [hpc]

/-- A call of an `LlmScheduler` is dated with the deadline so computed. -/
theorem llm_submit_deadline {setup : llm.Setup} {s : llm.State setup} {request : Nat} {call : ExecutionRequest}
    (hpc : s.submits request = .dating call) :
    s.runSubmit request = some (s.setSubmit request
      (.enqueuing call s.now (deadlineAfter s.now setup.config.request_timeout_ms))) := by
  unfold llm.State.runSubmit
  rw [hpc]

/-- `formBatch` has a deadline where there is more than one request to a batch. -/
theorem form_deadline {setup : batch.Setup} (s : batch.State setup) (first : Nat) :
    s.form first =
      if setup.config.dynamic_batching.enabled = true ∧ 2 ≤ setup.config.dynamic_batching.max_batch_size then
        .deciding {
          formation_started := s.now
          formation_deadline := wrapInt64 (s.now + wrapInt64 (setup.config.dynamic_batching.max_queue_delay_us * 1000))
          batch := [first]
          merged_batch_dimension := s.mergedBatchDimension [first] }
      else .processing [first] := by
  have halone : (!setup.config.dynamic_batching.enabled || setup.config.dynamic_batching.max_batch_size ≤ 1) = true ↔
      ¬(setup.config.dynamic_batching.enabled = true ∧ 2 ≤ setup.config.dynamic_batching.max_batch_size) := by
    rw [Bool.or_eq_true, Bool.not_eq_true', ← Bool.not_eq_true, decide_eq_true_eq, not_and_or, not_le, Nat.lt_succ_iff]
  unfold batch.State.form
  dsimp only
  by_cases hmany : setup.config.dynamic_batching.enabled = true ∧ 2 ≤ setup.config.dynamic_batching.max_batch_size
  · rw [if_neg fun h => halone.mp h hmany, if_pos hmany]
  · rw [if_pos (halone.mpr hmany), if_neg hmany]

/-- A scheduler of a config at a time, with a request that is about to get its deadline. -/
def datingSetup (config : RuntimeConfig) (hinstances : 0 < config.instances) : batch.Setup where
  config := modelSchedulerConfig config
  executors := 1
  hexecutors := Nat.one_pos
  hinstances := hinstances

/-- The deadline of a request fits where deadlines hold. -/
theorem DeadlinesHold.timeout_fits {config : RuntimeConfig} {now : Int} (hhold : DeadlinesHold config now)
    (hinstances : 0 < config.instances) : now + config.request_timeout_ms * 1000000 < 2 ^ 63 := by
  let s : batch.State (datingSetup config hinstances) := { now, submits := fun _ => .dating {} }
  obtain ⟨deadline, -, hdeadline⟩ := hhold.modelScheduler (datingSetup config hinstances) s 0 {} rfl rfl rfl
  exact hdeadline.added.2

/-- The deadline of a batch fits where deadlines hold. -/
theorem DeadlinesHold.delay_fits {config : RuntimeConfig} {now : Int} (hhold : DeadlinesHold config now)
    (hinstances : 0 < config.instances)
    (hmany : config.dynamic_batching_enabled = true ∧ 2 ≤ config.max_batch_size) :
    now + config.max_queue_delay_us * 1000 < 2 ^ 63 := by
  let s : batch.State (datingSetup config hinstances) := { now }
  obtain ⟨-, hdeadline⟩ := hhold.formBatch (datingSetup config hinstances) s 0 _ rfl rfl
    (by rw [form_deadline]; exact if_pos hmany)
  exact hdeadline.added.2

/-- The deadlines are right as long as they are held by an `int64_t`, and no bound on the config sees to it. -/
theorem deadlinesHold_iff (config : AdminConfig) (hconfig : Installable config) (now : Int) (hnow : 0 ≤ now) :
    DeadlinesHold config.toRuntimeConfig now ↔
      now + config.request_timeout_ms * 1000000 < 2 ^ 63 ∧
        (config.dynamic_batching_enabled = true → now + config.max_queue_delay_us * 1000 < 2 ^ 63) := by
  have hbounded := hconfig.bounded
  have htimeout := deadline_iff hnow hbounded.request_timeout_ms.le (by decide : (0 : Int) ≤ 1000000)
  have hdelay := deadline_iff hnow hbounded.max_queue_delay_us (by decide : (0 : Int) ≤ 1000)
  constructor
  · intro hhold
    exact ⟨hhold.timeout_fits hbounded.instances, fun henabled =>
      hhold.delay_fits hbounded.instances ⟨henabled, hbounded.batching henabled⟩⟩
  · rintro ⟨hsubmit, hform⟩
    refine ⟨?_, ?_, ?_⟩
    · rintro setup s request call hsetup rfl hpc
      refine ⟨_, submit_deadline hpc, ?_⟩
      rw [hsetup]
      exact htimeout.mpr hsubmit
    · rintro setup s request call hsetup rfl hpc
      refine ⟨_, llm_submit_deadline hpc, ?_⟩
      rw [hsetup]
      exact htimeout.mpr hsubmit
    · rintro setup s first formation hsetup rfl hform'
      rw [form_deadline, hsetup] at hform'
      split_ifs at hform' with hmany
      cases hform'
      exact ⟨rfl, hdelay.mpr (hform hmany.1)⟩

theorem deadlinesHold_default : DeadlinesHold {} 0 :=
  (deadlinesHold_iff {} (.commandLine (by decide +kernel)) 0 (le_refl 0)).mpr (by decide)

/-- The largest timeout there is puts the deadline of a request in front of it. -/
example : deadlineAfter 0 9223372036854775807 = -1000000 := by decide

/-- The largest timeout that can be installed overflows. -/
theorem largest_timeout_overflows :
    Installable { request_timeout_ms := 9223372036854775807 } ∧
      ¬DeadlinesHold { request_timeout_ms := 9223372036854775807 } 0 := by
  refine ⟨.commandLine (by decide +kernel), fun hhold => ?_⟩
  have hfits := hhold.timeout_fits (by decide)
  revert hfits
  decide

end neuriplo.scheduler
