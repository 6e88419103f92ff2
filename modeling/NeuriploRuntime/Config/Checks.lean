import NeuriploRuntime.Config.RuntimeConfig
import NeuriploRuntime.Fallible.Except

open fallible

namespace neuriplo.config

def parseSchedulerStrategy (value : String) : Except String Unit :=
  refuse (value ≠ "tensor" ∧ value ≠ "llm") "scheduler-strategy must be tensor or llm"

/-- The checks at the end of `parseRuntimeConfig`, as far as they are about fields that an admin body may set. -/
def finalChecks (config : RuntimeConfig) : Except String Unit := do
  refuse config.model_name.isEmpty "model name must not be empty"
  refuse (config.max_queue_size = 0) "max queue size must be greater than 0"
  refuse (config.request_timeout_ms ≤ 0) "request timeout must be greater than 0"
  refuse (config.instances = 0) "instances must be greater than 0"
  refuse (config.max_batch_size = 0) "max batch size must be greater than 0"
  refuse (config.max_queue_delay_us < 0) "max queue delay must be greater than or equal to 0"
  refuse (config.dynamic_batching_enabled ∧ config.max_batch_size < 2)
    "max batch size must be at least 2 when dynamic batching is enabled"
  parseSchedulerStrategy config.scheduler_strategy

/-- What the checks let through, the scheduler strategy aside. -/
structure RuntimeConfig.Bounded (config : RuntimeConfig) : Prop where
  model_name : config.model_name ≠ ""
  max_queue_size : 0 < config.max_queue_size
  request_timeout_ms : 0 < config.request_timeout_ms
  instances : 0 < config.instances
  max_batch_size : 0 < config.max_batch_size
  max_queue_delay_us : 0 ≤ config.max_queue_delay_us
  batching : config.dynamic_batching_enabled = true → 2 ≤ config.max_batch_size

structure RuntimeConfig.Valid (config : RuntimeConfig) : Prop extends RuntimeConfig.Bounded config where
  scheduler_strategy : config.scheduler_strategy = "tensor" ∨ config.scheduler_strategy = "llm"

/-- The last checks of the command line pass exactly the valid configurations. -/
theorem finalChecks_eq_ok_iff (config : RuntimeConfig) : finalChecks config = .ok () ↔ config.Valid := by
  simp only [finalChecks, parseSchedulerStrategy, bind_eq_ok, refuse_eq_ok, exists_const, String.isEmpty_iff,
    Int.not_le, Int.not_lt, Nat.not_lt, not_and, not_not, ← Nat.pos_iff_ne_zero]
  constructor
  · rintro ⟨hname, hqueue, htimeout, hinstances, hsize, hdelay, hbatching, hstrategy⟩
    exact ⟨⟨hname, hqueue, htimeout, hinstances, hsize, hdelay, hbatching⟩, or_iff_not_imp_left.mpr hstrategy⟩
  · rintro ⟨⟨hname, hqueue, htimeout, hinstances, hsize, hdelay, hbatching⟩, hstrategy⟩
    exact ⟨hname, hqueue, htimeout, hinstances, hsize, hdelay, hbatching, or_iff_not_imp_left.mp hstrategy⟩

end neuriplo.config
