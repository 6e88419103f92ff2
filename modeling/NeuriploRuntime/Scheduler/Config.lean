import Mathlib.Data.List.Basic

namespace neuriplo.scheduler

/-- Sizes are `size_t`, the queue delay is `int64_t` microseconds. -/
structure DynamicBatchingConfig where
  enabled : Bool := false
  max_batch_size : Nat := 1
  max_queue_delay_us : Int := 0
  preferred_batch_sizes : List Nat := []
deriving DecidableEq, Repr

structure SchedulerConfig where
  max_queue_size : Nat := 64
  request_timeout_ms : Int := 30000
  instances : Nat := 1
  dynamic_batching : DynamicBatchingConfig := {}
deriving DecidableEq, Repr

structure LlmSchedulerConfig where
  max_queue_size : Nat := 64
  request_timeout_ms : Int := 30000
  instances : Nat := 1
  context_length : Nat := 4096
  kv_cache_slots : Nat := 1
  max_tokens : Nat := 256
  memory_budget_bytes : Nat := 0
deriving DecidableEq, Repr

end neuriplo.scheduler
