import NeuriploRuntime.Metrics.Answers
import NeuriploRuntime.Metrics.Histogram

namespace neuriplo.metrics

open numeral stream

/-- `std::map` with texts for its keys. -/
abbrev TextMap (Value : Type) := Std.TreeMap (List UInt8) Value

/-- `++` on the entry of a map. -/
def TextMap.increment (counts : TextMap Nat) (key : List UInt8) : TextMap Nat :=
  counts.alter key fun count => some (count.getD 0 + 1)

structure SchedulerMetricsSnapshot where
  queue_depth : Nat := 0
  in_flight : Nat := 0
  requests_accepted : Nat := 0
  requests_rejected : Nat := 0
  requests_timed_out : Nat := 0
  requests_memory_pressure_rejected : Nat := 0
  queue_wait_ns_total : UInt64 := 0
  execution_ns_total : UInt64 := 0
  total_ns_total : UInt64 := 0
  batches_formed : Nat := 0
  batched_requests_total : Nat := 0
  batch_formation_ns_total : UInt64 := 0
  batch_execution_ns_total : UInt64 := 0
  kv_cache_slots_total : Nat := 0
  kv_cache_slots_active : Nat := 0

/-- `MetricsRegistry` with all that its page is made of. -/
structure MetricsRegistry where
  scheduler_metrics_ : SchedulerMetricsSnapshot := {}
  scheduler_metrics_by_model_ : TextMap (List UInt8 × SchedulerMetricsSnapshot) := {}
  active_model_name_ : List UInt8 := octets "demo"
  model_version_ : List UInt8 := octets "1"
  deployment_ : List UInt8 := []
  requests_by_status_ : TextMap (TextMap Nat) := {}
  requests_by_method_ : TextMap (TextMap Nat) := {}
  requests_total_ : TextMap Nat := {}
  requests_success_ : TextMap Nat := {}
  requests_failure_ : TextMap Nat := {}
  backend_errors_ : TextMap Nat := {}
  model_load_success_ : TextMap Nat := {}
  model_load_failure_ : TextMap Nat := {}
  queue_latency_histograms_ : TextMap Histogram := {}
  infer_latency_histograms_ : TextMap Histogram := {}
  total_latency_histograms_ : TextMap Histogram := {}
  batch_size_histograms_ : TextMap Histogram := {}

/-- What is recorded of a request. -/
structure InferRecord where
  model : List UInt8
  method : List UInt8
  status_code : Int
  queue_latency_ns : UInt64
  infer_latency_ns : UInt64
  total_latency_ns : UInt64
  batch_size : UInt64 := 0

/-- `std::to_string`. -/
def statusText (status_code : Int) : List UInt8 := octets (toString status_code)

/-- The histogram of a model is made when it is needed first. -/
def observeIn (histograms : TextMap Histogram) (model : List UInt8) (buckets : List Double) (value : Double) :
    TextMap Histogram :=
  histograms.alter model fun found =>
    let hist := found.getD {}
    let hist := if hist.buckets.isEmpty then .ofBuckets buckets else hist
    some (hist.observe value)

def MetricsRegistry.recordInferRequest (registry : MetricsRegistry) (request : InferRecord) : MetricsRegistry :=
  let succeeded := isSuccessStatus request.status_code
  { registry with
    active_model_name_ := request.model
    requests_total_ := registry.requests_total_.increment request.model
    requests_success_ :=
      if succeeded then registry.requests_success_.increment request.model else registry.requests_success_
    requests_failure_ :=
      if succeeded then registry.requests_failure_ else registry.requests_failure_.increment request.model
    backend_errors_ :=
      if request.status_code = 500 then registry.backend_errors_.increment request.model
      else registry.backend_errors_
    requests_by_status_ := registry.requests_by_status_.alter request.model fun statuses =>
      some ((statuses.getD {}).increment (statusText request.status_code))
    requests_by_method_ := registry.requests_by_method_.alter request.model fun methods =>
      some ((methods.getD {}).increment request.method)
    queue_latency_histograms_ := observeIn registry.queue_latency_histograms_ request.model latencyBuckets
      (nsToSeconds request.queue_latency_ns)
    infer_latency_histograms_ := observeIn registry.infer_latency_histograms_ request.model latencyBuckets
      (nsToSeconds request.infer_latency_ns)
    total_latency_histograms_ := observeIn registry.total_latency_histograms_ request.model latencyBuckets
      (nsToSeconds request.total_latency_ns)
    batch_size_histograms_ :=
      if 0 < request.batch_size then
        observeIn registry.batch_size_histograms_ request.model batchSizeBuckets (.ofNat request.batch_size.toNat)
      else registry.batch_size_histograms_ }

def MetricsRegistry.recordModelLoadSuccess (registry : MetricsRegistry) (model : List UInt8) : MetricsRegistry :=
  { registry with
    active_model_name_ := model
    model_load_success_ := registry.model_load_success_.increment model }

def MetricsRegistry.recordModelLoadFailure (registry : MetricsRegistry) (model : List UInt8) : MetricsRegistry :=
  { registry with
    active_model_name_ := model
    model_load_failure_ := registry.model_load_failure_.increment model }

/-- Without a name the snapshot is the active model's. -/
def MetricsRegistry.setActiveSchedulerMetrics (registry : MetricsRegistry)
    (snapshot : SchedulerMetricsSnapshot) : MetricsRegistry :=
  { registry with
    scheduler_metrics_ := snapshot
    scheduler_metrics_by_model_ :=
      registry.scheduler_metrics_by_model_.insert registry.active_model_name_ (registry.model_version_, snapshot) }

def MetricsRegistry.setSchedulerMetrics (registry : MetricsRegistry) (model version : List UInt8)
    (snapshot : SchedulerMetricsSnapshot) : MetricsRegistry :=
  let registry := { registry with
    scheduler_metrics_by_model_ := registry.scheduler_metrics_by_model_.insert model (version, snapshot) }
  if model = registry.active_model_name_ then
    { registry with scheduler_metrics_ := snapshot, model_version_ := version }
  else registry

def MetricsRegistry.setModelVersion (registry : MetricsRegistry) (version : List UInt8) : MetricsRegistry :=
  { registry with model_version_ := version }

def MetricsRegistry.setDeployment (registry : MetricsRegistry) (deployment : List UInt8) : MetricsRegistry :=
  { registry with deployment_ := deployment }

inductive Update where
  | inferRequest (request : InferRecord)
  | modelLoadSuccess (model : List UInt8)
  | modelLoadFailure (model : List UInt8)
  | activeSchedulerMetrics (snapshot : SchedulerMetricsSnapshot)
  | schedulerMetrics (model version : List UInt8) (snapshot : SchedulerMetricsSnapshot)
  | modelVersion (version : List UInt8)
  | deployment (deployment : List UInt8)

def MetricsRegistry.update (registry : MetricsRegistry) : Update → MetricsRegistry
  | .inferRequest request => registry.recordInferRequest request
  | .modelLoadSuccess model => registry.recordModelLoadSuccess model
  | .modelLoadFailure model => registry.recordModelLoadFailure model
  | .activeSchedulerMetrics snapshot => registry.setActiveSchedulerMetrics snapshot
  | .schedulerMetrics model version snapshot => registry.setSchedulerMetrics model version snapshot
  | .modelVersion version => registry.setModelVersion version
  | .deployment deployment => registry.setDeployment deployment

/-- The registry after some calls, each of them under its mutex. -/
def registryAfter (updates : List Update) : MetricsRegistry := updates.foldl MetricsRegistry.update {}

def Update.request? : Update → Option InferRecord
  | .inferRequest request => some request
  | _ => none

/-- The requests that were recorded for a model. -/
def requestsOf (updates : List Update) (model : List UInt8) : List InferRecord :=
  (updates.filterMap Update.request?).filter (·.model = model)

end neuriplo.metrics
