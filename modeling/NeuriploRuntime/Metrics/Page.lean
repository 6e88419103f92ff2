import NeuriploRuntime.Metrics.HistogramPage

namespace neuriplo.metrics

open numeral exposition stream

/-- Some headers with the lines behind them, and the names of these. -/
structure Block where
  headers : List (String × String × String)
  names : List (List UInt8)
  lines : List Line

def Block.entries (block : Block) : List Entry :=
  (block.headers.flatMap fun (name, help, kind) => headerEntries name help kind) ++ block.lines.map Line.entry

def HeadersLegible (headers : List (String × String × String)) : Prop :=
  ∀ header ∈ headers, newline ∉ octets (" HELP " ++ header.1 ++ " " ++ header.2.1) ∧
    newline ∉ octets (" TYPE " ++ header.1 ++ " " ++ header.2.2)

instance (headers : List (String × String × String)) : Decidable (HeadersLegible headers) :=
  inferInstanceAs (Decidable (∀ header ∈ headers, _ ∧ _))

/-- All of the block is read as it is written, no line of it twice. -/
structure Block.Sound (block : Block) : Prop where
  headers : HeadersLegible block.headers
  named : ∀ line ∈ block.lines, line.name ∈ block.names
  legible : ∀ line ∈ block.lines, line.Legible
  distinct : block.lines.Pairwise (¬ ·.Alike ·)

section Blocks

variable {blocks : List Block}

/-- The entries of a sound block are legible. -/
theorem Block.Sound.entries {block : Block} (hsound : block.Sound) : ∀ entry ∈ block.entries, entry.Legible := by
  intro entry hentry
  obtain hheader | hline := List.mem_append.mp hentry
  · obtain ⟨header, hmem, hheader⟩ := List.mem_flatMap.mp hheader
    obtain ⟨hhelp, htype⟩ := hsound.headers header hmem
    simp only [headerEntries, List.mem_cons, List.not_mem_nil, or_false] at hheader
    obtain rfl | rfl := hheader
    · exact hhelp
    · exact htype
  · obtain ⟨line, hmem, rfl⟩ := List.mem_map.mp hline
    exact (hsound.legible line hmem).entry

/-- The samples of a block are those of its lines. -/
theorem Block.entries_sample (block : Block) :
    block.entries.filterMap (·.sample?) = block.lines.map Line.sample := by
  have hheaders : (block.headers.flatMap fun (name, help, kind) => headerEntries name help kind).filterMap
      (·.sample?) = [] := by
    rw [List.filterMap_flatMap]
    exact List.flatMap_eq_nil_iff.mpr fun header _ => rfl
  rw [Block.entries, List.filterMap_append, hheaders, List.nil_append, List.filterMap_map]
  exact congrFun List.filterMap_eq_map _

/-- Blocks under different names hold no series twice. -/
theorem distinct_blocks (hsound : ∀ block ∈ blocks, block.Sound)
    (hnames : (blocks.map Block.names).Pairwise fun names others => ∀ name ∈ names, name ∉ others) :
    (blocks.flatMap Block.lines).Pairwise (¬ ·.Alike ·) := by
  rw [List.pairwise_flatMap]
  refine ⟨fun block hblock => (hsound block hblock).distinct, ?_⟩
  rw [List.pairwise_map] at hnames
  refine hnames.imp_of_mem ?_
  intro block other hblock hother hapart line hline behind hbehind halike
  have hname := (hsound other hother).named behind hbehind
  rw [← halike.1] at hname
  exact hapart line.name ((hsound block hblock).named line hline) hname

/-- A page of blocks with names of their own is read line by line. -/
theorem readPage_blocks (hsound : ∀ block ∈ blocks, block.Sound)
    (hnames : (blocks.map Block.names).Pairwise fun names others => ∀ name ∈ names, name ∉ others) :
    readPage ((blocks.flatMap Block.entries).flatMap (·.raw)) =
      some ((blocks.flatMap Block.lines).map Line.sample) := by
  have hsamples : (blocks.flatMap Block.entries).filterMap (·.sample?) =
      (blocks.flatMap Block.lines).map Line.sample := by
    rw [List.filterMap_flatMap, List.map_flatMap]
    exact List.flatMap_congr fun block _ => block.entries_sample
  rw [← hsamples]
  apply readPage_raw
  · intro entry hentry
    obtain ⟨block, hblock, hentry⟩ := List.mem_flatMap.mp hentry
    exact (hsound block hblock).entries entry hentry
  · rw [hsamples, List.pairwise_map]
    exact (distinct_blocks hsound hnames).imp fun hapart hsame => hapart (Line.alike_of_sameSeries hsame)

end Blocks

/-- What is put into a line: a count, or nanoseconds that are shown in seconds. -/
inductive Amount where
  | number (count : Nat)
  | nanoseconds (ns : UInt64)

def Amount.value : Amount → Double
  | .number count => .ofNat count
  | .nanoseconds ns => nsToSeconds ns

/-- A metric that is read off the registry, or off a snapshot. -/
structure Metric (Source : Type) where
  name : String
  help : String
  kind : String
  amount : Source → Amount

def Metric.header {Source : Type} (metric : Metric Source) : String × String × String :=
  (metric.name, metric.help, metric.kind)

def schedulerMetrics : List (Metric SchedulerMetricsSnapshot) := [
  { name := "neuriplo_scheduler_queue_depth", help := "Current scheduler queue depth", kind := "gauge",
    amount := fun metrics => .number metrics.queue_depth },
  { name := "neuriplo_scheduler_in_flight_requests", help := "Current in-flight requests", kind := "gauge",
    amount := fun metrics => .number metrics.in_flight },
  { name := "neuriplo_scheduler_requests_accepted_total", help := "Total accepted requests", kind := "counter",
    amount := fun metrics => .number metrics.requests_accepted },
  { name := "neuriplo_scheduler_requests_rejected_total", help := "Total rejected requests", kind := "counter",
    amount := fun metrics => .number metrics.requests_rejected },
  { name := "neuriplo_scheduler_requests_timed_out_total", help := "Total timed-out requests", kind := "counter",
    amount := fun metrics => .number metrics.requests_timed_out },
  { name := "neuriplo_scheduler_queue_wait_seconds", help := "Total seconds spent waiting in queue", kind := "counter",
    amount := fun metrics => .nanoseconds metrics.queue_wait_ns_total }]

def requestsTotal : Metric MetricsRegistry where
  name := "neuriplo_http_infer_requests_total"
  help := "Total infer requests"
  kind := "counter"
  amount := fun registry => .number (registry.requests_total_.getD registry.active_model_name_ 0)

def requestsSuccess : Metric MetricsRegistry where
  name := "neuriplo_http_infer_requests_success_total"
  help := "Total successful infer requests"
  kind := "counter"
  amount := fun registry => .number (registry.requests_success_.getD registry.active_model_name_ 0)

def requestsFailure : Metric MetricsRegistry where
  name := "neuriplo_http_infer_requests_failure_total"
  help := "Total failed infer requests"
  kind := "counter"
  amount := fun registry => .number (registry.requests_failure_.getD registry.active_model_name_ 0)

def backendErrors : Metric MetricsRegistry where
  name := "neuriplo_backend_errors_total"
  help := "Total backend execution failures"
  kind := "counter"
  amount := fun registry => .number (registry.backend_errors_.getD registry.active_model_name_ 0)

/-- The metrics of the active model before the requests by status. -/
def activeMetrics : List (Metric MetricsRegistry) := [
  { name := "neuriplo_scheduler_infer_seconds", help := "Total seconds spent in inference", kind := "counter",
    amount := fun registry => .nanoseconds registry.scheduler_metrics_.execution_ns_total },
  { name := "neuriplo_scheduler_execution_seconds", help := "Total seconds spent in execution", kind := "counter",
    amount := fun registry => .nanoseconds registry.scheduler_metrics_.execution_ns_total },
  { name := "neuriplo_scheduler_request_total_seconds", help := "Total end-to-end request seconds", kind := "counter",
    amount := fun registry => .nanoseconds registry.scheduler_metrics_.total_ns_total },
  { name := "neuriplo_scheduler_batches_formed_total", help := "Total batches formed", kind := "counter",
    amount := fun registry => .number registry.scheduler_metrics_.batches_formed },
  { name := "neuriplo_scheduler_batched_requests_total", help := "Total requests processed in batches",
    kind := "counter", amount := fun registry => .number registry.scheduler_metrics_.batched_requests_total },
  { name := "neuriplo_scheduler_batch_formation_seconds", help := "Total seconds spent forming batches",
    kind := "counter", amount := fun registry => .nanoseconds registry.scheduler_metrics_.batch_formation_ns_total },
  { name := "neuriplo_scheduler_batch_execution_seconds", help := "Total seconds spent in batch execution",
    kind := "counter", amount := fun registry => .nanoseconds registry.scheduler_metrics_.batch_execution_ns_total },
  { name := "neuriplo_kv_cache_slots_total", help := "Total KV cache slots", kind := "gauge",
    amount := fun registry => .number registry.scheduler_metrics_.kv_cache_slots_total },
  { name := "neuriplo_kv_cache_slots_active", help := "Active KV cache slots", kind := "gauge",
    amount := fun registry => .number registry.scheduler_metrics_.kv_cache_slots_active },
  { name := "neuriplo_scheduler_requests_memory_pressure_rejected_total",
    help := "Requests rejected due to memory pressure", kind := "counter",
    amount := fun registry => .number registry.scheduler_metrics_.requests_memory_pressure_rejected },
  requestsTotal,
  requestsSuccess,
  requestsFailure]

/-- The metrics of the active model behind the requests by status. -/
def loadMetrics : List (Metric MetricsRegistry) := [
  { name := "neuriplo_model_load_success_total", help := "Total successful model loads", kind := "counter",
    amount := fun registry => .number (registry.model_load_success_.getD registry.active_model_name_ 0) },
  { name := "neuriplo_model_load_failure_total", help := "Total failed model loads", kind := "counter",
    amount := fun registry => .number (registry.model_load_failure_.getD registry.active_model_name_ 0) },
  backendErrors]

def requestsName : String := "neuriplo_http_requests_total"

def requestsHelp : String := "Total HTTP requests with method/status labels"

def memoryName : String := "neuriplo_process_resident_memory_bytes"

def memoryHelp : String := "Process resident memory in bytes"

/-- No labels. -/
def noLabels : LabelMap where
  entries := []
  sorted := List.Pairwise.nil

namespace MetricsRegistry

def appendSchedulerMetrics (registry : MetricsRegistry) (out model version : List UInt8)
    (scheduler_metrics : SchedulerMetricsSnapshot) : List UInt8 :=
  schedulerMetrics.foldl (fun out metric => appendLine out (octets metric.name)
    (modelLabel registry.deployment_ model version) (metric.amount scheduler_metrics).value) out

def appendMetric (registry : MetricsRegistry) (out : List UInt8) (metric : Metric MetricsRegistry) : List UInt8 :=
  let out := appendHeader out metric.name metric.help metric.kind
  appendLine out (octets metric.name)
    (modelLabel registry.deployment_ registry.active_model_name_ registry.model_version_) (metric.amount registry).value

/-- The version that stands beside a model's counts. -/
def versionOf (registry : MetricsRegistry) (model : List UInt8) : List UInt8 :=
  match registry.scheduler_metrics_by_model_[model]? with
  | some found => found.1
  | none => registry.model_version_

def appendStatuses (registry : MetricsRegistry) (out model : List UInt8) (statuses : TextMap Nat) : List UInt8 :=
  statuses.toList.foldl (fun out status => appendLine out (octets requestsName)
    (requestLabels registry.deployment_ model (registry.versionOf model) status.1) (.ofNat status.2)) out

/-- The page, for a number of bytes that the process has in memory. -/
def renderMetrics (registry : MetricsRegistry) (memory_bytes : Nat) : List UInt8 :=
  let out := schedulerMetrics.foldl (fun out metric => appendHeader out metric.name metric.help metric.kind) []
  let out :=
    if !registry.scheduler_metrics_by_model_.isEmpty then
      registry.scheduler_metrics_by_model_.toList.foldl (fun out found =>
        registry.appendSchedulerMetrics out found.1 found.2.1 found.2.2) out
    else
      registry.appendSchedulerMetrics out registry.active_model_name_ registry.model_version_
        registry.scheduler_metrics_
  let out := activeMetrics.foldl registry.appendMetric out
  let out := appendHeader out requestsName requestsHelp "counter"
  let out := registry.requests_by_status_.toList.foldl (fun out found =>
    registry.appendStatuses out found.1 found.2) out
  let out := loadMetrics.foldl registry.appendMetric out
  let out := Family.all.foldl registry.appendFamily out
  let out := appendHeader out memoryName memoryHelp "gauge"
  appendLine out (octets memoryName) noLabels (.ofNat memory_bytes)

/-- Whose scheduler the page tells of. -/
def schedulers (registry : MetricsRegistry) : List (List UInt8 × List UInt8 × SchedulerMetricsSnapshot) :=
  if !registry.scheduler_metrics_by_model_.isEmpty then registry.scheduler_metrics_by_model_.toList
  else [(registry.active_model_name_, registry.model_version_, registry.scheduler_metrics_)]

def schedulerLine (registry : MetricsRegistry) (scheduler : List UInt8 × List UInt8 × SchedulerMetricsSnapshot)
    (metric : Metric SchedulerMetricsSnapshot) : Line where
  name := octets metric.name
  labels := modelLabel registry.deployment_ scheduler.1 scheduler.2.1
  value := valueText (metric.amount scheduler.2.2).value

def schedulerBlock (registry : MetricsRegistry) : Block where
  headers := schedulerMetrics.map Metric.header
  names := schedulerMetrics.map (octets ·.name)
  lines := registry.schedulers.flatMap fun scheduler => schedulerMetrics.map (registry.schedulerLine scheduler)

def metricBlock (registry : MetricsRegistry) (metric : Metric MetricsRegistry) : Block where
  headers := [metric.header]
  names := [octets metric.name]
  lines := [{
    name := octets metric.name
    labels := modelLabel registry.deployment_ registry.active_model_name_ registry.model_version_
    value := valueText (metric.amount registry).value }]

def statusLine (registry : MetricsRegistry) (model : List UInt8) (status : List UInt8 × Nat) : Line where
  name := octets requestsName
  labels := requestLabels registry.deployment_ model (registry.versionOf model) status.1
  value := valueText (.ofNat status.2)

def requestsBlock (registry : MetricsRegistry) : Block where
  headers := [(requestsName, requestsHelp, "counter")]
  names := [octets requestsName]
  lines := registry.requests_by_status_.toList.flatMap fun found => found.2.toList.map (registry.statusLine found.1)

def familyBlock (registry : MetricsRegistry) (requests : List InferRecord) (family : Family) : Block where
  headers := [(family.name, family.help, "histogram")]
  names := family.keys.map Prod.fst
  lines := (family.rows (family.numbers requests)).map
    (Row.line registry.deployment_ registry.active_model_name_ registry.model_version_)

def memoryBlock (memory_bytes : Nat) : Block where
  headers := [(memoryName, memoryHelp, "gauge")]
  names := [octets memoryName]
  lines := [{ name := octets memoryName, labels := noLabels, value := valueText (.ofNat memory_bytes) }]

/-- The page that tells of the requests of the active model. -/
def blocks (registry : MetricsRegistry) (requests : List InferRecord) (memory_bytes : Nat) : List Block :=
  registry.schedulerBlock :: activeMetrics.map registry.metricBlock ++
    registry.requestsBlock :: loadMetrics.map registry.metricBlock ++
      Family.all.map (registry.familyBlock requests) ++ [memoryBlock memory_bytes]

section Text

variable {registry : MetricsRegistry}

/-- Headers are printed one after the other. -/
theorem appendHeaders_eq {Source : Type} (metrics : List (Metric Source)) (out : List UInt8) :
    metrics.foldl (fun out metric => appendHeader out metric.name metric.help metric.kind) out =
      out ++ ((metrics.map Metric.header).flatMap fun (name, help, kind) => headerEntries name help kind).flatMap
        (·.raw) := by
  rw [List.flatMap_map, List.flatMap_assoc]
  apply foldl_of_append
  intro out metric
  exact appendHeader_eq out metric.name metric.help metric.kind

/-- A metric of the active model is printed as its block. -/
theorem appendMetric_eq (out : List UInt8) (metric : Metric MetricsRegistry) :
    registry.appendMetric out metric = out ++ (registry.metricBlock metric).entries.flatMap (·.raw) := by
  simp only [appendMetric, appendHeader_eq, appendLine_eq, metricBlock, Block.entries, Metric.header, List.flatMap_cons,
    List.flatMap_nil, List.flatMap_append, List.map_cons, List.map_nil, Line.entry, Entry.raw, List.append_assoc,
    List.append_nil]

/-- The metrics of the active model are printed as their blocks. -/
theorem appendMetrics_eq (metrics : List (Metric MetricsRegistry)) (out : List UInt8) :
    metrics.foldl registry.appendMetric out =
      out ++ ((metrics.map registry.metricBlock).flatMap Block.entries).flatMap (·.raw) := by
  rw [List.flatMap_map, List.flatMap_assoc]
  exact foldl_of_append appendMetric_eq out metrics

/-- A scheduler is printed as its lines. -/
theorem appendSchedulerMetrics_eq (out : List UInt8)
    (scheduler : List UInt8 × List UInt8 × SchedulerMetricsSnapshot) :
    registry.appendSchedulerMetrics out scheduler.1 scheduler.2.1 scheduler.2.2 =
      out ++ (schedulerMetrics.map (registry.schedulerLine scheduler)).flatMap (·.entry.raw) := by
  rw [List.flatMap_map]
  apply foldl_of_append
  intro out metric
  exact appendLine_eq out _ _ _

/-- The schedulers are printed as their block. -/
theorem appendSchedulers_eq (out : List UInt8) :
    (if !registry.scheduler_metrics_by_model_.isEmpty then
      registry.scheduler_metrics_by_model_.toList.foldl (fun out found =>
        registry.appendSchedulerMetrics out found.1 found.2.1 found.2.2) out
    else
      registry.appendSchedulerMetrics out registry.active_model_name_ registry.model_version_
        registry.scheduler_metrics_) = out ++ registry.schedulerBlock.lines.flatMap (·.entry.raw) := by
  simp only [schedulerBlock, schedulers]
  rw [List.flatMap_assoc]
  split
  · exact foldl_of_append appendSchedulerMetrics_eq out _
  · rw [List.flatMap_cons, List.flatMap_nil, List.append_nil]
    exact appendSchedulerMetrics_eq out (_, _, _)

/-- The requests of a model are printed as a line for each status. -/
theorem appendStatuses_eq (out : List UInt8) (found : List UInt8 × TextMap Nat) :
    registry.appendStatuses out found.1 found.2 =
      out ++ (found.2.toList.map (registry.statusLine found.1)).flatMap (·.entry.raw) := by
  rw [List.flatMap_map]
  apply foldl_of_append
  intro out status
  exact appendLine_eq out _ _ _

/-- The requests of all models are printed as their block. -/
theorem appendRequests_eq (out : List UInt8) :
    registry.requests_by_status_.toList.foldl (fun out found => registry.appendStatuses out found.1 found.2)
      (appendHeader out requestsName requestsHelp "counter") =
        out ++ registry.requestsBlock.entries.flatMap (·.raw) := by
  rw [foldl_of_append appendStatuses_eq, appendHeader_eq]
  simp only [requestsBlock, Block.entries, List.flatMap_cons, List.flatMap_nil, List.append_nil, List.flatMap_append,
    List.flatMap_map, List.flatMap_assoc, List.append_assoc]

/-- A family of histograms is printed as its block. -/
theorem appendFamily_eq {updates : List Update} {model : List UInt8} (hmodel : registry.active_model_name_ = model)
    (hobserves : registry.Observes model (requestsOf updates model)) (hfew : updates.length < 2 ^ 53)
    (out : List UInt8) (family : Family) :
    registry.appendFamily out family =
      out ++ (registry.familyBlock (requestsOf updates model) family).entries.flatMap (·.raw) := by
  subst hmodel
  have hnumbers := (length_numbers_le family (requestsOf updates registry.active_model_name_)).trans
    (length_requestsOf_le updates registry.active_model_name_)
  simp only [appendFamily]
  rw [appendHeader_eq, shown, appendHistogram_eq (hobserves.family family).counts (hnumbers.trans_lt hfew)]
  simp only [familyBlock, Block.entries, List.flatMap_cons, List.flatMap_nil, List.append_nil, List.flatMap_append,
    List.flatMap_map, List.append_assoc]

/-- The page is printed as its blocks. -/
theorem renderMetrics_eq {updates : List Update} {model : List UInt8} (hmodel : registry.active_model_name_ = model)
    (hobserves : registry.Observes model (requestsOf updates model)) (hfew : updates.length < 2 ^ 53)
    (memory_bytes : Nat) :
    registry.renderMetrics memory_bytes =
      ((registry.blocks (requestsOf updates model) memory_bytes).flatMap Block.entries).flatMap (·.raw) := by
  simp only [renderMetrics]
  rw [appendSchedulers_eq, appendHeaders_eq, appendMetrics_eq, appendRequests_eq, appendMetrics_eq,
    foldl_of_append (appendFamily_eq hmodel hobserves hfew), appendHeader_eq, appendLine_eq]
  -- what is left is the order of the parts
  simp only [blocks, List.flatMap_append, List.flatMap_cons, List.flatMap_nil, List.append_assoc, List.flatMap_map,
    List.flatMap_assoc]
  simp only [schedulerBlock, memoryBlock, Block.entries, List.flatMap_append, List.flatMap_cons, List.flatMap_nil,
    List.append_assoc, List.flatMap_map, List.flatMap_assoc, List.map_cons, List.map_nil, List.append_nil,
    List.nil_append, Line.entry, Entry.raw]

end Text

end MetricsRegistry

end neuriplo.metrics
