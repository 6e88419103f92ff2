import NeuriploRuntime.Metrics.Page

namespace neuriplo.metrics

open numeral exposition stream

/-- Every amount is a magnitude. -/
theorem Amount.isMagnitude_value (amount : Amount) : amount.value.IsMagnitude := by
  cases amount with
  | number count => exact Double.isMagnitude_ofNat count
  | nanoseconds ns => exact Double.isMagnitude_ofUnits _

/-- Labels of a model tell which one. -/
theorem modelLabel_inj {deployment_ model version otherModel otherVersion : List UInt8}
    (hsame : modelLabel deployment_ model version = modelLabel deployment_ otherModel otherVersion) :
    model = otherModel := by
  have hentries := congrArg LabelMap.entries hsame
  simp only [modelLabel, List.append_cancel_left_eq, List.cons.injEq, Label.mk.injEq] at hentries
  exact hentries.1.2

/-- Labels of requests tell which model and which status. -/
theorem requestLabels_inj {deployment_ model version status otherModel otherVersion otherStatus : List UInt8}
    (hsame : requestLabels deployment_ model version status =
      requestLabels deployment_ otherModel otherVersion otherStatus) :
    model = otherModel ∧ status = otherStatus := by
  have hentries := congrArg LabelMap.entries hsame
  simp only [requestLabels, List.append_cancel_left_eq, List.cons.injEq, Label.mk.injEq] at hentries
  exact ⟨hentries.1.2, hentries.2.1.2⟩

/-- The metrics of the active model have legible names and headers. -/
theorem metric_names : ∀ metric ∈ activeMetrics ++ loadMetrics,
    isName isMetricStart isMetricByte (octets metric.name) = true ∧ HeadersLegible [metric.header] := by
  decide +kernel

theorem scheduler_names : ∀ metric ∈ schedulerMetrics,
    isName isMetricStart isMetricByte (octets metric.name) = true := by decide +kernel

theorem scheduler_headers : HeadersLegible (schedulerMetrics.map Metric.header) := by decide +kernel

theorem requests_header : isName isMetricStart isMetricByte (octets requestsName) = true ∧
    HeadersLegible [(requestsName, requestsHelp, "counter")] := by decide +kernel

theorem memory_header : isName isMetricStart isMetricByte (octets memoryName) = true ∧
    HeadersLegible [(memoryName, memoryHelp, "gauge")] := by decide +kernel

namespace MetricsRegistry

variable {registry : MetricsRegistry}

/-- The texts that stand in the labels of the page. -/
def texts (registry : MetricsRegistry) : List (List UInt8) :=
  [registry.deployment_, registry.active_model_name_, registry.model_version_] ++
    (registry.schedulers.flatMap fun scheduler => [scheduler.1, scheduler.2.1]) ++
      registry.requests_by_status_.toList.flatMap fun found => found.1 :: found.2.toList.map Prod.fst

/-- No label of the page needs an escape. -/
def Plain (registry : MetricsRegistry) : Prop := ∀ text ∈ registry.texts, IsPlain text ∧ IsUtf8 text

instance (registry : MetricsRegistry) : Decidable registry.Plain :=
  inferInstanceAs (Decidable (∀ text ∈ registry.texts, IsPlain text ∧ IsUtf8 text))

/-- The active model has plain names. -/
theorem Plain.active (hplain : registry.Plain) :
    ∀ text ∈ [registry.deployment_, registry.active_model_name_, registry.model_version_],
      IsPlain text ∧ IsUtf8 text :=
  fun text htext => hplain text (List.mem_append_left _ (List.mem_append_left _ htext))

/-- The schedulers have plain names. -/
theorem Plain.scheduler (hplain : registry.Plain) {scheduler : List UInt8 × List UInt8 × SchedulerMetricsSnapshot}
    (hscheduler : scheduler ∈ registry.schedulers) :
    ∀ text ∈ [scheduler.1, scheduler.2.1], IsPlain text ∧ IsUtf8 text :=
  fun text htext =>
    hplain text (List.mem_append_left _ (List.mem_append_right _ (List.mem_flatMap.mpr ⟨_, hscheduler, htext⟩)))

/-- The requests are counted under plain names. -/
theorem Plain.status (hplain : registry.Plain) {found : List UInt8 × TextMap Nat}
    (hfound : found ∈ registry.requests_by_status_.toList) :
    ∀ text ∈ found.1 :: found.2.toList.map Prod.fst, IsPlain text ∧ IsUtf8 text :=
  fun text htext => hplain text (List.mem_append_right _ (List.mem_flatMap.mpr ⟨_, hfound, htext⟩))

/-- Every model's version is plain. -/
theorem Plain.versionOf (hplain : registry.Plain) (model : List UInt8) :
    IsPlain (registry.versionOf model) ∧ IsUtf8 (registry.versionOf model) := by
  unfold MetricsRegistry.versionOf
  split
  · next found hfound =>
    have hmem := Std.TreeMap.mem_toList_iff_getElem?_eq_some.mpr hfound
    have hsome : registry.scheduler_metrics_by_model_.isEmpty = false := by
      rw [← Std.TreeMap.isEmpty_toList, List.isEmpty_eq_false_iff]
      exact List.ne_nil_of_mem hmem
    have hscheduler : (model, found) ∈ registry.schedulers := by
      rw [schedulers, hsome]
      exact hmem
    exact hplain.scheduler hscheduler found.1 (by simp)
  · exact hplain.active _ (by simp)

/-- The schedulers are of different models. -/
theorem schedulers_distinct (registry : MetricsRegistry) : registry.schedulers.Pairwise fun scheduler other =>
    scheduler.1 ≠ other.1 := by
  unfold schedulers
  split
  · exact Std.TreeMap.distinct_keys_toList.imp fun hkeys hsame => hkeys (by rw [hsame]; exact Std.ReflCmp.compare_self)
  · exact List.pairwise_singleton _ _

/-- The block of the schedulers is sound. -/
theorem Plain.schedulerBlock (hplain : registry.Plain) : registry.schedulerBlock.Sound where
  headers := scheduler_headers
  named := by
    intro line hline
    obtain ⟨scheduler, -, hline⟩ := List.mem_flatMap.mp hline
    obtain ⟨metric, hmetric, rfl⟩ := List.mem_map.mp hline
    exact List.mem_map_of_mem hmetric
  legible := by
    intro line hline
    obtain ⟨scheduler, hscheduler, hline⟩ := List.mem_flatMap.mp hline
    obtain ⟨metric, hmetric, rfl⟩ := List.mem_map.mp hline
    refine Line.legible_of_magnitude ((legible_modelLabel_iff (scheduler_names metric hmetric) (by decide)).mpr ?_)
      (metric.amount scheduler.2.2).isMagnitude_value
    exact List.forall_mem_cons.mpr ⟨hplain.active _ List.mem_cons_self, hplain.scheduler hscheduler⟩
  distinct := by
    have hnames : schedulerMetrics.Pairwise fun metric other => octets metric.name ≠ octets other.name := by
      decide +kernel
    simp only [MetricsRegistry.schedulerBlock]
    rw [List.pairwise_flatMap]
    -- the lines of a scheduler differ in their names, those of two schedulers in their models
    constructor
    · intro scheduler _
      rw [List.pairwise_map]
      exact hnames.imp fun hapart halike => hapart halike.1
    · refine registry.schedulers_distinct.imp ?_
      intro scheduler other hapart line hline behind hbehind halike
      obtain ⟨metric, -, rfl⟩ := List.mem_map.mp hline
      obtain ⟨metric, -, rfl⟩ := List.mem_map.mp hbehind
      exact hapart (modelLabel_inj halike.2)

/-- The blocks of the active model are sound. -/
theorem Plain.metricBlock (hplain : registry.Plain) {metric : Metric MetricsRegistry}
    (hmetric : metric ∈ activeMetrics ++ loadMetrics) : (registry.metricBlock metric).Sound where
  headers := (metric_names metric hmetric).2
  named := by
    rw [MetricsRegistry.metricBlock, List.forall_mem_singleton]
    exact List.mem_singleton_self _
  legible := by
    rw [MetricsRegistry.metricBlock, List.forall_mem_singleton]
    have hname := (metric_names metric hmetric).1
    exact Line.legible_of_magnitude ((legible_modelLabel_iff hname (by decide)).mpr hplain.active)
      (metric.amount registry).isMagnitude_value
  distinct := List.pairwise_singleton _ _

/-- The block of the requests is sound. -/
theorem Plain.requestsBlock (hplain : registry.Plain) : registry.requestsBlock.Sound where
  headers := requests_header.2
  named := by
    intro line hline
    obtain ⟨found, -, hline⟩ := List.mem_flatMap.mp hline
    obtain ⟨status, -, rfl⟩ := List.mem_map.mp hline
    exact List.mem_singleton_self _
  legible := by
    intro line hline
    obtain ⟨found, hfound, hline⟩ := List.mem_flatMap.mp hline
    obtain ⟨status, hstatus, rfl⟩ := List.mem_map.mp hline
    have htexts := hplain.status hfound
    refine Line.legible_of_magnitude ((legible_requestLabels_iff requests_header.1 (by decide)).mpr ?_)
      (Double.isMagnitude_ofNat status.2)
    simp only [List.forall_mem_cons, List.not_mem_nil, false_imp_iff, implies_true, and_true]
    exact ⟨hplain.active _ List.mem_cons_self, htexts _ List.mem_cons_self,
      htexts _ (List.mem_cons_of_mem _ (List.mem_map_of_mem hstatus)), hplain.versionOf found.1⟩
  distinct := by
    simp only [MetricsRegistry.requestsBlock]
    rw [List.pairwise_flatMap]
    -- the lines of a model differ in their statuses
    constructor
    · intro found _
      rw [List.pairwise_map]
      refine Std.TreeMap.distinct_keys_toList.imp fun hkeys halike => hkeys ?_
      rw [(requestLabels_inj halike.2).2]
      exact Std.ReflCmp.compare_self
    · refine Std.TreeMap.distinct_keys_toList.imp ?_
      intro found other hkeys line hline behind hbehind halike
      obtain ⟨status, -, rfl⟩ := List.mem_map.mp hline
      obtain ⟨status, -, rfl⟩ := List.mem_map.mp hbehind
      apply hkeys
      rw [(requestLabels_inj halike.2).1]
      exact Std.ReflCmp.compare_self

/-- The blocks of the histograms are sound. -/
theorem Plain.familyBlock (hplain : registry.Plain) {requests : List InferRecord} (hfew : requests.length < 2 ^ 53)
    (family : Family) : (registry.familyBlock requests family).Sound where
  headers := by
    simp only [MetricsRegistry.familyBlock]
    cases family <;> decide +kernel
  named := by
    intro line hline
    obtain ⟨row, hrow, rfl⟩ := List.mem_map.mp hline
    exact List.mem_map_of_mem (Family.key_mem hrow)
  legible := by
    intro line hline
    obtain ⟨row, hrow, rfl⟩ := List.mem_map.mp hline
    exact Family.legible_rows hplain.active ((length_numbers_le family requests).trans_lt hfew) row hrow
  distinct := family.rows_distinct _

theorem memoryBlock_sound (memory_bytes : Nat) : (memoryBlock memory_bytes).Sound where
  headers := memory_header.2
  named := by
    rw [memoryBlock, List.forall_mem_singleton]
    exact List.mem_singleton_self _
  legible := by
    rw [memoryBlock, List.forall_mem_singleton]
    refine Line.legible_of_magnitude ⟨memory_header.1, ?_, ?_, ?_, fun _ => rfl⟩
      (Double.isMagnitude_ofNat memory_bytes) <;>
    · rintro label ⟨⟩
  distinct := List.pairwise_singleton _ _

/-- All blocks of the page are sound. -/
theorem Plain.blocks (hplain : registry.Plain) {requests : List InferRecord} (hfew : requests.length < 2 ^ 53)
    (memory_bytes : Nat) : ∀ block ∈ registry.blocks requests memory_bytes, block.Sound := by
  simp only [MetricsRegistry.blocks, List.cons_append, List.mem_cons, List.mem_append, List.mem_map, List.not_mem_nil,
    or_false]
  rintro block (rfl | (((⟨metric, hmetric, rfl⟩ | rfl | ⟨metric, hmetric, rfl⟩) | ⟨family, -, rfl⟩) | rfl))
  · exact hplain.schedulerBlock
  · exact hplain.metricBlock (List.mem_append_left _ hmetric)
  · exact hplain.requestsBlock
  · exact hplain.metricBlock (List.mem_append_right _ hmetric)
  · exact hplain.familyBlock hfew family
  · exact memoryBlock_sound memory_bytes

/-- No metric comes twice. -/
theorem blocks_names (registry : MetricsRegistry) (requests : List InferRecord) (memory_bytes : Nat) :
    ((registry.blocks requests memory_bytes).map Block.names).Pairwise fun names others =>
      ∀ name ∈ names, name ∉ others := by
  have hnames : (registry.blocks requests memory_bytes).map Block.names =
      schedulerMetrics.map (octets ·.name) :: activeMetrics.map (fun metric => [octets metric.name]) ++
        [octets requestsName] :: loadMetrics.map (fun metric => [octets metric.name]) ++
          Family.all.map (·.keys.map Prod.fst) ++ [[octets memoryName]] := rfl
  rw [hnames]
  decide +kernel

end MetricsRegistry

section Told

variable {registry : MetricsRegistry} {requests : List InferRecord} {memory_bytes : Nat}

/-- The lines of the page. -/
def MetricsRegistry.lines (registry : MetricsRegistry) (requests : List InferRecord) (memory_bytes : Nat) : List Line :=
  (registry.blocks requests memory_bytes).flatMap Block.lines

/-- A metric below 2^53 is on the page as a number. -/
theorem metricLine_mem (requests : List InferRecord) (memory_bytes : Nat) {metric : Metric MetricsRegistry}
    (hmetric : metric ∈ activeMetrics ++ loadMetrics) {count : Nat} (hcount : metric.amount registry = .number count)
    (hsmall : count < 2 ^ 53) :
    { name := octets metric.name
      labels := modelLabel registry.deployment_ registry.active_model_name_ registry.model_version_
      value := decimalText count } ∈ registry.lines requests memory_bytes := by
  refine List.mem_flatMap.mpr ⟨registry.metricBlock metric, ?_, ?_⟩
  · simp only [MetricsRegistry.blocks, List.cons_append, List.mem_cons, List.mem_append, List.mem_map]
    obtain hactive | hload := List.mem_append.mp hmetric
    · exact .inr (.inl (.inl (.inl ⟨metric, hactive, rfl⟩)))
    · exact .inr (.inl (.inl (.inr (.inr ⟨metric, hload, rfl⟩))))
  · rw [MetricsRegistry.metricBlock, List.mem_singleton, hcount, Amount.value, valueText_ofNat hsmall]

/-- Each row of a family is on the page. -/
theorem familyLine_mem (family : Family) {row : Row} (hrow : row ∈ family.rows (family.numbers requests)) :
    row.line registry.deployment_ registry.active_model_name_ registry.model_version_ ∈
      registry.lines requests memory_bytes := by
  refine List.mem_flatMap.mpr ⟨registry.familyBlock requests family, ?_, List.mem_map_of_mem hrow⟩
  simp only [MetricsRegistry.blocks, List.cons_append, List.mem_cons, List.mem_append, List.mem_map]
  exact .inr (.inl (.inr ⟨family, family.mem_all, rfl⟩))

/-- What is counted under two keys stands in both maps. -/
theorem exists_of_getD_pos {maps : TextMap (TextMap Nat)} {model key : List UInt8}
    (hsome : 0 < (maps.getD model {}).getD key 0) :
    ∃ counts, (model, counts) ∈ maps.toList ∧ (key, (maps.getD model {}).getD key 0) ∈ counts.toList := by
  have hmaps : maps.getD model {} = maps[model]?.getD {} := Std.TreeMap.getD_eq_getD_getElem?
  cases hfound : maps[model]? with
  | none =>
    rw [hmaps, hfound] at hsome
    exact absurd hsome (Nat.lt_irrefl 0)
  | some counts =>
    have hcounts : counts.getD key 0 = counts[key]?.getD 0 := Std.TreeMap.getD_eq_getD_getElem?
    rw [hfound, Option.getD_some] at hmaps
    rw [hmaps, hcounts] at hsome ⊢
    cases hkey : counts[key]? with
    | none =>
      rw [hkey] at hsome
      exact absurd hsome (Nat.lt_irrefl 0)
    | some count =>
      exact ⟨counts, Std.TreeMap.mem_toList_iff_getElem?_eq_some.mpr hfound,
        Std.TreeMap.mem_toList_iff_getElem?_eq_some.mpr hkey⟩

/-- The counts of the requests that ended with a status. -/
theorem MetricsRegistry.Tallies.statusLine_mem {model : List UInt8} {recorded : List InferRecord}
    (htallies : registry.Tallies model recorded) (hfew : recorded.length < 2 ^ 53) {status : Int}
    (hsome : 0 < recorded.countP fun request => request.status_code = status) :
    { name := octets requestsName
      labels := requestLabels registry.deployment_ model (registry.versionOf model) (statusText status)
      value := decimalText (recorded.countP fun request => request.status_code = status) } ∈
        registry.lines requests memory_bytes := by
  have hsmall : (recorded.countP fun request => request.status_code = status) < 2 ^ 53 :=
    List.countP_le_length.trans_lt hfew
  rw [← htallies.status status] at hsome hsmall ⊢
  obtain ⟨counts, hmodel, hstatus⟩ := exists_of_getD_pos hsome
  refine List.mem_flatMap.mpr ⟨registry.requestsBlock, by simp [MetricsRegistry.blocks], ?_⟩
  refine List.mem_flatMap.mpr ⟨_, hmodel, List.mem_map.mpr ⟨_, hstatus, ?_⟩⟩
  rw [MetricsRegistry.statusLine, valueText_ofNat hsmall]

end Told

/-- The page whose labels need no escape is read back line by line, no series twice. Whatever was called before, it
tells how many requests of each model ended with each status, how many of the active model's succeeded and failed,
and under each bound how many of them took at most that long. -/
theorem metrics_read_back (updates : List Update) (memory_bytes : Nat) (hfew : updates.length < 2 ^ 53)
    (hplain : (registryAfter updates).Plain) :
    let registry := registryAfter updates
    let requests := requestsOf updates registry.active_model_name_
    let lines := registry.lines requests memory_bytes
    readPage (registry.renderMetrics memory_bytes) = some (lines.map Line.sample) ∧
      (∀ model status, 0 < (requestsOf updates model).countP (fun request => request.status_code = status) →
        { name := octets requestsName
          labels := requestLabels registry.deployment_ model (registry.versionOf model) (statusText status)
          value := decimalText ((requestsOf updates model).countP fun request => request.status_code = status) } ∈
            lines) ∧
      (∀ told ∈ [(requestsTotal, requests.length),
          (requestsSuccess, requests.countP fun request => isSuccessStatus request.status_code),
          (requestsFailure, requests.countP fun request => !isSuccessStatus request.status_code),
          (backendErrors, requests.countP fun request => request.status_code = (500 : Int))],
        { name := octets told.1.name
          labels := modelLabel registry.deployment_ registry.active_model_name_ registry.model_version_
          value := decimalText told.2 } ∈ lines) ∧
      ∀ family, ∀ row ∈ Family.rows family (family.numbers requests),
        row.line registry.deployment_ registry.active_model_name_ registry.model_version_ ∈ lines := by
  intro registry requests lines
  have hrecorded (model : List UInt8) := (length_requestsOf_le updates model).trans_lt hfew
  obtain ⟨htallies, hobserves⟩ := registryAfter_tells updates registry.active_model_name_
  have hcounted {ends : InferRecord → Bool} : requests.countP ends < 2 ^ 53 :=
    List.countP_le_length.trans_lt (hrecorded registry.active_model_name_)
  refine ⟨?_, ?_, ?_, ?_⟩
  · rw [MetricsRegistry.renderMetrics_eq rfl hobserves hfew memory_bytes]
    exact readPage_blocks (hplain.blocks (hrecorded _) memory_bytes) (registry.blocks_names requests memory_bytes)
  · intro model status hsome
    exact (registryAfter_tells updates model).1.statusLine_mem (hrecorded model) hsome
  · simp only [List.forall_mem_cons, List.not_mem_nil, false_imp_iff, implies_true, and_true]
    refine ⟨?_, ?_, ?_, ?_⟩
    · exact metricLine_mem requests memory_bytes (by simp [activeMetrics]) (congrArg Amount.number htallies.total)
        (hrecorded _)
    · exact metricLine_mem requests memory_bytes (by simp [activeMetrics]) (congrArg Amount.number htallies.success)
        hcounted
    · exact metricLine_mem requests memory_bytes (by simp [activeMetrics]) (congrArg Amount.number htallies.failure)
        hcounted
    · exact metricLine_mem requests memory_bytes (by simp [loadMetrics]) (congrArg Amount.number htallies.backend)
        hcounted
  · exact fun family row hrow => familyLine_mem family hrow

/-- A request that took 3 ms, in a batch of two. -/
def servedRequest : InferRecord where
  model := octets "resnet"
  method := octets "HTTP"
  status_code := 200
  queue_latency_ns := 1000000
  infer_latency_ns := 2000000
  total_latency_ns := 3000000
  batch_size := 2

def servedUpdates : List Update := [.modelVersion (octets "2"), .inferRequest servedRequest]

/-- A page after one served request. -/
theorem metrics_read_back_served :
    let registry := registryAfter servedUpdates
    let lines := registry.lines (requestsOf servedUpdates registry.active_model_name_) 4096
    readPage (registry.renderMetrics 4096) = some (lines.map Line.sample) ∧
      { name := octets requestsName
        labels := requestLabels [] (octets "resnet") (octets "2") (octets "200")
        value := octets "1" } ∈ lines := by
  have hread := metrics_read_back servedUpdates 4096 (by decide) (by decide +kernel)
  exact ⟨hread.1, hread.2.1 (octets "resnet") 200 (by decide)⟩

end neuriplo.metrics
