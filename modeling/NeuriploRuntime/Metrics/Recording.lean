import NeuriploRuntime.Metrics.Registry

namespace neuriplo.metrics

open numeral stream

section Maps

variable {model other : List UInt8}

/-- An increment adds one under its key only. -/
theorem TextMap.getD_increment (counts : TextMap Nat) (key other : List UInt8) :
    (counts.increment key).getD other 0 = counts.getD other 0 + if key = other then 1 else 0 := by
  unfold increment
  rw [Std.TreeMap.getD_alter]
  by_cases hkey : key = other
  · subst hkey
    simp [Std.TreeMap.getD_eq_getD_getElem?]
  · simp [hkey]

/-- A count in the map of a model. -/
theorem getD_alter_increment (maps : TextMap (TextMap Nat)) (model other key counted : List UInt8) :
    ((maps.alter model fun counts => some ((counts.getD {}).increment key)).getD other {}).getD counted 0 =
      (maps.getD other {}).getD counted 0 + if model = other ∧ key = counted then 1 else 0 := by
  rw [Std.TreeMap.getD_alter]
  by_cases hmodel : model = other
  · subst hmodel
    have hfound : maps.getD model {} = maps[model]?.getD {} := Std.TreeMap.getD_eq_getD_getElem?
    rw [if_pos Std.ReflCmp.compare_self, Option.getD_some, TextMap.getD_increment, hfound]
    simp
  · simp [hmodel]

/-- What is found for a model has counted the values observed for it, if there were any. -/
def Observed (found : Option Histogram) (buckets values : List Double) : Prop :=
  match found with
  | none => values = []
  | some hist => hist.Counts buckets values ∧ values ≠ []

/-- An observation is added to the model's own. -/
theorem observeIn_self {histograms : TextMap Histogram} {buckets values : List Double} (hbuckets : buckets ≠ [])
    (hobserved : Observed histograms[model]? buckets values) (value : Double) :
    Observed (observeIn histograms model buckets value)[model]? buckets (values ++ [value]) := by
  unfold observeIn
  rw [Std.TreeMap.getElem?_alter_self]
  cases hfound : histograms[model]? with
  | none =>
    rw [hfound] at hobserved
    obtain rfl : values = [] := hobserved
    exact ⟨(Histogram.counts_ofBuckets buckets).observe value, by simp⟩
  | some hist =>
    rw [hfound] at hobserved
    obtain ⟨hcounts, -⟩ := hobserved
    have hmade : hist.buckets.isEmpty = false := by
      rw [hcounts.bounds]
      exact List.isEmpty_eq_false_iff.mpr hbuckets
    simp only [Option.getD_some, hmade, Bool.false_eq_true, if_false]
    exact ⟨hcounts.observe value, by simp⟩

/-- An observation leaves the other models alone. -/
theorem observeIn_of_ne (hne : model ≠ other) (histograms : TextMap Histogram) (buckets : List Double)
    (value : Double) : (observeIn histograms model buckets value)[other]? = histograms[other]? := by
  unfold observeIn
  rw [Std.TreeMap.getElem?_alter, if_neg]
  exact fun hsame => hne (Std.LawfulEqCmp.eq_of_compare hsame)

end Maps

/-- The counters of a model say how its requests ended. -/
structure MetricsRegistry.Tallies (registry : MetricsRegistry) (model : List UInt8)
    (requests : List InferRecord) : Prop where
  total : registry.requests_total_.getD model 0 = requests.length
  success : registry.requests_success_.getD model 0 = requests.countP fun request => isSuccessStatus request.status_code
  failure : registry.requests_failure_.getD model 0 = requests.countP fun request =>
    !isSuccessStatus request.status_code
  backend : registry.backend_errors_.getD model 0 = requests.countP fun request => request.status_code = (500 : Int)
  status : ∀ status, (registry.requests_by_status_.getD model {}).getD (statusText status) 0 =
    requests.countP fun request => request.status_code = status
  method : ∀ method, (registry.requests_by_method_.getD model {}).getD method 0 =
    requests.countP fun request => request.method = method

theorem toDigits_inj {number other : Nat} (hsame : Nat.toDigits 10 number = Nat.toDigits 10 other) :
    number = other := by
  have hread := congrArg (Nat.ofDigitChars 10 · 0) hsame
  rwa [Nat.ofDigitChars_toDigits (by omega) (by omega), Nat.ofDigitChars_toDigits (by omega) (by omega)] at hread

theorem toDigits_ne_minus (number : Nat) (rest : List Char) : Nat.toDigits 10 number ≠ '-' :: rest := by
  intro hsame
  have hdigit := Nat.isDigit_of_mem_toDigits (b := 10) (n := number) (c := '-') (by omega) (by omega)
    (hsame ▸ List.mem_cons_self)
  cases hdigit

theorem toList_ofNat (number : Nat) : (toString (Int.ofNat number)).toList = Nat.toDigits 10 number :=
  Nat.toList_repr

theorem toList_negSucc (number : Nat) :
    (toString (Int.negSucc number)).toList = '-' :: Nat.toDigits 10 (number + 1) := by
  have htext : toString (Int.negSucc number) = "-" ++ (number + 1).repr := rfl
  rw [htext, String.toList_append, Nat.toList_repr]
  rfl

/-- Statuses are told apart by their texts. -/
theorem statusText_inj {status other : Int} : statusText status = statusText other ↔ status = other := by
  refine ⟨fun hsame => ?_, congrArg statusText⟩
  have htexts := congrArg String.toList (octets_inj.mp hsame)
  cases status with
  | ofNat number =>
    cases other with
    | ofNat other =>
      rw [toList_ofNat, toList_ofNat] at htexts
      rw [toDigits_inj htexts]
    | negSucc other =>
      rw [toList_ofNat, toList_negSucc] at htexts
      exact absurd htexts (toDigits_ne_minus number _)
  | negSucc number =>
    cases other with
    | ofNat other =>
      rw [toList_ofNat, toList_negSucc] at htexts
      exact absurd htexts.symm (toDigits_ne_minus other _)
    | negSucc other =>
      rw [toList_negSucc, toList_negSucc] at htexts
      have hnumbers := toDigits_inj (List.cons.inj htexts).2
      rw [Nat.succ.inj hnumbers]

/-- A recorded request is tallied under its model. -/
theorem MetricsRegistry.Tallies.record {registry : MetricsRegistry} {model : List UInt8} {requests : List InferRecord}
    (htallies : registry.Tallies model requests) (request : InferRecord) :
    (registry.recordInferRequest request).Tallies model
      (requests ++ if request.model = model then [request] else []) := by
  obtain ⟨htotal, hsuccess, hfailure, hbackend, hstatus, hmethod⟩ := htallies
  by_cases hmodel : request.model = model
  · rw [if_pos hmodel]
    constructor
    · simp [recordInferRequest, TextMap.getD_increment, hmodel, htotal]
    · cases hsucceeded : isSuccessStatus request.status_code <;>
        simp [recordInferRequest, TextMap.getD_increment, hmodel, hsuccess, hsucceeded]
    · cases hsucceeded : isSuccessStatus request.status_code <;>
        simp [recordInferRequest, TextMap.getD_increment, hmodel, hfailure, hsucceeded]
    · by_cases hcode : request.status_code = 500 <;>
        simp [recordInferRequest, TextMap.getD_increment, hmodel, hbackend, hcode]
    · intro status
      simp only [recordInferRequest, getD_alter_increment, hmodel, hstatus, statusText_inj, true_and,
        List.countP_append, List.countP_singleton, decide_eq_true_eq]
    · intro method
      simp only [recordInferRequest, getD_alter_increment, hmodel, hmethod, true_and, List.countP_append,
        List.countP_singleton, decide_eq_true_eq]
  · rw [if_neg hmodel, List.append_nil]
    constructor
    · simp [recordInferRequest, TextMap.getD_increment, hmodel, htotal]
    · cases hsucceeded : isSuccessStatus request.status_code <;>
        simp [recordInferRequest, TextMap.getD_increment, hmodel, hsuccess, hsucceeded]
    · cases hsucceeded : isSuccessStatus request.status_code <;>
        simp [recordInferRequest, TextMap.getD_increment, hmodel, hfailure, hsucceeded]
    · by_cases hcode : request.status_code = 500 <;>
        simp [recordInferRequest, TextMap.getD_increment, hmodel, hbackend, hcode]
    · intro status
      simp only [recordInferRequest, getD_alter_increment, hmodel, hstatus, false_and, if_false, Nat.add_zero]
    · intro method
      simp only [recordInferRequest, getD_alter_increment, hmodel, hmethod, false_and, if_false, Nat.add_zero]

/-- The histograms of a model count what its requests took. -/
structure MetricsRegistry.Observes (registry : MetricsRegistry) (model : List UInt8)
    (requests : List InferRecord) : Prop where
  queue : Observed registry.queue_latency_histograms_[model]? latencyBuckets
    (requests.map fun request => nsToSeconds request.queue_latency_ns)
  infer : Observed registry.infer_latency_histograms_[model]? latencyBuckets
    (requests.map fun request => nsToSeconds request.infer_latency_ns)
  totalLatency : Observed registry.total_latency_histograms_[model]? latencyBuckets
    (requests.map fun request => nsToSeconds request.total_latency_ns)
  batch : Observed registry.batch_size_histograms_[model]? batchSizeBuckets
    ((requests.filter fun request => 0 < request.batch_size).map fun request => .ofNat request.batch_size.toNat)

/-- A recorded request is observed under its model. -/
theorem MetricsRegistry.Observes.record {registry : MetricsRegistry} {model : List UInt8} {requests : List InferRecord}
    (hobserves : registry.Observes model requests) (request : InferRecord) :
    (registry.recordInferRequest request).Observes model
      (requests ++ if request.model = model then [request] else []) := by
  obtain ⟨hqueue, hinfer, htotal, hbatch⟩ := hobserves
  have hlatency : latencyBuckets ≠ [] := List.cons_ne_nil _ _
  have hsizes : batchSizeBuckets ≠ [] := List.cons_ne_nil _ _
  by_cases hmodel : request.model = model
  · subst hmodel
    rw [if_pos rfl]
    constructor
    · rw [List.map_append]
      exact observeIn_self hlatency hqueue _
    · rw [List.map_append]
      exact observeIn_self hlatency hinfer _
    · rw [List.map_append]
      exact observeIn_self hlatency htotal _
    · rw [List.filter_append, List.map_append]
      simp only [recordInferRequest]
      split
      · next hsize =>
        rw [List.filter_cons, if_pos (decide_eq_true hsize), List.filter_nil]
        exact observeIn_self hsizes hbatch _
      · next hsize =>
        rw [List.filter_cons, if_neg (mt of_decide_eq_true hsize), List.filter_nil, List.map_nil, List.append_nil]
        exact hbatch
  · rw [if_neg hmodel, List.append_nil]
    constructor
    · simp only [recordInferRequest, observeIn_of_ne hmodel]
      exact hqueue
    · simp only [recordInferRequest, observeIn_of_ne hmodel]
      exact hinfer
    · simp only [recordInferRequest, observeIn_of_ne hmodel]
      exact htotal
    · simp only [recordInferRequest]
      split
      · rw [observeIn_of_ne hmodel]
        exact hbatch
      · exact hbatch

/-- No other call touches what is recorded of requests. -/
theorem MetricsRegistry.update_tells {registry : MetricsRegistry} {model : List UInt8} {requests : List InferRecord}
    (htallies : registry.Tallies model requests) (hobserves : registry.Observes model requests) (update : Update) :
    (registry.update update).Tallies model (requests ++ requestsOf [update] model) ∧
      (registry.update update).Observes model (requests ++ requestsOf [update] model) := by
  cases update with
  | inferRequest request =>
    have hof : requestsOf [.inferRequest request] model = if request.model = model then [request] else [] := by
      simp only [requestsOf, List.filterMap_cons, Update.request?, List.filterMap_nil, List.filter_cons,
        List.filter_nil, decide_eq_true_eq]
    rw [hof]
    exact ⟨htallies.record request, hobserves.record request⟩
  | schedulerMetrics name version snapshot =>
    simp only [MetricsRegistry.update, MetricsRegistry.setSchedulerMetrics]
    rw [requestsOf, List.filterMap_cons_none rfl, List.filterMap_nil, List.filter_nil, List.append_nil]
    split
    · exact ⟨⟨htallies.1, htallies.2, htallies.3, htallies.4, htallies.5, htallies.6⟩,
        ⟨hobserves.1, hobserves.2, hobserves.3, hobserves.4⟩⟩
    · exact ⟨⟨htallies.1, htallies.2, htallies.3, htallies.4, htallies.5, htallies.6⟩,
        ⟨hobserves.1, hobserves.2, hobserves.3, hobserves.4⟩⟩
  | _ =>
    rw [requestsOf, List.filterMap_cons_none rfl, List.filterMap_nil, List.filter_nil, List.append_nil]
    exact ⟨⟨htallies.1, htallies.2, htallies.3, htallies.4, htallies.5, htallies.6⟩,
      ⟨hobserves.1, hobserves.2, hobserves.3, hobserves.4⟩⟩

/-- After any updates the registry tallies and has observed each model's
requests. -/
theorem registryAfter_tells (updates : List Update) (model : List UInt8) :
    (registryAfter updates).Tallies model (requestsOf updates model) ∧
      (registryAfter updates).Observes model (requestsOf updates model) := by
  suffices hfrom : ∀ (updates : List Update) (registry : MetricsRegistry) (requests : List InferRecord),
      registry.Tallies model requests → registry.Observes model requests →
        (updates.foldl MetricsRegistry.update registry).Tallies model (requests ++ requestsOf updates model) ∧
          (updates.foldl MetricsRegistry.update registry).Observes model (requests ++ requestsOf updates model) by
    exact hfrom updates {} [] ⟨rfl, rfl, rfl, rfl, fun _ => rfl, fun _ => rfl⟩ ⟨rfl, rfl, rfl, rfl⟩
  intro updates
  induction updates with
  | nil =>
    intro registry requests htallies hobserves
    rw [requestsOf, List.filterMap_nil, List.filter_nil, List.append_nil]
    exact ⟨htallies, hobserves⟩
  | cons update updates ih =>
    intro registry requests htallies hobserves
    obtain ⟨htallies, hobserves⟩ := registry.update_tells htallies hobserves update
    have hsplit : requestsOf (update :: updates) model = requestsOf [update] model ++ requestsOf updates model := by
      rw [requestsOf, ← List.singleton_append, List.filterMap_append, List.filter_append]
      rfl
    rw [hsplit, ← List.append_assoc]
    exact ih _ _ htallies hobserves

/-- A histogram counts some numbers under bounds, and there is none where there are no numbers. -/
def HistogramTells (found : Option Histogram) (bounds numbers : List Nat) : Prop :=
  match found with
  | none => numbers = []
  | some hist => hist.Tells bounds numbers ∧ numbers ≠ []

/-- What was observed tells how many numbers are within each bound. -/
theorem Observed.tells {found : Option Histogram} {convert : Nat → Double} (hconverts : Converts convert)
    {quotients : List (Nat × Nat)} {bounds numbers : List Nat} (hmeets : Meets convert (literals quotients) bounds)
    (hobserved : Observed found (literals quotients) (numbers.map convert)) : HistogramTells found bounds numbers := by
  cases found with
  | none => exact List.map_eq_nil_iff.mp hobserved
  | some hist =>
    obtain ⟨hcounts, hsome⟩ := hobserved
    exact ⟨hcounts.tells hconverts hmeets, fun hnone => hsome (List.map_eq_nil_iff.mpr hnone)⟩

/-- Whatever was called before, the counters of a model say how its requests ended, and its histograms count them
where their nanoseconds and their batches say: the arithmetic of the buckets moves none across a bound. -/
theorem recorded_requests_told (updates : List Update) (model : List UInt8) :
    let registry := registryAfter updates
    let requests := requestsOf updates model
    registry.Tallies model requests ∧
      HistogramTells registry.queue_latency_histograms_[model]? latencyBounds
        (requests.map (·.queue_latency_ns.toNat)) ∧
      HistogramTells registry.infer_latency_histograms_[model]? latencyBounds
        (requests.map (·.infer_latency_ns.toNat)) ∧
      HistogramTells registry.total_latency_histograms_[model]? latencyBounds
        (requests.map (·.total_latency_ns.toNat)) ∧
      HistogramTells registry.batch_size_histograms_[model]? batchSizeBounds
        ((requests.filter fun request => 0 < request.batch_size).map (·.batch_size.toNat)) := by
  obtain ⟨htallies, hqueue, hinfer, htotal, hbatch⟩ := registryAfter_tells updates model
  refine ⟨htallies, ?_, ?_, ?_, ?_⟩
  · exact Observed.tells converts_seconds latencyBuckets_meet (by rw [List.map_map]; exact hqueue)
  · exact Observed.tells converts_seconds latencyBuckets_meet (by rw [List.map_map]; exact hinfer)
  · exact Observed.tells converts_seconds latencyBuckets_meet (by rw [List.map_map]; exact htotal)
  · exact Observed.tells converts_ofNat batchSizeBuckets_meet (by rw [List.map_map]; exact hbatch)

end neuriplo.metrics
