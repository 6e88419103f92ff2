import NeuriploRuntime.Exposition.Page
import NeuriploRuntime.Metrics.Recording

namespace neuriplo.metrics

open numeral exposition stream

/-- A line of a page, with the text of its value. -/
structure Line where
  name : List UInt8
  labels : LabelMap
  value : List UInt8

def Line.entry (line : Line) : Entry := .sample line.name line.labels.entries line.value

def Line.sample (line : Line) : Sample :=
  { name := line.name, labels := line.labels.entries, value := line.value, timestamp := [] }

/-- Two lines of one series. -/
def Line.Alike (line other : Line) : Prop := line.name = other.name ∧ line.labels = other.labels

/-- A line that is read as it is written. -/
structure Line.Legible (line : Line) : Prop where
  labels : metrics.Legible line.name line.labels .zero
  value : ∃ value : Double, value.IsMagnitude ∧ line.value = valueText value

/-- A line with legible labels and a magnitude is legible. -/
theorem Line.legible_of_magnitude {name : List UInt8} {labels : LabelMap} {value : Double}
    (hlabels : metrics.Legible name labels .zero) (hvalue : value.IsMagnitude) :
    Line.Legible { name, labels, value := valueText value } := ⟨hlabels, value, hvalue, rfl⟩

/-- A legible line is a legible entry of the page. -/
theorem Line.Legible.entry {line : Line} (hlegible : line.Legible) : line.entry.Legible := by
  obtain ⟨hlabels, value, hvalue, htext⟩ := hlegible
  obtain ⟨hname, hlabels, -⟩ := legible_iff.mp hlabels
  refine ⟨hname, ?_, hlabels, line.labels.nodup, ?_⟩
  · rw [htext]
    exact isValue_valueText value
  · rw [htext, isFloat_valueText_iff]
    exact fun _ => hvalue.1

/-- The two comments before a metric. -/
def appendHeader (out : List UInt8) (name help kind : String) : List UInt8 :=
  let out := out ++ octets ("# HELP " ++ name ++ " " ++ help ++ "\n")
  out ++ octets ("# TYPE " ++ name ++ " " ++ kind ++ "\n")

def headerEntries (name help kind : String) : List Entry :=
  [.comment (octets (" HELP " ++ name ++ " " ++ help)), .comment (octets (" TYPE " ++ name ++ " " ++ kind))]

theorem literal_append (text other : String) : octets (text ++ other) = octets text ++ octets other := by
  simp [octets, String.toByteArray_append, ByteArray.data_append]

/-- A header is its two comments. -/
theorem appendHeader_eq (out : List UInt8) (name help kind : String) :
    appendHeader out name help kind = out ++ (headerEntries name help kind).flatMap (·.raw) := by
  have hhelp : octets "# HELP " = hash :: octets " HELP " := by decide
  have htype : octets "# TYPE " = hash :: octets " TYPE " := by decide
  have hend : octets "\n" = [newline] := by decide
  simp only [appendHeader, headerEntries, literal_append, hhelp, htype, hend, List.flatMap_cons, List.flatMap_nil,
    Entry.raw, List.append_assoc, List.cons_append, List.append_nil, List.nil_append]

/-- The labels are sorted, so their order says nothing. -/
theorem LabelMap.eq_of_perm {labels others : LabelMap} (hperm : labels.entries.Perm others.entries) :
    labels = others := by
  obtain ⟨entries, hsorted⟩ := labels
  obtain ⟨others, hothers⟩ := others
  rw [List.pairwise_map] at hsorted hothers
  obtain rfl : entries = others := by
    refine hperm.eq_of_pairwise ?_ hsorted hothers
    exact fun label other _ _ hless hgreater => absurd hgreater (List.lt_asymm hless)
  rfl

/-- Lines about one series are alike. -/
theorem Line.alike_of_sameSeries {line other : Line} (hsame : line.sample.SameSeries other.sample) :
    line.Alike other := ⟨hsame.1, LabelMap.eq_of_perm hsame.2⟩

/-- The labels of a bucket: its bound beside those of the model. -/
def bucketLabels (deployment_ model version le : List UInt8) : LabelMap where
  entries := deploymentLabel deployment_ ++
    [{ name := octets "le", value := le }, { name := octets "model", value := model },
      { name := octets "version", value := version }]
  sorted := by
    unfold deploymentLabel
    split <;> simp only [List.map_append, List.map_cons, List.map_nil] <;> decide

/-- The text of a bucket, at the precision that streams start with. -/
def bucketText (bucket : Double) : List UInt8 := (bucket.generalText 6).map Char.toUInt8

def appendHistogram (out name deployment_ model version : List UInt8) (hist : Histogram) : List UInt8 :=
  let out := (hist.buckets.zip hist.counts).foldl (fun out bucket =>
    appendLine out (name ++ octets "_bucket") (bucketLabels deployment_ model version (bucketText bucket.1))
      (.ofNat bucket.2)) out
  let out := appendLine out (name ++ octets "_bucket") (bucketLabels deployment_ model version (octets "+Inf"))
    (.ofNat (hist.counts.getLastD 0))
  let out := appendLine out (name ++ octets "_sum") (modelLabel deployment_ model version) hist.sum
  appendLine out (name ++ octets "_count") (modelLabel deployment_ model version) (.ofNat hist.count)

/-- The four histograms. -/
inductive Family where
  | queueLatency
  | inferLatency
  | totalLatency
  | batchSize

def Family.all : List Family := [.queueLatency, .inferLatency, .totalLatency, .batchSize]

def Family.name : Family → String
  | .queueLatency => "neuriplo_scheduler_queue_latency_seconds"
  | .inferLatency => "neuriplo_scheduler_infer_latency_seconds"
  | .totalLatency => "neuriplo_scheduler_total_latency_seconds"
  | .batchSize => "neuriplo_scheduler_batch_size"

def Family.help : Family → String
  | .queueLatency => "Distribution of queue wait times"
  | .inferLatency => "Distribution of execution latencies"
  | .totalLatency => "Distribution of total end-to-end latencies"
  | .batchSize => "Distribution of formed batch sizes"

def Family.buckets : Family → List Double
  | .batchSize => batchSizeBuckets
  | _ => latencyBuckets

def Family.histograms : Family → MetricsRegistry → TextMap Histogram
  | .queueLatency => (·.queue_latency_histograms_)
  | .inferLatency => (·.infer_latency_histograms_)
  | .totalLatency => (·.total_latency_histograms_)
  | .batchSize => (·.batch_size_histograms_)

/-- The histogram of the active model, or an empty one. -/
def MetricsRegistry.shown (registry : MetricsRegistry) (family : Family) : Histogram :=
  (family.histograms registry)[registry.active_model_name_]?.getD (.ofBuckets family.buckets)

def MetricsRegistry.appendFamily (registry : MetricsRegistry) (out : List UInt8) (family : Family) : List UInt8 :=
  let out := appendHeader out family.name family.help "histogram"
  appendHistogram out (octets family.name) registry.deployment_ registry.active_model_name_ registry.model_version_
    (registry.shown family)

/-- The decimal digits of a number. -/
def decimalText (number : Nat) : List UInt8 := (Nat.toDigits 10 number).map Char.toUInt8

/-- A line of a histogram, with the bound of its bucket if it has one. -/
structure Row where
  name : List UInt8
  le : Option (List UInt8)
  value : List UInt8

def Row.labels (deployment_ model version : List UInt8) : Option (List UInt8) → LabelMap
  | some le => bucketLabels deployment_ model version le
  | none => modelLabel deployment_ model version

/-- Where a row stands in the page. -/
def Row.key (row : Row) : List UInt8 × Option (List UInt8) := (row.name, row.le)

/-- The bounds as the page names them, for whole latencies in nanoseconds. -/
def Family.bounds : Family → List (String × Nat)
  | .batchSize => ["1", "2", "4", "8", "16", "32", "64"].zip batchSizeBounds
  | _ =>
    ["0.001", "0.002", "0.005", "0.01", "0.025", "0.05", "0.1", "0.25", "0.5", "1", "2.5", "5", "10"].zip latencyBounds

/-- What a histogram is about: the nanoseconds of each request, or the sizes of the batches. -/
def Family.numbers : Family → List InferRecord → List Nat
  | .queueLatency, requests => requests.map (·.queue_latency_ns.toNat)
  | .inferLatency, requests => requests.map (·.infer_latency_ns.toNat)
  | .totalLatency, requests => requests.map (·.total_latency_ns.toNat)
  | .batchSize, requests => (requests.filter fun request => 0 < request.batch_size).map (·.batch_size.toNat)

def Family.convert : Family → Nat → Double
  | .batchSize => .ofNat
  | _ => seconds

def Family.sum (family : Family) (numbers : List Nat) : Double := (numbers.map family.convert).foldl Double.add .zero

/-- Under each bound how many numbers are at most that large, then all of them and their sum. -/
def Family.rows (family : Family) (numbers : List Nat) : List Row :=
  (family.bounds.map fun (le, bound) =>
      { name := octets family.name ++ octets "_bucket", le := some (octets le),
        value := decimalText (numbers.countP (· ≤ bound)) }) ++
    [{ name := octets family.name ++ octets "_bucket", le := some (octets "+Inf"),
        value := decimalText numbers.length },
      { name := octets family.name ++ octets "_sum", le := none, value := valueText (family.sum numbers) },
      { name := octets family.name ++ octets "_count", le := none, value := decimalText numbers.length }]

def Family.keys (family : Family) : List (List UInt8 × Option (List UInt8)) :=
  (family.bounds.map fun (le, _) => (octets family.name ++ octets "_bucket", some (octets le))) ++
    [(octets family.name ++ octets "_bucket", some (octets "+Inf")), (octets family.name ++ octets "_sum", none),
      (octets family.name ++ octets "_count", none)]

theorem Family.mem_all (family : Family) : family ∈ Family.all := by cases family <;> simp [Family.all]

/-- The rows of a family have its keys, in order. -/
theorem Family.rows_keys (family : Family) (numbers : List Nat) :
    (family.rows numbers).map Row.key = family.keys := by
  simp only [rows, keys, List.map_append, List.map_map, List.map_cons, List.map_nil]
  rfl

/-- No two lines of a histogram are about the same. -/
theorem keys_nodup (family : Family) : family.keys.Nodup := by cases family <;> decide +kernel

/-- The keys of the families are legible. -/
theorem keys_legible : ∀ key ∈ Family.all.flatMap Family.keys, isName isMetricStart isMetricByte key.1 = true ∧
    ∀ le ∈ key.2, IsPlain le ∧ IsUtf8 le := by decide +kernel

/-- The bounds stand in the page as they are read. -/
theorem Family.buckets_bounds (family : Family) :
    family.buckets.map bucketText = family.bounds.map (octets ·.1) := by
  cases family <;> decide +kernel

/-- A count below 2^53 is printed in decimals. -/
theorem valueText_ofNat {number : Nat} (hsmall : number < 2 ^ 53) : valueText (.ofNat number) = decimalText number := by
  have hzeros : ((Nat.toDigits 10 0).leftpad 6 '0').rdropWhile (· = '0') = [] := by decide
  rw [valueText, Double.fixedText_ofNat hsmall, trimZeros, rdropWhile_point, hzeros]
  simp [decimalText]

theorem Observed.counts {found : Option Histogram} {buckets values : List Double}
    (hobserved : Observed found buckets values) : (found.getD (.ofBuckets buckets)).Counts buckets values := by
  cases found with
  | none =>
    obtain rfl : values = [] := hobserved
    exact Histogram.counts_ofBuckets buckets
  | some hist => exact hobserved.1

/-- Each family of histograms has observed the model's requests. -/
theorem MetricsRegistry.Observes.family {registry : MetricsRegistry} {model : List UInt8} {requests : List InferRecord}
    (hobserves : registry.Observes model requests) (family : Family) :
    Observed (family.histograms registry)[model]? family.buckets ((family.numbers requests).map family.convert) := by
  cases family with
  | queueLatency =>
    rw [Family.numbers, List.map_map]
    exact hobserves.queue
  | inferLatency =>
    rw [Family.numbers, List.map_map]
    exact hobserves.infer
  | totalLatency =>
    rw [Family.numbers, List.map_map]
    exact hobserves.totalLatency
  | batchSize =>
    rw [Family.numbers, List.map_map]
    exact hobserves.batch

theorem Family.converts (family : Family) : Converts family.convert := by
  cases family with
  | batchSize => exact converts_ofNat
  | _ => exact converts_seconds

/-- A family's histogram tells how many requests are within each of its bounds. -/
theorem Family.tells (family : Family) {hist : Histogram} {numbers : List Nat}
    (hcounts : hist.Counts family.buckets (numbers.map family.convert)) :
    hist.Tells (family.bounds.map (·.2)) numbers := by
  cases family with
  | batchSize => exact hcounts.tells converts_ofNat batchSizeBuckets_meet
  | _ => exact hcounts.tells converts_seconds latencyBuckets_meet

theorem Family.isMagnitude_sum (family : Family) (numbers : List Nat) : (family.sum numbers).IsMagnitude := by
  suffices hfrom : ∀ start : Double, start.IsMagnitude →
      ((numbers.map family.convert).foldl Double.add start).IsMagnitude from hfrom .zero Double.isMagnitude_zero
  induction numbers with
  | nil => exact fun start hstart => hstart
  | cons number numbers ih =>
    intro start hstart
    exact ih _ (hstart.add (family.converts.magnitude number))

section Text

variable {deployment_ model version : List UInt8} {numbers : List Nat} {hist : Histogram} {family : Family}

def Row.line (deployment_ model version : List UInt8) (row : Row) : Line :=
  { name := row.name, labels := Row.labels deployment_ model version row.le, value := row.value }

/-- Appending item by item appends their texts. -/
theorem foldl_of_append {Item : Type} {f : List UInt8 → Item → List UInt8} {g : Item → List UInt8}
    (happend : ∀ out item, f out item = out ++ g item) (out : List UInt8) (items : List Item) :
    items.foldl f out = out ++ items.flatMap g := by
  induction items generalizing out with
  | nil => rw [List.flatMap_nil, List.append_nil, List.foldl_nil]
  | cons item items ih => rw [List.foldl_cons, happend, ih, List.append_assoc, List.flatMap_cons]

/-- The lines of the buckets, the last of their counts apart. -/
theorem Family.bucketLines (hcounts : hist.Counts family.buckets (numbers.map family.convert)) :
    (hist.buckets.zip hist.counts).map (Prod.map bucketText id) =
      family.bounds.map fun (le, bound) => (octets le, numbers.countP (· ≤ bound)) := by
  have hlength : family.buckets.length =
      ((family.bounds.map (·.2)).map fun bound => numbers.countP (· ≤ bound)).length := by
    have hlengths := congrArg List.length family.buckets_bounds
    simpa only [List.length_map] using hlengths
  -- the last count is of all numbers and has no bucket
  rw [hcounts.bounds, (family.tells hcounts).counts, ← List.append_nil family.buckets, List.zip_append hlength,
    List.zip_nil_left, List.append_nil, ← List.zip_map, List.map_id, List.map_map, family.buckets_bounds,
    List.zip_map']
  rfl

/-- Lines of a family are appended one after the other. -/
theorem appendLines_eq (name : List UInt8) (labels : List UInt8 → LabelMap) (lines : List (List UInt8 × Nat))
    (out : List UInt8) :
    lines.foldl (fun out line => appendLine out name (labels line.1) (.ofNat line.2)) out =
      out ++ lines.flatMap fun line => rawSample name (labels line.1).entries (valueText (.ofNat line.2)) := by
  apply foldl_of_append
  intro out line
  exact appendLine_eq out name (labels line.1) (.ofNat line.2)

/-- A histogram is printed as the rows of its family. -/
theorem appendHistogram_eq (hcounts : hist.Counts family.buckets (numbers.map family.convert))
    (hfew : numbers.length < 2 ^ 53) (out : List UInt8) :
    appendHistogram out (octets family.name) deployment_ model version hist =
      out ++ (family.rows numbers).flatMap fun row => (row.line deployment_ model version).entry.raw := by
  have hbuckets := appendLines_eq (octets family.name ++ octets "_bucket") (bucketLabels deployment_ model version)
    ((hist.buckets.zip hist.counts).map (Prod.map bucketText id)) out
  have hlast : hist.counts.getLastD 0 = numbers.length := by
    rw [(family.tells hcounts).counts, List.getLastD_concat]
  have hsum : hist.sum = family.sum numbers := hcounts.sum
  have hnumber {bound : Nat} : valueText (.ofNat (numbers.countP (· ≤ bound))) =
      decimalText (numbers.countP (· ≤ bound)) :=
    valueText_ofNat (List.countP_le_length.trans_lt hfew)
  rw [List.foldl_map, Family.bucketLines hcounts] at hbuckets
  simp only [Prod.map, id] at hbuckets
  simp only [appendHistogram]
  rw [hbuckets]
  simp only [appendLine_eq, hlast, hsum, (family.tells hcounts).count, List.flatMap_map, hnumber,
    valueText_ofNat hfew, Family.rows, List.flatMap_append, List.flatMap_cons, List.flatMap_nil, Row.line, Line.entry,
    Entry.raw, Row.labels, List.append_assoc, List.append_nil]

/-- Rows of one histogram differ in their bucket only. -/
theorem labels_inj {le other : Option (List UInt8)}
    (hsame : Row.labels deployment_ model version le = Row.labels deployment_ model version other) : le = other := by
  have hbehind {labels others : List Label}
      (hentries : deploymentLabel deployment_ ++ labels = deploymentLabel deployment_ ++ others) : labels = others :=
    List.append_cancel_left hentries
  cases le with
  | none =>
    cases other with
    | none => rfl
    | some other => cases hbehind (congrArg LabelMap.entries hsame)
  | some le =>
    cases other with
    | none => cases hbehind (congrArg LabelMap.entries hsame)
    | some other =>
      obtain ⟨hlabel, -⟩ := List.cons.inj (hbehind (congrArg LabelMap.entries hsame))
      rw [(Label.mk.inj hlabel).2]

/-- Rows that are alike have the same key. -/
theorem Row.key_of_alike {row other : Row}
    (halike : (row.line deployment_ model version).Alike (other.line deployment_ model version)) :
    row.key = other.key := Prod.ext halike.1 (labels_inj halike.2)

/-- Plain names make legible labels. -/
theorem Row.legible_labels (hplain : ∀ text ∈ [deployment_, model, version], IsPlain text ∧ IsUtf8 text)
    {name : List UInt8} (hname : isName isMetricStart isMetricByte name = true) {le : Option (List UInt8)}
    (hle : ∀ text ∈ le, IsPlain text ∧ IsUtf8 text) : Legible name (labels deployment_ model version le) .zero := by
  have hzero : Double.zero.IsFinite := by decide
  cases le with
  | none => exact (legible_modelLabel_iff hname hzero).mpr hplain
  | some le =>
    have hentries : (bucketLabels deployment_ model version le).entries = deploymentLabel deployment_ ++
        [{ name := octets "le", value := le }, { name := octets "model", value := model },
          { name := octets "version", value := version }] := rfl
    refine (legible_deploymentLabel_iff hname hzero hentries ?_).mpr ?_
    · simp only [List.forall_mem_cons, List.not_mem_nil, false_imp_iff, implies_true, and_true]
      decide
    · rw [List.forall_mem_cons] at hplain
      exact List.forall_mem_cons.mpr ⟨hplain.1, List.forall_mem_cons.mpr ⟨hle le rfl, hplain.2⟩⟩

/-- The values of the rows are magnitudes. -/
theorem Family.rows_value (hfew : numbers.length < 2 ^ 53) :
    ∀ row ∈ family.rows numbers, ∃ value : Double, value.IsMagnitude ∧ row.value = valueText value := by
  have hcount {count : Nat} (hsmall : count ≤ numbers.length) :
      ∃ value : Double, value.IsMagnitude ∧ decimalText count = valueText value :=
    ⟨.ofNat count, Double.isMagnitude_ofNat count, (valueText_ofNat (hsmall.trans_lt hfew)).symm⟩
  intro row hrow
  obtain hbucket | hrow := List.mem_append.mp hrow
  · obtain ⟨bound, -, rfl⟩ := List.mem_map.mp hbucket
    exact hcount List.countP_le_length
  · simp only [List.mem_cons, List.not_mem_nil, or_false] at hrow
    obtain rfl | rfl | rfl := hrow
    · exact hcount (Nat.le_refl _)
    · exact ⟨_, family.isMagnitude_sum numbers, rfl⟩
    · exact hcount (Nat.le_refl _)

theorem Family.key_mem {row : Row} (hrow : row ∈ family.rows numbers) : row.key ∈ family.keys := by
  rw [← family.rows_keys numbers]
  exact List.mem_map_of_mem hrow

/-- The rows of a family are legible. -/
theorem Family.legible_rows (hplain : ∀ text ∈ [deployment_, model, version], IsPlain text ∧ IsUtf8 text)
    (hfew : numbers.length < 2 ^ 53) : ∀ row ∈ family.rows numbers, (row.line deployment_ model version).Legible := by
  intro row hrow
  obtain ⟨hname, hle⟩ := keys_legible row.key (List.mem_flatMap.mpr ⟨family, family.mem_all, Family.key_mem hrow⟩)
  exact ⟨Row.legible_labels hplain hname hle, Family.rows_value hfew row hrow⟩

/-- No two rows of a family are about one series. -/
theorem Family.rows_distinct (family : Family) (numbers : List Nat) :
    ((family.rows numbers).map (Row.line deployment_ model version)).Pairwise (¬ ·.Alike ·) := by
  have hkeys : ((family.rows numbers).map Row.key).Nodup := by
    rw [family.rows_keys]
    exact keys_nodup family
  rw [List.pairwise_map]
  exact (List.pairwise_map.mp hkeys).imp fun hkey halike => hkey (Row.key_of_alike halike)

/-- A family observes no more numbers than there are requests. -/
theorem length_numbers_le (family : Family) (requests : List InferRecord) :
    (family.numbers requests).length ≤ requests.length := by
  cases family with
  | batchSize =>
    rw [Family.numbers, List.length_map]
    exact List.length_filter_le _ _
  | _ => exact (List.length_map _).le

/-- A model has no more requests than there are updates. -/
theorem length_requestsOf_le (updates : List Update) (model : List UInt8) :
    (requestsOf updates model).length ≤ updates.length :=
  (List.length_filter_le _ _).trans (List.length_filterMap_le _ _)

end Text

end neuriplo.metrics
