import Mathlib.Data.List.Basic
import NeuriploRuntime.Metrics.Lines
import NeuriploRuntime.Numeral.Rounding

namespace neuriplo.metrics

open numeral

structure Histogram where
  buckets : List Double := []
  counts : List Nat := []
  sum : Double := Double.zero
  count : Nat := 0
deriving DecidableEq, Repr

def Histogram.ofBuckets (buckets : List Double) : Histogram :=
  { buckets, counts := List.replicate (buckets.length + 1) 0 }

/-- One round of the loop over the buckets. -/
def countBelow (value : Double) (counts : List Nat) (bucket : Double × Nat) : List Nat :=
  if value.le bucket.1 then counts.modify bucket.2 (· + 1) else counts

def Histogram.observe (hist : Histogram) (value : Double) : Histogram :=
  let counts := hist.buckets.zipIdx.foldl (countBelow value) hist.counts
  { hist with
    sum := hist.sum.add value
    count := hist.count + 1
    counts := counts.modify (counts.length - 1) (· + 1) }

/-- A number divided by a billion. -/
def seconds (ns : Nat) : Double := (Double.ofNat ns).quotient (.ofNat 1000000000)

def nsToSeconds (ns : UInt64) : Double := seconds ns.toNat

/-- Decimal literals. -/
def literals (quotients : List (Nat × Nat)) : List Double :=
  quotients.map fun (numerator, denominator) => .ofQuotient numerator denominator

def latencyBuckets : List Double :=
  literals [(1, 1000), (2, 1000), (5, 1000), (1, 100), (25, 1000), (5, 100), (1, 10), (25, 100), (5, 10), (1, 1),
    (25, 10), (5, 1), (10, 1)]

def batchSizeBuckets : List Double := literals [(1, 1), (2, 1), (4, 1), (8, 1), (16, 1), (32, 1), (64, 1)]

/-- The histogram counts some values: under each bucket those up to it, and behind the last all. -/
structure Histogram.Counts (hist : Histogram) (buckets values : List Double) : Prop where
  bounds : hist.buckets = buckets
  counts : hist.counts = buckets.map (fun bucket => values.countP (·.le bucket)) ++ [values.length]
  sum : hist.sum = values.foldl Double.add .zero
  count : hist.count = values.length

theorem modify_length (front : List Nat) (value : Nat) (rest : List Nat) (f : Nat → Nat) :
    (front ++ value :: rest).modify front.length f = front ++ f value :: rest := by
  have hlt : front.length < (front ++ value :: rest).length := by simp
  rw [List.modify_eq_take_cons_drop hlt]
  simp

/-- The loop raises the counts of the buckets that the value is not above. -/
theorem foldl_countBelow (value : Double) (buckets : List Double) (below : Double → Nat) (front rest : List Nat) :
    (buckets.zipIdx front.length).foldl (countBelow value) (front ++ (buckets.map below ++ rest)) =
      front ++ (buckets.map (fun bucket => below bucket + if value.le bucket then 1 else 0) ++ rest) := by
  induction buckets generalizing front with
  | nil => rfl
  | cons bucket buckets ih =>
    have hround : countBelow value (front ++ (below bucket :: (buckets.map below ++ rest))) (bucket, front.length) =
        front ++ ((below bucket + if value.le bucket then 1 else 0) :: (buckets.map below ++ rest)) := by
      unfold countBelow
      split
      · exact modify_length front _ _ _
      · rfl
    have hrest := ih (front ++ [below bucket + if value.le bucket then 1 else 0])
    rw [List.length_append, List.length_singleton, List.append_assoc, List.singleton_append, List.append_assoc,
      List.singleton_append] at hrest
    rw [List.zipIdx_cons, List.foldl_cons, List.map_cons, List.map_cons, List.cons_append, List.cons_append, hround,
      hrest]

/-- An empty histogram has counted nothing. -/
theorem Histogram.counts_ofBuckets (buckets : List Double) : (ofBuckets buckets).Counts buckets [] where
  bounds := rfl
  counts := by
    simp only [ofBuckets, List.countP_nil, List.map_const', List.length_nil]
    exact List.replicate_succ'
  sum := rfl
  count := rfl

/-- An observation is counted in each bucket that it fits. -/
theorem Histogram.Counts.observe {hist : Histogram} {buckets values : List Double}
    (hcounts : hist.Counts buckets values) (value : Double) : (hist.observe value).Counts buckets (values ++ [value]) := by
  have hlast (front : List Nat) (count : Nat) :
      (front ++ [count]).modify ((front ++ [count]).length - 1) (· + 1) = front ++ [count + 1] := by
    rw [List.length_append, List.length_singleton, Nat.add_sub_cancel]
    exact modify_length front count [] (· + 1)
  have hloop := foldl_countBelow value buckets (fun bucket => values.countP (·.le bucket)) [] [values.length]
  simp only [List.length_nil, List.nil_append] at hloop
  constructor
  · exact hcounts.bounds
  · simp only [Histogram.observe, hcounts.bounds, hcounts.counts, hloop, hlast]
    simp only [List.countP_append, List.countP_singleton, List.length_append, List.length_singleton]
  · simp only [Histogram.observe, hcounts.sum, List.foldl_append, List.foldl_cons, List.foldl_nil]
  · simp only [Histogram.observe, hcounts.count, List.length_append, List.length_singleton]

/-- The latencies that the buckets stand for, in nanoseconds. -/
def latencyBounds : List Nat :=
  [1000000, 2000000, 5000000, 10000000, 25000000, 50000000, 100000000, 250000000, 500000000, 1000000000, 2500000000,
    5000000000, 10000000000]

def batchSizeBounds : List Nat := [1, 2, 4, 8, 16, 32, 64]

/-- A conversion that keeps the order. -/
structure Converts (convert : Nat → Double) : Prop where
  magnitude : ∀ number, (convert number).IsMagnitude
  mono : ∀ number larger, number ≤ larger → (convert number).units ≤ (convert larger).units

/-- Each bucket starts to be exceeded behind its bound. -/
def Meets (convert : Nat → Double) (buckets : List Double) (bounds : List Nat) : Prop :=
  buckets.length = bounds.length ∧ ((buckets.zip bounds).all fun (bucket, bound) =>
    (convert bound).le bucket && !(convert (bound + 1)).le bucket) = true

instance (convert : Nat → Double) (buckets : List Double) (bounds : List Nat) :
    Decidable (Meets convert buckets bounds) := inferInstanceAs (Decidable (_ ∧ _))

/-- Where a bucket lies between two numbers, it holds the numbers up to the
lower one. -/
theorem Converts.le_iff {convert : Nat → Double} (hconverts : Converts convert) {bucket : Double}
    (hbucket : bucket.IsMagnitude) {bound : Nat} (hbound : (convert bound).le bucket = true)
    (habove : (convert (bound + 1)).le bucket = false) (number : Nat) :
    (convert number).le bucket = true ↔ number ≤ bound := by
  rw [(hconverts.magnitude bound).le_iff hbucket] at hbound
  rw [← Bool.not_eq_true, (hconverts.magnitude (bound + 1)).le_iff hbucket] at habove
  rw [(hconverts.magnitude number).le_iff hbucket]
  constructor
  · intro hle
    by_contra hnot
    have hlarger := hconverts.mono (bound + 1) number (by omega)
    omega
  · intro hle
    exact (hconverts.mono number bound hle).trans hbound

/-- What buckets count of converted numbers is what their bounds count of the numbers. -/
theorem Converts.countP_map {convert : Nat → Double} (hconverts : Converts convert) {quotients : List (Nat × Nat)}
    {bounds : List Nat} (hmeets : Meets convert (literals quotients) bounds) (numbers : List Nat) :
    (literals quotients).map (fun bucket => (numbers.map convert).countP (·.le bucket)) =
      bounds.map fun bound => numbers.countP (· ≤ bound) := by
  obtain ⟨hlength, hexact⟩ := hmeets
  rw [List.all_eq_true] at hexact
  have hbuckets {Count : Type} (f : Double → Count) :
      (literals quotients).map f = ((literals quotients).zip bounds).map (f ∘ Prod.fst) := by
    rw [← List.map_map, List.map_fst_zip hlength.le]
  have hbounds {Count : Type} (f : Nat → Count) :
      bounds.map f = ((literals quotients).zip bounds).map (f ∘ Prod.snd) := by
    rw [← List.map_map, List.map_snd_zip hlength.ge]
  rw [hbuckets, hbounds]
  apply List.map_congr_left
  rintro ⟨bucket, bound⟩ hmem
  have hends := hexact _ hmem
  rw [Bool.and_eq_true, Bool.not_eq_true'] at hends
  obtain ⟨⟨numerator, denominator⟩, -, rfl⟩ := List.mem_map.mp (List.of_mem_zip hmem).1
  simp only [Function.comp_apply, List.countP_map]
  apply List.countP_congr
  intro number _
  rw [Function.comp_apply, decide_eq_true_eq]
  exact hconverts.le_iff (Double.isMagnitude_ofUnits _) hends.1 hends.2 number

/-- Batch sizes are converted in order. -/
theorem converts_ofNat : Converts Double.ofNat where
  magnitude _ := Double.isMagnitude_ofUnits _
  mono _ _ hle := Double.ofQuotient_mono Nat.one_pos hle

/-- Latencies are converted in order. -/
theorem converts_seconds : Converts seconds where
  magnitude _ := Double.isMagnitude_ofUnits _
  mono number larger hle := by
    have hdivisor : 0 < (Double.ofNat 1000000000).units := by decide +kernel
    exact Double.ofQuotient_mono hdivisor (converts_ofNat.mono number larger hle)

/-- Neither the conversion nor the division nor the literals move a latency across a bucket. -/
theorem latencyBuckets_meet : Meets seconds latencyBuckets latencyBounds := by decide +kernel

/-- The buckets of the batch sizes lie at the sizes they are named after. -/
theorem batchSizeBuckets_meet : Meets Double.ofNat batchSizeBuckets batchSizeBounds := by decide +kernel

/-- The histogram counts some numbers under bounds. -/
structure Histogram.Tells (hist : Histogram) (bounds numbers : List Nat) : Prop where
  counts : hist.counts = (bounds.map fun bound => numbers.countP (· ≤ bound)) ++ [numbers.length]
  count : hist.count = numbers.length

/-- A histogram that counts tells how many numbers are within each bound. -/
theorem Histogram.Counts.tells {hist : Histogram} {convert : Nat → Double} (hconverts : Converts convert)
    {quotients : List (Nat × Nat)} {bounds numbers : List Nat} (hmeets : Meets convert (literals quotients) bounds)
    (hcounts : hist.Counts (literals quotients) (numbers.map convert)) : hist.Tells bounds numbers := by
  constructor
  · rw [hcounts.counts, hconverts.countP_map hmeets, List.length_map]
  · rw [hcounts.count, List.length_map]

end neuriplo.metrics
