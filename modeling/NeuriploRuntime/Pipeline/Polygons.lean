import NeuriploRuntime.Loops.Counted
import NeuriploRuntime.Pipeline.PostprocessStep
import NeuriploRuntime.Rows.Boundaries

open numeral neuriplo.tensor rows

namespace neuriplo.pipeline

variable {φ κ : Type*} (float : SingleFloat φ κ)

/-- The rings of polygons that bound an area, each exterior in front of its holes. -/
def boundingRings (polygons : List (Polygon φ)) : List (List (Point2f φ)) :=
  (polygons.flatMap fun polygon => polygon.exterior :: polygon.holes).filter fun ring => 3 ≤ ring.length

/-- The polygons of an entry, of which there are none behind the last detection. -/
def entryPolygons (detections : List (DecodedDetection φ)) (entry : Nat) : List (Polygon φ) :=
  (((detections[entry]?).bind (·.segmentation)).map (·.polygons)).getD []

def entryRings (detections : List (DecodedDetection φ)) (entry : Nat) : List (List (Point2f φ)) :=
  boundingRings (entryPolygons detections entry)

def keptRings (detections : List (DecodedDetection φ)) : List (List (Point2f φ)) :=
  (List.range kPipelineMaxDetections).flatMap (entryRings detections)

def truncated (point : Point2f φ) : Int × Int := ((float.toInt32 point.x).toInt, (float.toInt32 point.y).toInt)

def encodeInt64s (values : List Nat) : List UInt8 := values.flatMap fun value : Nat => WordFormat.encode 8 value

def encodePoint (point : Point2f φ) : List UInt8 :=
  WordFormat.encode 4 (truncated float point).1 ++ WordFormat.encode 4 (truncated float point).2

/-- Tensors with the rings of closed instances and, behind these, of one that is still open. -/
structure Written (instances : List (List (List (Point2f φ)))) (opened : List (List (Point2f φ)))
    (tensors : PolygonTensors) : Prop where
  instance_offsets : tensors.instance_offsets = encodeInt64s (boundaries 0 (instances.map (·.length)))
  ring_offsets : tensors.ring_offsets =
    encodeInt64s (boundaries 0 ((instances.flatten ++ opened).map (·.length)))
  points : tensors.points = (instances.flatten ++ opened).flatten.flatMap (encodePoint float)
  ring_count : tensors.ring_count = (instances.flatten ++ opened).length
  point_count : tensors.point_count = (instances.flatten ++ opened).flatten.length

section Loops

variable {instances : List (List (List (Point2f φ)))} {opened : List (List (Point2f φ))} {tensors : PolygonTensors}

/-- One more number takes eight more bytes. -/
theorem encodeInt64s_concat (values : List Nat) (value : Nat) :
    encodeInt64s (values ++ [value]) = encodeInt64s values ++ WordFormat.encode 8 value := by
  simp [encodeInt64s]

/-- A ring is written behind the rings before it, unless it is too short. -/
theorem Written.appendRing (hwritten : Written float instances opened tensors) (ring : List (Point2f φ)) :
    Written float instances (opened ++ [ring].filter fun ring => 3 ≤ ring.length) (appendRing float tensors ring) := by
  unfold pipeline.appendRing
  by_cases hshort : ring.length < 3
  · rw [if_pos hshort, List.filter_cons_of_neg (by simpa using hshort), List.filter_nil, List.append_nil]
    exact hwritten
  · have hcount : tensors.point_count + ring.length =
        (((instances.flatten ++ opened).map (·.length)).sum + ring.length : Nat) := by
      rw [hwritten.point_count, List.length_flatten]
      push_cast
      rfl
    rw [if_neg hshort, List.filter_cons_of_pos (by simpa using hshort), List.filter_nil]
    constructor
    · exact hwritten.instance_offsets
    · dsimp only
      rw [← List.append_assoc, List.map_append, List.map_singleton, boundaries_concat, encodeInt64s_concat,
        Nat.zero_add, hcount, ← hwritten.ring_offsets]
    · dsimp only
      rw [← List.append_assoc, List.flatten_append, List.flatMap_append, ← hwritten.points, List.flatten_singleton]
      rfl
    · simp [hwritten.ring_count, add_assoc]
    · simp [hwritten.point_count, add_assoc]

/-- Rings are written one behind the other. -/
theorem Written.foldl_appendRing (hwritten : Written float instances opened tensors)
    (rings : List (List (Point2f φ))) :
    Written float instances (opened ++ rings.filter fun ring => 3 ≤ ring.length)
      (rings.foldl (pipeline.appendRing float) tensors) := by
  induction rings generalizing opened tensors with
  | nil => simpa using hwritten
  | cons ring rings ih =>
    have hrest := ih (hwritten.appendRing float ring)
    rwa [List.append_assoc, ← List.filter_append] at hrest

/-- The bounding rings of polygons are written one behind the other. -/
theorem Written.foldl_appendPolygon (hwritten : Written float instances opened tensors)
    (polygons : List (Polygon φ)) :
    Written float instances (opened ++ boundingRings polygons) (polygons.foldl (appendPolygon float) tensors) := by
  induction polygons generalizing opened tensors with
  | nil => simpa [boundingRings] using hwritten
  | cons polygon polygons ih =>
    have hsplit : boundingRings (polygon :: polygons) =
        ((polygon.exterior :: polygon.holes).filter fun ring => 3 ≤ ring.length) ++ boundingRings polygons := by
      rw [boundingRings, List.flatMap_cons, List.filter_append]
      rfl
    rw [hsplit, ← List.append_assoc]
    exact ih (hwritten.foldl_appendRing float (polygon.exterior :: polygon.holes))

/-- An instance is written as its rings, with its end behind them. -/
theorem appendInstance_eq (detections : List (DecodedDetection φ)) (tensors : PolygonTensors) (entry : Nat) :
    appendInstance float detections tensors entry =
      let opened := (entryPolygons detections entry).foldl (appendPolygon float) tensors
      { opened with instance_offsets := opened.instance_offsets ++ WordFormat.encode 8 opened.ring_count } := by
  unfold appendInstance entryPolygons
  cases (detections[entry]?).bind (·.segmentation) <;> rfl

/-- One entry closes an instance. -/
theorem Written.appendInstance {detections : List (DecodedDetection φ)} (hwritten : Written float instances [] tensors)
    (entry : Nat) :
    Written float (instances ++ [entryRings detections entry]) []
      (appendInstance float detections tensors entry) := by
  have hopened : Written float instances (entryRings detections entry)
      ((entryPolygons detections entry).foldl (appendPolygon float) tensors) :=
    hwritten.foldl_appendPolygon float (entryPolygons detections entry)
  rw [appendInstance_eq]
  constructor
  · dsimp only
    rw [hopened.ring_count, hopened.instance_offsets, List.map_append, List.map_singleton, boundaries_concat,
      encodeInt64s_concat, Nat.zero_add, List.length_append, List.length_flatten]
  · simpa using hopened.ring_offsets
  · simpa using hopened.points
  · simpa using hopened.ring_count
  · simpa using hopened.point_count

/-- The tensors are those of all entries' rings. -/
theorem written_encodePolygons (detections : List (DecodedDetection φ)) :
    Written float ((List.range kPipelineMaxDetections).map (entryRings detections)) []
      (encodePolygons float detections) := by
  refine loops.foldl_range
    (fun count tensors => Written float ((List.range count).map (entryRings detections)) [] tensors)
    ⟨rfl, rfl, rfl, rfl, rfl⟩ (fun entry tensors hwritten => ?_) _
  rw [List.range_succ, List.map_append]
  exact hwritten.appendInstance float entry

end Loops

def int64s (tensor : OutputTensor) : List Int := WordFormat.decodeAll { signed := true, size := 8 } tensor.bytes

def int32s (tensor : OutputTensor) : List Int := WordFormat.decodeAll { signed := true, size := 4 } tensor.bytes

/-- Rows of two. -/
def pairs : List Int → List (Int × Int)
  | x :: y :: values => (x, y) :: pairs values
  | _ => []

/-- The rings of each instance: cut out of the points by one array of offsets, and handed out by the
other. -/
def readRings (instance_offsets ring_offsets points : OutputTensor) : List (List (List (Int × Int))) :=
  cuts (cuts (pairs (int32s points)) ((int64s ring_offsets).map Int.toNat)) ((int64s instance_offsets).map Int.toNat)

/-- Points read back from their coordinates. -/
theorem pairs_flatMap (points : List (Int × Int)) :
    pairs (points.flatMap fun point => [point.1, point.2]) = points := by
  induction points with
  | nil => rfl
  | cons point points ih => simp [pairs, ih]

theorem length_encodeInt64s (values : List Nat) : (encodeInt64s values).length = values.length * 8 := by
  simp [encodeInt64s, List.length_flatMap]

theorem length_encodePoints (points : List (Point2f φ)) :
    (points.flatMap (encodePoint float)).length = points.length * 8 := by
  rw [length_flatMap_rows fun point _ => show (encodePoint float point).length = 1 * 8 by simp [encodePoint],
    List.map_const', List.sum_replicate_nat, Nat.mul_one]

/-- Numbers below 2^63 read back from 64 bits. -/
theorem decodeAll_encodeInt64s {values : List Nat} (hvalues : ∀ value ∈ values, value < 2 ^ 63) :
    WordFormat.decodeAll { signed := true, size := 8 } (encodeInt64s values) =
      values.map fun value : Nat => (value : Int) := by
  have hwords : encodeInt64s values = (values.map fun value : Nat => (value : Int)).flatMap (WordFormat.encode 8) := by
    rw [encodeInt64s, List.flatMap_map]
  rw [hwords]
  refine @WordFormat.decodeAll_flatMap_encode { signed := true, size := 8 } (by decide) _ fun value hmem => ?_
  obtain ⟨place, hplace, rfl⟩ := List.mem_map.mp hmem
  have hbound := hvalues place hplace
  simp only [WordFormat.Holds, if_true]
  omega

theorem holds_toInt (word : Int32) : WordFormat.Holds { signed := true, size := 4 } word.toInt := by
  have hlow := word.le_toInt
  have hhigh := word.toInt_lt
  simp only [WordFormat.Holds, if_true]
  omega

/-- The points' coordinates read back. -/
theorem decodeAll_encodePoints (points : List (Point2f φ)) :
    pairs (WordFormat.decodeAll { signed := true, size := 4 } (points.flatMap (encodePoint float))) =
      points.map (truncated float) := by
  have hwords : points.flatMap (encodePoint float) =
      ((points.map (truncated float)).flatMap fun point => [point.1, point.2]).flatMap (WordFormat.encode 4) := by
    rw [List.flatMap_map, List.flatMap_assoc]
    refine List.flatMap_congr fun point _ => ?_
    simp [encodePoint]
  rw [hwords, @WordFormat.decodeAll_flatMap_encode { signed := true, size := 4 } (by decide), pairs_flatMap]
  intro value hmem
  simp only [List.mem_flatMap, List.mem_map, List.mem_cons, List.not_mem_nil, or_false] at hmem
  obtain ⟨_, ⟨point, -, rfl⟩, rfl | rfl⟩ := hmem
  · exact holds_toInt _
  · exact holds_toInt _

/-- What the values of an array of offsets are. -/
structure Offsets (values : List Int) (count total : Nat) : Prop where
  length : values.length = count + 1
  ascending : values.Pairwise (· ≤ ·)
  first : values.head? = some 0
  last : values.getLast? = some (total : Int)

/-- What the offsets and the points of a polygon envelope say of its detections. -/
structure PolygonsTell (detections : List (DecodedDetection φ)) (instance_offsets ring_offsets points : OutputTensor) :
    Prop where
  instances : Offsets (int64s instance_offsets) kPipelineMaxDetections (keptRings detections).length
  rings : Offsets (int64s ring_offsets) (keptRings detections).length (keptRings detections).flatten.length
  distinct : (int64s ring_offsets).Pairwise (· < ·)
  shapes : ∀ tensor ∈ [instance_offsets, ring_offsets, points],
    (tensor.bytes.length : Int) = tensor.shape.prod * tensorElementSize tensor.datatype
  recovered : readRings instance_offsets ring_offsets points =
    (List.range kPipelineMaxDetections).map fun entry =>
      (entryRings detections entry).map fun ring => ring.map (truncated float)

theorem boundaries_head? (start : Nat) (sizes : List Nat) : (boundaries start sizes).head? = some start := by
  cases sizes <;> rfl

theorem boundaries_getLast? (start : Nat) (sizes : List Nat) :
    (boundaries start sizes).getLast? = some (start + sizes.sum) := by
  rw [List.getLast?_eq_getElem?, length_boundaries, Nat.add_sub_cancel, boundaries_getElem? _ _ (le_refl _),
    List.take_length]

section Decode

variable {detections : List (DecodedDetection φ)}

/-- Offsets below 2^63 read back. -/
theorem decodeAll_boundaries {sizes : List Nat} (htotal : sizes.sum < 2 ^ 63) :
    WordFormat.decodeAll { signed := true, size := 8 } (encodeInt64s (boundaries 0 sizes)) =
      (boundaries 0 sizes).map fun value : Nat => (value : Int) := by
  refine decodeAll_encodeInt64s fun place hplace => ?_
  have hbounds := le_of_mem_boundaries hplace
  omega

theorem map_toNat_natCast (places : List Nat) :
    (places.map fun value : Nat => (value : Int)).map Int.toNat = places := by
  rw [List.map_map]
  exact List.map_id'' (fun place => Int.toNat_natCast place) places

/-- Boundaries are offsets of as many chunks. -/
theorem offsets_of_boundaries (sizes : List Nat) :
    Offsets ((boundaries 0 sizes).map fun value : Nat => (value : Int)) sizes.length sizes.sum := by
  refine ⟨by simp, ?_, ?_, ?_⟩
  · rw [List.pairwise_map]
    exact (boundaries_pairwise_le 0 sizes).imp fun hle => by exact_mod_cast hle
  · rw [List.head?_map, boundaries_head?]
    rfl
  · rw [List.getLast?_map, boundaries_getLast?, Nat.zero_add]
    rfl

/-- Rings that are kept have at least three points. -/
theorem three_le_of_mem_keptRings {ring : List (Point2f φ)} (hring : ring ∈ keptRings detections) :
    3 ≤ ring.length := by
  simp only [keptRings, entryRings, boundingRings, List.mem_flatMap, List.mem_filter, decide_eq_true_eq] at hring
  obtain ⟨entry, -, -, hlength⟩ := hring
  exact hlength

/-- There are no more rings than points. -/
theorem length_keptRings_le : (keptRings detections).length ≤ (keptRings detections).flatten.length := by
  have hpositive : ∀ ring ∈ keptRings detections, 1 ≤ ring.length := fun ring hring =>
    le_trans (by decide) (three_le_of_mem_keptRings hring)
  rw [List.length_flatten]
  generalize keptRings detections = rings at hpositive
  induction rings with
  | nil => exact le_refl _
  | cons ring rings ih =>
    obtain ⟨hring, hrings⟩ := List.forall_mem_cons.mp hpositive
    have hrest := ih hrings
    simp only [List.map_cons, List.sum_cons, List.length_cons]
    omega

/-- The polygons of an envelope are read back from its offsets. -/
theorem polygons_decode (detections : List (DecodedDetection φ))
    (hmemory : (keptRings detections).flatten.length < 2 ^ 63) :
    ∃ instance_offsets ring_offsets points : OutputTensor,
      List.zipWith fill ((pipelineEnvelopeOutputs .polygon).drop 4)
        (polygonContents (encodePolygons float detections)) = [instance_offsets, ring_offsets, points] ∧
      PolygonsTell float detections instance_offsets ring_offsets points := by
  have hwritten := written_encodePolygons float detections
  have hflatten : ((List.range kPipelineMaxDetections).map (entryRings detections)).flatten = keptRings detections :=
    rfl
  obtain ⟨hinstances, hrings, hpoints, hringCount, hpointCount⟩ := hwritten
  rw [hflatten, List.append_nil] at hrings hpoints hringCount hpointCount
  have hringTotal : ((keptRings detections).map (·.length)).sum < 2 ^ 63 := by rwa [← List.length_flatten]
  have hinstanceTotal :
      (((List.range kPipelineMaxDetections).map (entryRings detections)).map (·.length)).sum < 2 ^ 63 := by
    rw [← List.length_flatten, hflatten]
    exact length_keptRings_le.trans_lt hmemory
  have hinstanceValues := decodeAll_boundaries hinstanceTotal
  have hringValues := decodeAll_boundaries hringTotal
  have hpointValues := decodeAll_encodePoints float (keptRings detections).flatten
  rw [← hinstances] at hinstanceValues
  rw [← hrings] at hringValues
  rw [← hpoints] at hpointValues
  refine ⟨_, _, _, rfl, ?_⟩
  constructor
  · change Offsets (WordFormat.decodeAll _ (encodePolygons float detections).instance_offsets) _ _
    rw [hinstanceValues, ← hflatten, List.length_flatten]
    simpa using offsets_of_boundaries (((List.range kPipelineMaxDetections).map (entryRings detections)).map (·.length))
  · change Offsets (WordFormat.decodeAll _ (encodePolygons float detections).ring_offsets) _ _
    rw [hringValues, List.length_flatten]
    simpa using offsets_of_boundaries ((keptRings detections).map (·.length))
  · change (WordFormat.decodeAll _ (encodePolygons float detections).ring_offsets).Pairwise _
    have hpositive : ∀ size ∈ (keptRings detections).map (·.length), 0 < size := by
      intro size hsize
      obtain ⟨ring, hring, rfl⟩ := List.mem_map.mp hsize
      exact lt_of_lt_of_le (by decide) (three_le_of_mem_keptRings hring)
    rw [hringValues, List.pairwise_map]
    exact (boundaries_pairwise_lt 0 hpositive).imp fun hlt => by exact_mod_cast hlt
  · simp only [List.forall_mem_cons, List.not_mem_nil, false_imp_iff, implies_true, and_true]
    refine ⟨?_, ?_, ?_⟩
    · change ((encodePolygons float detections).instance_offsets.length : Int) = _
      rw [hinstances, length_encodeInt64s, length_boundaries]
      simp [fill, makeTensor, tensorElementSize, kPipelineMaxDetections]
    · change ((encodePolygons float detections).ring_offsets.length : Int) = _
      rw [hrings, length_encodeInt64s, length_boundaries, List.length_map]
      simp [fill, makeTensor, tensorElementSize, hringCount]
    · change ((encodePolygons float detections).points.length : Int) = _
      rw [hpoints, length_encodePoints]
      change _ = [(encodePolygons float detections).point_count, 2].prod * (tensorElementSize "INT32" : Int)
      rw [hpointCount, show tensorElementSize "INT32" = 4 by decide]
      simp only [List.prod_cons, List.prod_nil]
      push_cast
      ring
  · change cuts (cuts (pairs (WordFormat.decodeAll _ (encodePolygons float detections).points))
      ((WordFormat.decodeAll _ (encodePolygons float detections).ring_offsets).map Int.toNat))
      ((WordFormat.decodeAll _ (encodePolygons float detections).instance_offsets).map Int.toNat) = _
    rw [hpointValues, hringValues, hinstanceValues, map_toNat_natCast, map_toNat_natCast, cuts_map, cuts_boundaries,
      cuts_map, ← hflatten, cuts_boundaries, List.map_map]
    rfl

end Decode

/-- A float that holds whole numbers only. -/
def wholeFloat : SingleFloat Int32 Int where
  number single := some single.toInt
  bytes single := ⟨(WordFormat.encode 4 single.toInt).toArray, by simp⟩
  toInt32 single := single
  value single := some single.toInt
  toInt32_toInt := by
    rintro single value hvalue - -
    cases hvalue
    exact (Int.tdiv_one _).symm
  zero := 0
  bytes_zero := by decide

/-- A triangle with a hole of two points. -/
def triangle : DecodedDetection Int32 where
  score := 1
  segmentation := some {
    bbox := {}
    class_confidence := 1
    class_id := 0
    polygons := [{ exterior := [⟨0, 0⟩, ⟨4, 0⟩, ⟨0, 4⟩], holes := [[⟨1, 1⟩, ⟨2, 1⟩]] }] }

theorem polygons_decode_triangle :
    ∃ instance_offsets ring_offsets points : OutputTensor,
      List.zipWith fill ((pipelineEnvelopeOutputs .polygon).drop 4)
        (polygonContents (encodePolygons wholeFloat [triangle])) = [instance_offsets, ring_offsets, points] ∧
      PolygonsTell wholeFloat [triangle] instance_offsets ring_offsets points :=
  polygons_decode wholeFloat [triangle] (by decide +kernel)

/-- These are the last tensors of the envelope of a list of results. -/
theorem encodeEnvelope_polygon [LinearOrder κ] (results : List (Result φ)) :
    (encodeEnvelope float .polygon results).map (·.drop 4) =
      some (List.zipWith fill ((pipelineEnvelopeOutputs .polygon).drop 4)
        (polygonContents (encodePolygons float (collect float results)))) := rfl

end neuriplo.pipeline
