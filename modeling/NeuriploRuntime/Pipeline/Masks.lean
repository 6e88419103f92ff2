import NeuriploRuntime.Pipeline.BoxMask
import NeuriploRuntime.Pipeline.Polygons

open numeral neuriplo.tensor rows

namespace neuriplo.pipeline

variable {φ κ : Type*} (float : SingleFloat φ κ)

/-- The entry of an envelope, padding behind the last detection. -/
def entryOf (detections : List (DecodedDetection φ)) (entry : Nat) : DecodedDetection φ :=
  (detections[entry]?).getD { score := float.zero }

def boxOf (detection : DecodedDetection φ) : List Int :=
  [detection.x.toInt, detection.y.toInt, detection.width.toInt, detection.height.toInt]

def encodeInt32s (values : List Int) : List UInt8 := values.flatMap (WordFormat.encode 4)

def envelopeRows (entries : List (DecodedDetection φ)) : EnvelopeRows where
  boxes := encodeInt32s (entries.flatMap boxOf)
  scores := entries.flatMap fun entry => (float.bytes entry.score).toList
  classes := encodeInt32s (entries.map (·.class_id.toInt))

/-- An entry is appended to the rows before it. -/
theorem appendEntry_envelopeRows (detections entries : List (DecodedDetection φ)) (entry : Nat) :
    appendEntry float detections (envelopeRows float entries) entry =
      envelopeRows float (entries ++ [entryOf float detections entry]) := by
  simp [appendEntry, envelopeRows, encodeInt32s, boxOf, entryOf]

/-- The rows of the envelope are those of its entries. -/
theorem foldl_appendEntry (detections : List (DecodedDetection φ)) (count : Nat) :
    (List.range count).foldl (appendEntry float detections) {} =
      envelopeRows float ((List.range count).map (entryOf float detections)) := by
  refine loops.foldl_range (fun count rows =>
    rows = envelopeRows float ((List.range count).map (entryOf float detections))) rfl ?_ count
  rintro entry rows rfl
  rw [appendEntry_envelopeRows, List.range_succ, List.map_append]
  rfl

/-- The mask of a detection, of which there is none without a segmentation. -/
def detectionMask (detection : DecodedDetection φ) : List UInt8 :=
  (detection.segmentation.bind pipelineBoxSizedMask).getD []

def maskTensors (masks : List (List UInt8)) : MaskTensors where
  offsets := encodeInt64s (boundaries 0 (masks.map (·.length)))
  data := masks.flatten
  offset := ((masks.map (·.length)).sum : Nat)

def maskOf (detections : List (DecodedDetection φ)) (entry : Nat) : List UInt8 :=
  ((detections.map detectionMask)[entry]?).getD []

/-- The mask of an entry is that of its detection. -/
theorem entryMask_eq (detections : List (DecodedDetection φ)) (entry : Nat) :
    entryMask detections entry = some (maskOf detections entry) := by
  unfold entryMask maskOf
  rw [List.getElem?_map]
  cases detections[entry]? with
  | none => rfl
  | some detection =>
    rw [Option.bind_some, Option.map_some, Option.getD_some, detectionMask]
    cases detection.segmentation with
    | none => rfl
    | some segmentation =>
      obtain ⟨mask, hmask, -⟩ := boxMask segmentation
      change pipelineBoxSizedMask segmentation = _
      rw [Option.bind_some, hmask, Option.getD_some]

/-- A mask is appended to the masks before it. -/
theorem appendMask_maskTensors (detections : List (DecodedDetection φ)) (masks : List (List UInt8)) (entry : Nat) :
    appendMask detections (maskTensors masks) entry = some (maskTensors (masks ++ [maskOf detections entry])) := by
  rw [appendMask, entryMask_eq]
  simp only [maskTensors, List.map_append, List.map_singleton, boundaries_concat, encodeInt64s_concat,
    List.flatten_append, List.flatten_singleton, List.sum_append, List.sum_singleton, Nat.zero_add, Nat.cast_add]

/-- The mask tensors are those of all entries. -/
theorem encodeMasks_eq (detections : List (DecodedDetection φ)) :
    encodeMasks detections =
      some (maskTensors ((List.range kPipelineMaxDetections).map (maskOf detections))) := by
  obtain ⟨tensors, htensors, rfl⟩ := @loops.foldlM_range _
    (fun count tensors => tensors = maskTensors ((List.range count).map (maskOf detections))) {}
    (appendMask detections) kPipelineMaxDetections rfl (by
      rintro entry tensors - rfl
      refine ⟨_, appendMask_maskTensors detections _ entry, ?_⟩
      rw [List.range_succ, List.map_append]
      rfl)
  exact htensors

/-- The mask of a detection. -/
structure DetectionMask (detection : DecodedDetection φ) (mask : List UInt8) : Prop where
  size : mask = [] ∨ (mask.length : Int) = detection.width.toInt * detection.height.toInt
  segmentation : ∀ seg, detection.segmentation = some seg → pipelineBoxSizedMask seg = some mask ∧ BoxMask seg mask
  none : detection.segmentation = none → mask = []

/-- What the tensors of a mask envelope say of its detections. -/
structure MasksTell (detections : List (DecodedDetection φ))
    (num_detections boxes scores classes mask_offsets mask_data : OutputTensor) : Prop where
  count : int32s num_detections = [(detections.length : Int)]
  box_rows : int32s boxes =
    detections.flatMap boxOf ++ List.replicate (4 * (kPipelineMaxDetections - detections.length)) 0
  score_rows : scores.bytes = (detections.flatMap fun detection => (float.bytes detection.score).toList) ++
    List.replicate (4 * (kPipelineMaxDetections - detections.length)) 0
  class_rows : int32s classes =
    detections.map (·.class_id.toInt) ++ List.replicate (kPipelineMaxDetections - detections.length) 0
  full : boxes.shape = [(kPipelineMaxDetections : Int), 4] ∧ scores.shape = [(kPipelineMaxDetections : Int)] ∧
    classes.shape = [(kPipelineMaxDetections : Int)]
  shapes : ∀ tensor ∈ [num_detections, boxes, scores, classes, mask_offsets, mask_data],
    (tensor.bytes.length : Int) = tensor.shape.prod * tensorElementSize tensor.datatype
  offsets : Offsets (int64s mask_offsets) kPipelineMaxDetections mask_data.bytes.length
  masks : ∃ masks, List.Forall₂ DetectionMask detections masks ∧
    cuts mask_data.bytes ((int64s mask_offsets).map Int.toNat) =
      masks ++ List.replicate (kPipelineMaxDetections - detections.length) []

/-- A detection with a segmentation has the box of the segmentation. -/
def Decoded (detection : DecodedDetection φ) : Prop :=
  ∀ seg, detection.segmentation = some seg → detection = decodeDetection seg.toDetection (some seg)

/-- A decoded result holds a mask as it was decoded. -/
theorem decoded_of_decodeResult {result : Result φ} {detection : DecodedDetection φ}
    (hdecode : decodeResult result = some detection) : Decoded detection := by
  intro seg hseg
  cases result with
  | segmentation segmentation =>
    cases hdecode
    cases hseg
    rfl
  | detection decoded =>
    cases hdecode
    cases hseg
  | other => cases hdecode

/-- A decoded mask is that of its detection. -/
theorem Decoded.detectionMask {detection : DecodedDetection φ} (hdecoded : Decoded detection) :
    DetectionMask detection (detectionMask detection) := by
  unfold pipeline.detectionMask
  cases hseg : detection.segmentation with
  | none => exact ⟨Or.inl rfl, fun seg hsome => (by rw [hseg] at hsome; cases hsome), fun _ => rfl⟩
  | some seg =>
    obtain ⟨mask, hmask, hbox⟩ := boxMask seg
    rw [Option.bind_some, hmask, Option.getD_some]
    refine ⟨?_, fun other hother => ?_, fun hnone => (by rw [hseg] at hnone; cases hnone)⟩
    · rw [hdecoded seg hseg]
      exact hbox.size
    · rw [hseg] at hother
      cases hother
      exact ⟨hmask, hbox⟩

/-- Words written in 32 bits read back. -/
theorem decodeAll_encodeInt32s {values : List Int} (hwords : ∀ value ∈ values, ∃ word : Int32, value = word.toInt) :
    WordFormat.decodeAll { signed := true, size := 4 } (encodeInt32s values) = values := by
  refine @WordFormat.decodeAll_flatMap_encode { signed := true, size := 4 } (by decide) _ fun value hvalue => ?_
  obtain ⟨word, rfl⟩ := hwords value hvalue
  exact holds_toInt word

theorem boxOf_words {detection : DecodedDetection φ} {value : Int} (hvalue : value ∈ boxOf detection) :
    ∃ word : Int32, value = word.toInt := by
  simp only [boxOf, List.mem_cons, List.not_mem_nil, or_false] at hvalue
  obtain rfl | rfl | rfl | rfl := hvalue
  · exact ⟨detection.x, rfl⟩
  · exact ⟨detection.y, rfl⟩
  · exact ⟨detection.width, rfl⟩
  · exact ⟨detection.height, rfl⟩

theorem decodeAll_count {count : Nat} (hsmall : count < 2 ^ 31) :
    WordFormat.decodeAll { signed := true, size := 4 } (WordFormat.encode 4 (count : Int)) = [(count : Int)] := by
  have hsingle : WordFormat.encode 4 (count : Int) = encodeInt32s [(count : Int)] := by
    rw [encodeInt32s, List.flatMap_singleton]
  rw [hsingle, decodeAll_encodeInt32s]
  intro value hvalue
  rw [List.mem_singleton.mp hvalue]
  exact ⟨Int32.ofNat count, (Int32.toInt_ofNat_of_lt hsmall).symm⟩

/-- The boxes of the entries read back. -/
theorem decodeAll_boxes (entries : List (DecodedDetection φ)) :
    WordFormat.decodeAll { signed := true, size := 4 } (encodeInt32s (entries.flatMap boxOf)) =
      entries.flatMap boxOf := by
  refine decodeAll_encodeInt32s fun value hvalue => ?_
  obtain ⟨entry, -, hentry⟩ := List.mem_flatMap.mp hvalue
  exact boxOf_words hentry

/-- The classes of the entries read back. -/
theorem decodeAll_classes (entries : List (DecodedDetection φ)) :
    WordFormat.decodeAll { signed := true, size := 4 } (encodeInt32s (entries.map (·.class_id.toInt))) =
      entries.map (·.class_id.toInt) := by
  refine decodeAll_encodeInt32s fun value hvalue => ?_
  obtain ⟨entry, -, rfl⟩ := List.mem_map.mp hvalue
  exact ⟨entry.class_id, rfl⟩

/-- Rows of zeros for padding. -/
theorem flatMap_replicate_zeros {α β : Type*} {item : α} {rowOf : α → List β} {zero : β} {size : Nat}
    (hrow : rowOf item = List.replicate size zero) (count : Nat) :
    (List.replicate count item).flatMap rowOf = List.replicate (size * count) zero := by
  rw [List.flatMap_replicate, hrow, List.flatten_replicate_replicate, Nat.mul_comm]

section Decode

variable {detections : List (DecodedDetection φ)}

/-- Behind the detections the entries are padding. -/
theorem entries_eq (hcount : detections.length ≤ kPipelineMaxDetections) :
    (List.range kPipelineMaxDetections).map (entryOf float detections) =
      detections ++ List.replicate (kPipelineMaxDetections - detections.length) { score := float.zero } :=
  map_range_getD detections _ hcount

/-- Behind the detections the masks are empty. -/
theorem masks_eq (hcount : detections.length ≤ kPipelineMaxDetections) :
    (List.range kPipelineMaxDetections).map (maskOf detections) =
      detections.map detectionMask ++ List.replicate (kPipelineMaxDetections - detections.length) [] := by
  have hfits : (detections.map detectionMask).length ≤ kPipelineMaxDetections := by rwa [List.length_map]
  have hmasks := map_range_getD _ [] hfits
  rwa [List.length_map] at hmasks

/-- Behind the detections the boxes are zeros. -/
theorem boxes_padded (hcount : detections.length ≤ kPipelineMaxDetections) :
    ((List.range kPipelineMaxDetections).map (entryOf float detections)).flatMap boxOf =
      detections.flatMap boxOf ++ List.replicate (4 * (kPipelineMaxDetections - detections.length)) 0 := by
  rw [entries_eq float hcount, List.flatMap_append, flatMap_replicate_zeros]
  rfl

/-- Behind the detections the scores are zeros. -/
theorem scores_padded (hcount : detections.length ≤ kPipelineMaxDetections) :
    (((List.range kPipelineMaxDetections).map (entryOf float detections)).flatMap fun entry =>
        (float.bytes entry.score).toList) =
      (detections.flatMap fun detection => (float.bytes detection.score).toList) ++
        List.replicate (4 * (kPipelineMaxDetections - detections.length)) 0 := by
  rw [entries_eq float hcount, List.flatMap_append, flatMap_replicate_zeros]
  rw [float.bytes_zero, Vector.toList_replicate]

/-- Behind the detections the classes are zeros. -/
theorem classes_padded (hcount : detections.length ≤ kPipelineMaxDetections) :
    ((List.range kPipelineMaxDetections).map (entryOf float detections)).map (·.class_id.toInt) =
      detections.map (·.class_id.toInt) ++ List.replicate (kPipelineMaxDetections - detections.length) 0 := by
  rw [entries_eq float hcount, List.map_append, List.map_replicate]
  rfl

theorem length_encodeInt32s (values : List Int) : (encodeInt32s values).length = values.length * 4 :=
  WordFormat.length_flatMap_encode 4 values

/-- The outputs of a mask envelope. -/
def maskEnvelope (detections : List (DecodedDetection φ)) (entries : List (DecodedDetection φ))
    (masks : List (List UInt8)) : List OutputTensor :=
  List.zipWith fill (pipelineEnvelopeOutputs .mask)
    ([{ bytes := WordFormat.encode 4 detections.length }, { bytes := (envelopeRows float entries).boxes },
      { bytes := (envelopeRows float entries).scores }, { bytes := (envelopeRows float entries).classes }] ++
      maskContents (maskTensors masks))

/-- Each tensor of an envelope is as long as its shape says. -/
theorem shapes_maskEnvelope {entries : List (DecodedDetection φ)} {masks : List (List UInt8)}
    (hentries : entries.length = kPipelineMaxDetections) (hmasks : masks.length = kPipelineMaxDetections) :
    ∀ tensor ∈ maskEnvelope float detections entries masks,
      (tensor.bytes.length : Int) = tensor.shape.prod * tensorElementSize tensor.datatype := by
  change ∀ tensor ∈ [_, _, _, _, _, _], _
  simp only [List.forall_mem_cons, List.not_mem_nil, false_imp_iff, implies_true, and_true]
  refine ⟨?_, ?_, ?_, ?_, ?_, ?_⟩
  · change ((WordFormat.encode 4 (detections.length : Int)).length : Int) = _
    rw [WordFormat.length_encode]
    rfl
  · change ((encodeInt32s (entries.flatMap boxOf)).length : Int) = _
    rw [length_encodeInt32s, length_flatMap_rows fun entry _ => show (boxOf entry).length = 1 * 4 by rfl,
      List.map_const', List.sum_replicate_nat, hentries]
    rfl
  · change ((entries.flatMap fun entry => (float.bytes entry.score).toList).length : Int) = _
    rw [length_flatMap_rows fun entry _ => show (float.bytes entry.score).toList.length = 1 * 4 by simp,
      List.map_const', List.sum_replicate_nat, hentries]
    rfl
  · change ((encodeInt32s (entries.map (·.class_id.toInt))).length : Int) = _
    rw [length_encodeInt32s, List.length_map, hentries]
    rfl
  · change ((maskTensors masks).offsets.length : Int) = _
    rw [maskTensors, length_encodeInt64s, length_boundaries, List.length_map, hmasks]
    rfl
  · change ((maskTensors masks).data.length : Int) =
      [((maskTensors masks).data.length : Int)].prod * (tensorElementSize "UINT8" : Int)
    rw [List.prod_singleton, show tensorElementSize "UINT8" = 1 by decide, Nat.cast_one, mul_one]

/-- The tensors of an envelope tell its detections and their masks. -/
theorem masksTell (hcount : detections.length ≤ kPipelineMaxDetections)
    (hdecoded : ∀ detection ∈ detections, Decoded detection)
    (hmemory : ((List.range kPipelineMaxDetections).map (maskOf detections)).flatten.length < 2 ^ 63) :
    ∃ num_detections boxes scores classes mask_offsets mask_data : OutputTensor,
      maskEnvelope float detections ((List.range kPipelineMaxDetections).map (entryOf float detections))
          ((List.range kPipelineMaxDetections).map (maskOf detections)) =
        [num_detections, boxes, scores, classes, mask_offsets, mask_data] ∧
      MasksTell float detections num_detections boxes scores classes mask_offsets mask_data := by
  generalize hentries : (List.range kPipelineMaxDetections).map (entryOf float detections) = entries
  generalize hmasks : (List.range kPipelineMaxDetections).map (maskOf detections) = masks at hmemory ⊢
  have hentryCount : entries.length = kPipelineMaxDetections := by simp [← hentries]
  have hmaskCount : masks.length = kPipelineMaxDetections := by simp [← hmasks]
  have hoffsets : WordFormat.decodeAll { signed := true, size := 8 } (maskTensors masks).offsets = _ :=
    decodeAll_boundaries (by rwa [← List.length_flatten])
  refine ⟨_, _, _, _, _, _, rfl, ?_⟩
  constructor
  · exact decodeAll_count (lt_of_le_of_lt hcount (by decide))
  · change WordFormat.decodeAll _ (encodeInt32s (entries.flatMap boxOf)) = _
    rw [decodeAll_boxes, ← hentries, boxes_padded float hcount]
  · change (entries.flatMap fun entry => (float.bytes entry.score).toList) = _
    rw [← hentries, scores_padded float hcount]
  · change WordFormat.decodeAll _ (encodeInt32s (entries.map (·.class_id.toInt))) = _
    rw [decodeAll_classes, ← hentries, classes_padded float hcount]
  · exact ⟨rfl, rfl, rfl⟩
  · exact shapes_maskEnvelope float hentryCount hmaskCount
  · change Offsets (WordFormat.decodeAll _ (maskTensors masks).offsets) _ (maskTensors masks).data.length
    have hlengths : (masks.map List.length).length = kPipelineMaxDetections := by rw [List.length_map, hmaskCount]
    rw [hoffsets, ← hlengths, maskTensors, List.length_flatten]
    exact offsets_of_boundaries _
  · refine ⟨detections.map detectionMask, ?_, ?_⟩
    · rw [List.forall₂_map_right_iff, List.forall₂_same]
      exact fun detection hmem => (hdecoded detection hmem).detectionMask
    · change cuts (maskTensors masks).data ((WordFormat.decodeAll _ (maskTensors masks).offsets).map Int.toNat) = _
      rw [hoffsets, map_toNat_natCast, maskTensors, cuts_boundaries, ← hmasks, masks_eq hcount]

end Decode

section Envelope

variable [LinearOrder κ]

/-- The mask envelope of some results is that of the detections collected. -/
theorem encodeEnvelope_mask (results : List (Result φ)) :
    encodeEnvelope float .mask results =
      some (maskEnvelope float (collect float results)
        ((List.range kPipelineMaxDetections).map (entryOf float (collect float results)))
        ((List.range kPipelineMaxDetections).map (maskOf (collect float results)))) := by
  unfold encodeEnvelope maskEnvelope
  dsimp only
  rw [foldl_appendEntry, encodeMasks_eq, Option.map_some, Option.map_some]

/-- No more detections are collected than the envelope has entries. -/
theorem length_collect_le (results : List (Result φ)) : (collect float results).length ≤ kPipelineMaxDetections := by
  have hlength := (topScores float.toFloatOrder ((results.filterMap decodeResult).map (·.score))
    kPipelineMaxDetections).length
  unfold collect
  rw [List.length_map, hlength]
  exact min_le_right _ _

/-- What is collected was decoded. -/
theorem decoded_of_mem_collect {results : List (Result φ)} {detection : DecodedDetection φ}
    (hmem : detection ∈ collect float results) : Decoded detection := by
  obtain ⟨index, -, rfl⟩ := List.mem_map.mp hmem
  obtain ⟨result, -, hdecode⟩ := List.mem_filterMap.mp (List.get_mem (results.filterMap decodeResult)
    (index.cast (List.length_map _)))
  exact decoded_of_decodeResult hdecode

/-- The detections with the best scores and their masks are read back from the envelope. -/
theorem masks_decode (results : List (Result φ))
    (hmemory : ∀ tensors, encodeMasks (collect float results) = some tensors → tensors.data.length < 2 ^ 63) :
    (∃ kept, TopScores float.toFloatOrder ((results.filterMap decodeResult).map (·.score)) kPipelineMaxDetections kept ∧
      collect float results =
        kept.map fun index => (results.filterMap decodeResult).get (index.cast (List.length_map _))) ∧
    ∃ num_detections boxes scores classes mask_offsets mask_data : OutputTensor,
      encodeEnvelope float .mask results = some [num_detections, boxes, scores, classes, mask_offsets, mask_data] ∧
      MasksTell float (collect float results) num_detections boxes scores classes mask_offsets mask_data := by
  refine ⟨⟨_, topScores float.toFloatOrder _ _, rfl⟩, ?_⟩
  obtain ⟨num_detections, boxes, scores, classes, mask_offsets, mask_data, henvelope, htell⟩ :=
    masksTell float (length_collect_le float results) (fun _ hmem => decoded_of_mem_collect float hmem)
      (hmemory _ (encodeMasks_eq _))
  exact ⟨num_detections, boxes, scores, classes, mask_offsets, mask_data,
    by rw [encodeEnvelope_mask, henvelope], htell⟩

/-- A box that is in the frame with one of its columns. -/
def overhanging : InstanceSegmentation Int32 where
  bbox := { x := -1, y := 1, width := 2, height := 2 }
  class_confidence := 1
  class_id := 7
  mask := { empty := false, data := some [1, 2, 3, 4, 5, 6, 7, 8, 9], rows := 3, cols := 3, holds := by decide }

example : pipelineBoxSizedMask overhanging = some [0, 4, 0, 7] := by decide

theorem masks_decode_overhanging :
    (∃ kept, TopScores wholeFloat.toFloatOrder
        (([Result.segmentation overhanging].filterMap decodeResult).map (·.score)) kPipelineMaxDetections kept ∧
      collect wholeFloat [.segmentation overhanging] = kept.map fun index =>
        ([Result.segmentation overhanging].filterMap decodeResult).get (index.cast (List.length_map _))) ∧
    ∃ num_detections boxes scores classes mask_offsets mask_data : OutputTensor,
      encodeEnvelope wholeFloat .mask [.segmentation overhanging] =
        some [num_detections, boxes, scores, classes, mask_offsets, mask_data] ∧
      MasksTell wholeFloat (collect wholeFloat [.segmentation overhanging])
        num_detections boxes scores classes mask_offsets mask_data :=
  masks_decode wholeFloat [.segmentation overhanging] fun tensors htensors => by
    have hsmall : (encodeMasks (collect wholeFloat [.segmentation overhanging])).all
        (fun tensors => tensors.data.length < 2 ^ 63) = true := by decide +kernel
    rw [htensors] at hsmall
    simpa using hsmall

end Envelope

end neuriplo.pipeline
