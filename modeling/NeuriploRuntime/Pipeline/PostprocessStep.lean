import NeuriploRuntime.Pipeline.Envelope
import NeuriploRuntime.Pipeline.PreprocessStep
import NeuriploRuntime.Tensor.ElementType

open numeral neuriplo.tensor

namespace neuriplo.pipeline

/-- The machine's `float`. A cast to an integer drops the fraction of a number that the integers hold. -/
structure SingleFloat (φ κ : Type*) extends FloatOrder φ κ where
  bytes : φ → Vector UInt8 4
  toInt32 : φ → Int32
  value : φ → Option ℚ
  toInt32_toInt : ∀ single value', value single = some value' → -2 ^ 31 ≤ value'.num.tdiv value'.den →
    value'.num.tdiv value'.den < 2 ^ 31 → (toInt32 single).toInt = value'.num.tdiv value'.den
  zero : φ
  bytes_zero : bytes zero = Vector.replicate 4 0

structure Rect where
  x : Int32 := 0
  y : Int32 := 0
  width : Int32 := 0
  height : Int32 := 0
deriving DecidableEq, Repr

structure Point2f (φ : Type*) where
  x : φ
  y : φ

structure Polygon (φ : Type*) where
  exterior : List (Point2f φ)
  holes : List (List (Point2f φ))

inductive PixelType where
  | uint8
  | float32
deriving DecidableEq, Repr

/-- A mask image. The buffer behind `data` has a byte for each row and column. -/
structure MaskImage where
  empty : Bool := true
  data : Option (List UInt8) := none
  rows : Int32 := 0
  cols : Int32 := 0
  pixelType : PixelType := .uint8
  holds : ∀ pixels, data = some pixels → castSize rows.toInt * castSize cols.toInt ≤ pixels.length := by nofun

variable {φ : Type*}

structure Detection (φ : Type*) where
  bbox : Rect
  class_confidence : φ
  class_id : Int32

structure InstanceSegmentation (φ : Type*) extends Detection φ where
  mask_data : List UInt8 := []
  mask : MaskImage := {}
  polygons : List (Polygon φ) := []

/-- A result of a task; postprocess steps pass over those of other tasks. -/
inductive Result (φ : Type*) where
  | segmentation (segmentation : InstanceSegmentation φ)
  | detection (detection : Detection φ)
  | other

/-- One pixel of a full-frame mask into a box. Writing and reading stay inside the two buffers, or the
outcome is none. -/
def copyColumn (seg : InstanceSegmentation φ) (pixels : List UInt8) (row : Nat) (source_row : Int32)
    (mask : List UInt8) (column : Nat) : Option (List UInt8) :=
  let source_column := seg.bbox.x + Int32.ofNat column
  if source_column < 0 || seg.mask.cols ≤ source_column then some mask
  else
    match pixels[castSize source_row.toInt * castSize seg.mask.cols.toInt + castSize source_column.toInt]? with
    | none => none
    | some pixel =>
      let target := row * castSize seg.bbox.width.toInt + column
      if target < mask.length then some (mask.set target pixel) else none

/-- A sum of an origin and an offset that wraps around is negative, and outside of the frame. -/
def copyRow (seg : InstanceSegmentation φ) (pixels : List UInt8) (mask : List UInt8) (row : Nat) :
    Option (List UInt8) :=
  let source_row := seg.bbox.y + Int32.ofNat row
  if source_row < 0 || seg.mask.rows ≤ source_row then some mask
  else (List.range (castSize seg.bbox.width.toInt)).foldlM (copyColumn seg pixels row source_row) mask

def pipelineBoxSizedMask (seg : InstanceSegmentation φ) : Option (List UInt8) :=
  if seg.bbox.width ≤ 0 || seg.bbox.height ≤ 0 then some []
  else
    let expected := castSize seg.bbox.width.toInt * castSize seg.bbox.height.toInt
    if seg.mask_data.length = expected then some seg.mask_data
    else if seg.mask.empty then some []
    else
      match seg.mask.data with
      | none => some []
      | some pixels =>
        if seg.mask.rows ≤ 0 || seg.mask.cols ≤ 0 || seg.mask.pixelType ≠ .uint8 then some []
        else if seg.mask.rows = seg.bbox.height && seg.mask.cols = seg.bbox.width then
          if expected ≤ pixels.length then some (pixels.take expected) else none
        else
          (List.range (castSize seg.bbox.height.toInt)).foldlM (copyRow seg pixels) (List.replicate expected 0)

structure DecodedDetection (φ : Type*) where
  x : Int32 := 0
  y : Int32 := 0
  width : Int32 := 0
  height : Int32 := 0
  score : φ
  class_id : Int32 := 0
  segmentation : Option (InstanceSegmentation φ) := none

def decodeDetection (detection : Detection φ) (segmentation : Option (InstanceSegmentation φ)) :
    DecodedDetection φ where
  x := detection.bbox.x
  y := detection.bbox.y
  width := detection.bbox.width
  height := detection.bbox.height
  score := detection.class_confidence
  class_id := detection.class_id
  segmentation

def decodeResult : Result φ → Option (DecodedDetection φ)
  | .segmentation segmentation => some (decodeDetection segmentation.toDetection (some segmentation))
  | .detection detection => some (decodeDetection detection none)
  | .other => none

variable {κ : Type*} [LinearOrder κ] (float : SingleFloat φ κ)

/-- The detections with the best scores. -/
def collect (results : List (Result φ)) : List (DecodedDetection φ) :=
  let all := results.filterMap decodeResult
  let ranked := pipelineTopScoreIndices float.toFloatOrder (all.map (·.score)) kPipelineMaxDetections
  ranked.map fun index => all.get (index.cast (List.length_map _))

inductive PipelineEnvelope where
  | detection
  | mask
  | polygon
deriving DecidableEq, Repr

def pipelineEnvelopeOutputs (envelope : PipelineEnvelope) : List TensorMetadata :=
  let outputs : List TensorMetadata :=
    [{ name := "NUM_DETECTIONS", datatype := "INT32", shape := [1] },
      { name := "BOXES", datatype := "INT32", shape := [kPipelineMaxDetections, 4] },
      { name := "SCORES", datatype := "FP32", shape := [kPipelineMaxDetections] },
      { name := "CLASSES", datatype := "INT32", shape := [kPipelineMaxDetections] }]
  match envelope with
  | .detection => outputs
  | .mask =>
    outputs ++ [{ name := "MASK_OFFSETS", datatype := "INT64", shape := [kPipelineMaxDetections + 1] },
      { name := "MASK_DATA", datatype := "UINT8", shape := [-1] }]
  | .polygon =>
    outputs ++ [{ name := "INSTANCE_RING_OFFSETS", datatype := "INT64", shape := [kPipelineMaxDetections + 1] },
      { name := "RING_POINT_OFFSETS", datatype := "INT64", shape := [-1] },
      { name := "POLYGON_POINTS", datatype := "INT32", shape := [-1, 2] }]

/-- The tensors every envelope has a row of for each entry. -/
structure EnvelopeRows where
  boxes : List UInt8 := []
  scores : List UInt8 := []
  classes : List UInt8 := []

/-- Entries behind the last detection are padding. -/
def appendEntry (detections : List (DecodedDetection φ)) (rows : EnvelopeRows) (entry : Nat) : EnvelopeRows :=
  let detection := (detections[entry]?).getD { score := float.zero }
  { boxes := rows.boxes ++ WordFormat.encode 4 detection.x.toInt ++ WordFormat.encode 4 detection.y.toInt ++
      WordFormat.encode 4 detection.width.toInt ++ WordFormat.encode 4 detection.height.toInt
    scores := rows.scores ++ (float.bytes detection.score).toList
    classes := rows.classes ++ WordFormat.encode 4 detection.class_id.toInt }

/-- The loop over the masks: the offsets written, the data, and the running offset. -/
structure MaskTensors where
  offsets : List UInt8 := WordFormat.encode 8 0
  data : List UInt8 := []
  offset : Int := 0

/-- An entry without a detection, or a detection without a segmentation, has no mask. -/
def entryMask (detections : List (DecodedDetection φ)) (entry : Nat) : Option (List UInt8) :=
  match (detections[entry]?).bind (·.segmentation) with
  | none => some []
  | some segmentation => pipelineBoxSizedMask segmentation

def appendMask (detections : List (DecodedDetection φ)) (tensors : MaskTensors) (entry : Nat) : Option MaskTensors :=
  match entryMask detections entry with
  | none => none
  | some mask =>
    let offset := tensors.offset + mask.length
    some { offsets := tensors.offsets ++ WordFormat.encode 8 offset, data := tensors.data ++ mask, offset }

def encodeMasks (detections : List (DecodedDetection φ)) : Option MaskTensors :=
  (List.range kPipelineMaxDetections).foldlM (appendMask detections) {}

structure PolygonTensors where
  instance_offsets : List UInt8 := WordFormat.encode 8 0
  ring_offsets : List UInt8 := WordFormat.encode 8 0
  points : List UInt8 := []
  ring_count : Int := 0
  point_count : Int := 0

/-- Rings of fewer than three points are left out. -/
def appendRing (tensors : PolygonTensors) (ring : List (Point2f φ)) : PolygonTensors :=
  if ring.length < 3 then tensors
  else
    let point_count := tensors.point_count + ring.length
    { tensors with
      points := tensors.points ++ ring.flatMap fun point =>
        WordFormat.encode 4 (float.toInt32 point.x).toInt ++ WordFormat.encode 4 (float.toInt32 point.y).toInt
      point_count
      ring_count := tensors.ring_count + 1
      ring_offsets := tensors.ring_offsets ++ WordFormat.encode 8 point_count }

/-- The exterior of a polygon and then its holes. -/
def appendPolygon (tensors : PolygonTensors) (polygon : Polygon φ) : PolygonTensors :=
  polygon.holes.foldl (appendRing float) (appendRing float tensors polygon.exterior)

def appendInstance (detections : List (DecodedDetection φ)) (tensors : PolygonTensors) (entry : Nat) :
    PolygonTensors :=
  let tensors :=
    match (detections[entry]?).bind (·.segmentation) with
    | none => tensors
    | some segmentation => segmentation.polygons.foldl (appendPolygon float) tensors
  { tensors with instance_offsets := tensors.instance_offsets ++ WordFormat.encode 8 tensors.ring_count }

def encodePolygons (detections : List (DecodedDetection φ)) : PolygonTensors :=
  (List.range kPipelineMaxDetections).foldl (appendInstance float detections) {}

/-- The bytes of an output, and its shape where it is not the one of the metadata. -/
structure Content where
  bytes : List UInt8
  shape : Option (List Int) := none

def fill (metadata : TensorMetadata) (content : Content) : OutputTensor :=
  { makeTensor metadata with bytes := content.bytes, shape := content.shape.getD metadata.shape }

def maskContents (tensors : MaskTensors) : List Content :=
  [{ bytes := tensors.offsets }, { bytes := tensors.data, shape := some [tensors.data.length] }]

def polygonContents (tensors : PolygonTensors) : List Content :=
  [{ bytes := tensors.instance_offsets }, { bytes := tensors.ring_offsets, shape := some [tensors.ring_count + 1] },
    { bytes := tensors.points, shape := some [tensors.point_count, 2] }]

/-- The envelope of a list of results, none when a mask was read or written out of its buffer. -/
def encodeEnvelope (envelope : PipelineEnvelope) (results : List (Result φ)) : Option (List OutputTensor) :=
  let detections := collect float results
  let rows := (List.range kPipelineMaxDetections).foldl (appendEntry float detections) {}
  let contents : List Content := [{ bytes := WordFormat.encode 4 detections.length }, { bytes := rows.boxes },
    { bytes := rows.scores }, { bytes := rows.classes }]
  let shaped : Option (List Content) :=
    match envelope with
    | .detection => some []
    | .mask => (encodeMasks detections).map maskContents
    | .polygon => some (polygonContents (encodePolygons float detections))
  shaped.map fun more => List.zipWith fill (pipelineEnvelopeOutputs envelope) (contents ++ more)

end neuriplo.pipeline
