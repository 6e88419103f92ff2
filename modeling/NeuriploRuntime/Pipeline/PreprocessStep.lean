import NeuriploRuntime.Pipeline.Config
import NeuriploRuntime.Pipeline.ImageHeader
import NeuriploRuntime.Tensor.Execution

open numeral neuriplo.tensor

namespace neuriplo.pipeline

def kPipelineMaxDecodedPixels : Int := 64 * 1024 * 1024

def makeTensor (metadata : TensorMetadata) : OutputTensor where
  name := metadata.name
  datatype := metadata.datatype
  shape := metadata.shape

/-- The size of the frame as (height, width). -/
def frameSizeTensor : TensorMetadata where
  name := "FRAME_SIZE"
  datatype := "INT64"
  shape := [2]

structure TaskImage where
  height : Int
  width : Int
  pixels : List UInt8

/-- What the step uses of the task layer; either call may throw. -/
structure PreprocessTask where
  decodeImage : List UInt8 → Except String TaskImage
  preprocess : PipelineStepConfig → ModelMetadata → TaskImage → Except String (List (List UInt8))

structure PreprocessStep where
  step_ : PipelineStepConfig
  neighbour_ : ModelMetadata

/-- The outcome of a step, and the images it gave to the decoder on the way. -/
structure PreprocessRun where
  outcome : Except String (List OutputTensor)
  decoded : List (List UInt8) := []

namespace PreprocessStep

/-- The product of the dimensions is over the cap, told without forming it. -/
def overCap (declared_width declared_height : Int) : Bool :=
  0 < declared_width && 0 < declared_height && kPipelineMaxDecodedPixels / declared_height < declared_width

def overCapError (step : PreprocessStep) (declared_width declared_height : Int) : String :=
  "preprocess step '" ++ step.step_.name ++ "' rejected an encoded image declaring " ++ toString declared_width ++
    "x" ++ toString declared_height ++ " pixels, over the " ++ toString kPipelineMaxDecodedPixels ++ "-pixel cap"

def failedError (step : PreprocessStep) (what : String) : String :=
  "preprocess step '" ++ step.step_.name ++ "' failed: " ++ what

/-- The tensors for the model, and the size of the frame behind them. -/
def encode (step : PreprocessStep) (image : TaskImage) (preprocessed : List (List UInt8)) :
    Except String (List OutputTensor) :=
  let model_input_count := step.neighbour_.inputs.length
  if preprocessed.length < model_input_count then
    .error ("preprocess step '" ++ step.step_.name ++ "' produced " ++ toString preprocessed.length ++
      " tensors for a model with " ++ toString model_input_count ++ " inputs")
  else
    .ok (List.zipWith (fun input bytes => { makeTensor input with bytes }) step.neighbour_.inputs preprocessed ++
      [{ makeTensor frameSizeTensor with
        bytes := WordFormat.encode 8 image.height ++ WordFormat.encode 8 image.width }])

def decodeAndEncode (tasks : PreprocessTask) (step : PreprocessStep) (bytes : List UInt8) :
    Except String (List OutputTensor) :=
  match tasks.decodeImage bytes with
  | .error what => .error (step.failedError what)
  | .ok image =>
    match tasks.preprocess step.step_ step.neighbour_ image with
    | .error what => .error (step.failedError what)
    | .ok preprocessed => step.encode image preprocessed

def run (tasks : PreprocessTask) (step : PreprocessStep) (step_inputs : List OutputTensor) : PreprocessRun :=
  let malformed : PreprocessRun :=
    { outcome := .error ("preprocess step '" ++ step.step_.name ++ "' expects one non-empty encoded image") }
  match step_inputs with
  | [image] =>
    if image.bytes.isEmpty then malformed
    else
      match decodedImageDimensions image.bytes with
      | some (some (declared_width, declared_height)) =>
        if overCap declared_width declared_height then
          { outcome := .error (step.overCapError declared_width declared_height) }
        else { outcome := step.decodeAndEncode tasks image.bytes, decoded := [image.bytes] }
      | _ => { outcome := step.decodeAndEncode tasks image.bytes, decoded := [image.bytes] }
  | _ => malformed

/-- Dimensions are over the cap exactly when they are positive and their product
is, which does not wrap. -/
theorem overCap_iff (width height : Int) :
    overCap width height = true ↔ 0 < width ∧ 0 < height ∧ kPipelineMaxDecodedPixels < width * height := by
  simp only [overCap, Bool.and_eq_true, decide_eq_true_eq, and_assoc]
  refine and_congr_right fun _ => and_congr_right fun hheight => ?_
  exact Int.ediv_lt_iff_lt_mul hheight

/-- An image whose header declares more pixels than are ever decoded. -/
def DeclaresTooMany (bytes : List UInt8) (width height : Int) : Prop :=
  decodedImageDimensions bytes = some (some (width, height)) ∧
    0 < width ∧ 0 < height ∧ kPipelineMaxDecodedPixels < width * height

variable (tasks : PreprocessTask) (step : PreprocessStep) {image : OutputTensor}

/-- An image that declares too many pixels is refused before it is decoded. -/
theorem run_of_declared (hbytes : image.bytes ≠ []) {width height : Int}
    (hmany : DeclaresTooMany image.bytes width height) :
    step.run tasks [image] = { outcome := .error (step.overCapError width height) } := by
  obtain ⟨hscan, hproduct⟩ := hmany
  rw [run]
  simp only [List.isEmpty_iff, hbytes, if_false, hscan, (overCap_iff width height).mpr hproduct, if_true]

/-- Any other image goes to the decoder. -/
theorem run_of_not_declared (hbytes : image.bytes ≠ [])
    (hfew : ∀ width height, ¬DeclaresTooMany image.bytes width height) :
    step.run tasks [image] = { outcome := step.decodeAndEncode tasks image.bytes, decoded := [image.bytes] } := by
  rw [run]
  simp only [List.isEmpty_iff, hbytes, if_false]
  split
  · rename_i width height hscan
    rw [if_neg]
    intro hover
    exact hfew width height ⟨hscan, (overCap_iff width height).mp hover⟩
  · rfl

/-- The scan of a header reads no byte behind the buffer and finds dimensions of 32 bits, and exactly an
image that it finds too large is refused without the decoder being called. -/
theorem header_scan_guards (hbytes : image.bytes ≠ []) :
    (∀ data, Scan.Safe (decodedImageDimensions data)) ∧
      ((step.run tasks [image]).decoded = [] ↔ ∃ width height, DeclaresTooMany image.bytes width height) ∧
      ∀ width height, DeclaresTooMany image.bytes width height →
        (step.run tasks [image]).outcome = .error (step.overCapError width height) := by
  refine ⟨decodedImageDimensions_safe, ⟨fun hnone => ?_, ?_⟩, fun width height hmany => ?_⟩
  · by_contra hfew
    push Not at hfew
    rw [run_of_not_declared tasks step hbytes hfew] at hnone
    cases hnone
  · rintro ⟨width, height, hmany⟩
    rw [run_of_declared tasks step hbytes hmany]
  · rw [run_of_declared tasks step hbytes hmany]

/-- 22 bytes that declare a bitmap of 65535 by 65535 pixels. -/
def hugeBitmap : OutputTensor where
  name := "IMAGE"
  datatype := "UINT8"
  shape := [1, 22]
  bytes := [0x42, 0x4D] ++ List.replicate 12 0 ++ [12, 0, 0, 0, 0xFF, 0xFF, 0xFF, 0xFF]

def undecodable : PreprocessTask where
  decodeImage _ := .error "cannot decode"
  preprocess _ _ _ := .ok []

theorem header_scan_guards_hugeBitmap :
    hugeBitmap.bytes ≠ [] ∧
      (run undecodable { step_ := { name := "pre" }, neighbour_ := {} } [hugeBitmap]).decoded = [] := by
  have hbytes : hugeBitmap.bytes ≠ [] := by decide
  have hmany : DeclaresTooMany hugeBitmap.bytes 65535 65535 :=
    ⟨by decide +kernel, by decide, by decide, by decide⟩
  exact ⟨hbytes, (header_scan_guards undecodable _ hbytes).2.1.mpr ⟨65535, 65535, hmany⟩⟩

end PreprocessStep

end neuriplo.pipeline
