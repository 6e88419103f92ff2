import NeuriploRuntime.Loops.Counted
import NeuriploRuntime.Pipeline.PostprocessStep
import NeuriploRuntime.Rows.Fill

open neuriplo.tensor rows

namespace neuriplo.pipeline

variable {φ : Type*} {seg : InstanceSegmentation φ} {pixels mask : List UInt8}

theorem castSize_toInt {value : Int32} (hpositive : 0 ≤ value.toInt) : castSize value.toInt = value.toInt.toNat := by
  have hbound := value.toInt_lt
  unfold castSize
  rw [Int.emod_eq_of_lt hpositive (by omega)]

/-- A place of a box is compared with the frame as if its sum with the origin did not wrap around. -/
theorem source_cases (origin bound : Int32) {offset : Nat} (hoffset : offset < 2 ^ 31) :
    let source := origin + Int32.ofNat offset
    ((source < 0 || bound ≤ source) = true ∧ ¬(0 ≤ origin.toInt + offset ∧ origin.toInt + offset < bound.toInt)) ∨
      ((source < 0 || bound ≤ source) = false ∧ source.toInt = origin.toInt + offset ∧
        0 ≤ origin.toInt + offset ∧ origin.toInt + offset < bound.toInt) := by
  intro source
  have hsum : source.toInt = (origin.toInt + offset).bmod (2 ^ 32) := by
    rw [Int32.toInt_add, Int32.toInt_ofNat_of_lt hoffset]
  have hlow := origin.le_toInt
  have hhigh := origin.toInt_lt
  have hbound := bound.toInt_lt
  rw [Bool.or_eq_true, Bool.or_eq_false_iff]
  simp only [decide_eq_true_eq, decide_eq_false_iff_not, Int32.lt_iff_toInt_lt, Int32.le_iff_toInt_le,
    Int32.toInt_zero, hsum]
  by_cases hwraps : origin.toInt + offset < 2 ^ 31
  · rw [Int.bmod_eq_of_le_mul_two (by omega) (by omega)]
    omega
  · have hwrapped : (origin.toInt + offset).bmod (2 ^ 32) = origin.toInt + offset - 2 ^ 32 := by
      rw [← Int.sub_bmod_right (origin.toInt + offset), Int.bmod_eq_of_le_mul_two (by omega) (by omega)]
      rfl
    rw [hwrapped]
    left
    omega

/-- A place of a frame lies inside it. -/
theorem place_lt {row column width height : Nat} (hrow : row < height) (hcolumn : column < width) :
    row * width + column < width * height := by
  have hrows : (row + 1) * width ≤ height * width := Nat.mul_le_mul_right width hrow
  rw [Nat.add_mul, Nat.one_mul] at hrows
  rw [Nat.mul_comm width height]
  omega

abbrev boxWidth (seg : InstanceSegmentation φ) : Nat := seg.bbox.width.toInt.toNat

abbrev boxHeight (seg : InstanceSegmentation φ) : Nat := seg.bbox.height.toInt.toNat

theorem boxWidth_lt (seg : InstanceSegmentation φ) : boxWidth seg < 2 ^ 31 := by
  have hbound := seg.bbox.width.toInt_lt
  unfold boxWidth
  omega

theorem boxHeight_lt (seg : InstanceSegmentation φ) : boxHeight seg < 2 ^ 31 := by
  have hbound := seg.bbox.height.toInt_lt
  unfold boxHeight
  omega

/-- The row and the column of the box lie inside of the frame. -/
def InFrame (seg : InstanceSegmentation φ) (row column : Nat) : Prop :=
  (0 ≤ seg.bbox.y.toInt + row ∧ seg.bbox.y.toInt + row < seg.mask.rows.toInt) ∧
    0 ≤ seg.bbox.x.toInt + column ∧ seg.bbox.x.toInt + column < seg.mask.cols.toInt

instance (seg : InstanceSegmentation φ) (row column : Nat) : Decidable (InFrame seg row column) :=
  inferInstanceAs (Decidable ((_ ∧ _) ∧ _ ∧ _))

/-- Where the frame holds the pixel of a row and a column of the box. -/
def framePlace (seg : InstanceSegmentation φ) (row column : Nat) : Nat :=
  (seg.bbox.y.toInt + row).toNat * seg.mask.cols.toInt.toNat + (seg.bbox.x.toInt + column).toNat

/-- The pixel of the frame, zero outside of it. -/
def framePixel (seg : InstanceSegmentation φ) (pixels : List UInt8) (row column : Nat) : UInt8 :=
  if InFrame seg row column then pixels.getD (framePlace seg row column) 0 else 0

/-- The byte at a place of the mask. -/
def boxPixel (seg : InstanceSegmentation φ) (pixels : List UInt8) (place : Nat) : UInt8 :=
  framePixel seg pixels (place / boxWidth seg) (place % boxWidth seg)

/-- The pixel at a place of the box. -/
theorem boxPixel_place {row column : Nat} (hcolumn : column < boxWidth seg) :
    boxPixel seg pixels (row * boxWidth seg + column) = framePixel seg pixels row column := by
  have hpositive : 0 < boxWidth seg := by omega
  rw [boxPixel, Nat.mul_comm row, Nat.mul_add_div hpositive, Nat.mul_add_mod, Nat.div_eq_of_lt hcolumn,
    Nat.mod_eq_of_lt hcolumn, Nat.add_zero]

/-- A pixel of the frame is in the buffer of the image. -/
theorem framePlace_lt {row column : Nat} (hdata : seg.mask.data = some pixels) (hframe : InFrame seg row column) :
    framePlace seg row column < pixels.length := by
  obtain ⟨⟨hrow, hrows⟩, hcolumn, hcols⟩ := hframe
  have hholds := seg.mask.holds pixels hdata
  rw [castSize_toInt (by omega), castSize_toInt (by omega), Nat.mul_comm] at hholds
  exact lt_of_lt_of_le (place_lt (by omega) (by omega)) hholds

/-- A column of the box is copied from the frame to its place. -/
theorem copyColumn_filled {row column : Nat} {source_row : Int32} (hdata : seg.mask.data = some pixels)
    (hwidth : 0 < seg.bbox.width.toInt) (hrow : row < boxHeight seg) (hcolumn : column < boxWidth seg)
    (hsource : source_row.toInt = seg.bbox.y.toInt + row)
    (hinside : 0 ≤ seg.bbox.y.toInt + row ∧ seg.bbox.y.toInt + row < seg.mask.rows.toInt)
    (hfilled : Filled (boxPixel seg pixels) 0 (boxWidth seg * boxHeight seg) (row * boxWidth seg + column) mask) :
    ∃ next, copyColumn seg pixels row source_row mask column = some next ∧
      Filled (boxPixel seg pixels) 0 (boxWidth seg * boxHeight seg) (row * boxWidth seg + (column + 1)) next := by
  have hplace : row * boxWidth seg + column < boxWidth seg * boxHeight seg := place_lt hrow hcolumn
  unfold copyColumn
  rcases source_cases seg.bbox.x seg.mask.cols (hcolumn.trans (boxWidth_lt seg)) with
    ⟨houtside, hframe⟩ | ⟨hwithin, hcolumnSource, hframe⟩
  · refine ⟨mask, by rw [if_pos houtside], hfilled.skip (fun place hlow hhigh => ?_) (by omega)⟩
    obtain rfl : place = row * boxWidth seg + column := by omega
    rw [boxPixel_place hcolumn, framePixel, if_neg fun hin => hframe hin.2]
  · have hin : InFrame seg row column := ⟨hinside, hframe⟩
    have hsourcePlace : castSize source_row.toInt * castSize seg.mask.cols.toInt +
        castSize (seg.bbox.x + Int32.ofNat column).toInt = framePlace seg row column := by
      rw [castSize_toInt (by omega), castSize_toInt (by omega), castSize_toInt (by omega), hsource, hcolumnSource]
      rfl
    have hpixel : pixels[framePlace seg row column]? = some (boxPixel seg pixels (row * boxWidth seg + column)) := by
      have hlt := framePlace_lt hdata hin
      rw [boxPixel_place hcolumn, framePixel, if_pos hin, List.getD_eq_getElem?_getD, List.getElem?_eq_getElem hlt,
        Option.getD_some]
    refine ⟨mask.set (row * boxWidth seg + column) (boxPixel seg pixels (row * boxWidth seg + column)), ?_,
      hfilled.set hplace⟩
    rw [if_neg (by rw [hwithin]; exact Bool.false_ne_true), hsourcePlace, hpixel]
    dsimp only
    rw [castSize_toInt hwidth.le, if_pos (by rwa [hfilled.length])]

/-- A row of the box is copied from the frame, or left empty outside of it. -/
theorem copyRow_filled {row : Nat} (hdata : seg.mask.data = some pixels) (hwidth : 0 < seg.bbox.width.toInt)
    (hrow : row < boxHeight seg)
    (hfilled : Filled (boxPixel seg pixels) 0 (boxWidth seg * boxHeight seg) (row * boxWidth seg) mask) :
    ∃ next, copyRow seg pixels mask row = some next ∧
      Filled (boxPixel seg pixels) 0 (boxWidth seg * boxHeight seg) ((row + 1) * boxWidth seg) next := by
  rw [Nat.add_mul, Nat.one_mul]
  unfold copyRow
  rcases source_cases seg.bbox.y seg.mask.rows (hrow.trans (boxHeight_lt seg)) with
    ⟨houtside, hframe⟩ | ⟨hwithin, hsource, hframe⟩
  · refine ⟨mask, by rw [if_pos houtside], hfilled.skip (fun place hlow hhigh => ?_) (by omega)⟩
    obtain ⟨column, rfl⟩ : ∃ column, place = row * boxWidth seg + column := ⟨place - row * boxWidth seg, by omega⟩
    rw [boxPixel_place (by omega), framePixel, if_neg fun hin => hframe hin.1]
  · rw [if_neg (by rw [hwithin]; exact Bool.false_ne_true), castSize_toInt hwidth.le]
    exact loops.foldlM_range
      (fun column => Filled (boxPixel seg pixels) 0 (boxWidth seg * boxHeight seg) (row * boxWidth seg + column))
      hfilled fun column state hcolumn hstate => copyColumn_filled hdata hwidth hrow hcolumn hsource hframe hstate

structure Boxed (seg : InstanceSegmentation φ) : Prop where
  width : 0 < seg.bbox.width.toInt
  height : 0 < seg.bbox.height.toInt

/-- The bytes of the mask are there already. -/
structure DataUsed (seg : InstanceSegmentation φ) : Prop extends Boxed seg where
  size : seg.mask_data.length = boxWidth seg * boxHeight seg

/-- The mask has to come from its image. -/
structure ImageUsed (seg : InstanceSegmentation φ) (pixels : List UInt8) : Prop extends Boxed seg where
  size : seg.mask_data.length ≠ boxWidth seg * boxHeight seg
  present : seg.mask.empty = false
  data : seg.mask.data = some pixels
  rows : 0 < seg.mask.rows.toInt
  cols : 0 < seg.mask.cols.toInt
  pixelType : seg.mask.pixelType = .uint8

/-- The image has the size of the box. Every other one is an image of the whole frame. -/
def BoxSized (seg : InstanceSegmentation φ) : Prop :=
  seg.mask.rows = seg.bbox.height ∧ seg.mask.cols = seg.bbox.width

instance (seg : InstanceSegmentation φ) : Decidable (BoxSized seg) := inferInstanceAs (Decidable (_ ∧ _))

/-- What the bytes of a mask are. -/
structure BoxMask (seg : InstanceSegmentation φ) (mask : List UInt8) : Prop where
  size : mask = [] ∨ (mask.length : Int) = seg.bbox.width.toInt * seg.bbox.height.toInt
  data : DataUsed seg → mask = seg.mask_data
  box_sized : ∀ pixels, ImageUsed seg pixels → BoxSized seg →
    boxWidth seg * boxHeight seg ≤ pixels.length ∧ mask = pixels.take (boxWidth seg * boxHeight seg)
  frame_sized : ∀ pixels, ImageUsed seg pixels → ¬BoxSized seg →
    mask.length = boxWidth seg * boxHeight seg ∧ ∀ row < boxHeight seg, ∀ column < boxWidth seg,
      mask[row * boxWidth seg + column]? = some (framePixel seg pixels row column) ∧
        (InFrame seg row column → framePlace seg row column < pixels.length)
  none : ¬DataUsed seg → (∀ pixels, ¬ImageUsed seg pixels) → mask = []

/-- The box is empty exactly when one of its sides is not positive. -/
theorem not_boxed_iff : (seg.bbox.width ≤ 0 || seg.bbox.height ≤ 0) = true ↔ ¬Boxed seg := by
  rw [Bool.or_eq_true, decide_eq_true_eq, decide_eq_true_eq, Int32.le_iff_toInt_le, Int32.le_iff_toInt_le,
    Int32.toInt_zero]
  constructor
  · rintro hempty ⟨hwidth, hheight⟩
    omega
  · intro hboxed
    by_contra hpositive
    exact hboxed ⟨by omega, by omega⟩

/-- A box has as many pixels as its sides say, and the product does not wrap. -/
theorem Boxed.expected (hboxed : Boxed seg) :
    castSize seg.bbox.width.toInt * castSize seg.bbox.height.toInt = boxWidth seg * boxHeight seg := by
  rw [castSize_toInt hboxed.width.le, castSize_toInt hboxed.height.le]

theorem Boxed.natCast_expected (hboxed : Boxed seg) :
    ((boxWidth seg * boxHeight seg : Nat) : Int) = seg.bbox.width.toInt * seg.bbox.height.toInt := by
  rw [Nat.cast_mul, Int.toNat_of_nonneg hboxed.width.le, Int.toNat_of_nonneg hboxed.height.le]

/-- A mask that comes as data is taken as it is. -/
theorem pipelineBoxSizedMask_data (hused : DataUsed seg) : pipelineBoxSizedMask seg = some seg.mask_data := by
  have hboxed := hused.toBoxed
  unfold pipelineBoxSizedMask
  rw [if_neg fun hempty => not_boxed_iff.mp hempty hboxed, hboxed.expected, if_pos hused.size]

/-- A mask that comes as an image is taken as it is when it has the box's size,
and is cut out of the frame otherwise. -/
theorem pipelineBoxSizedMask_image (hused : ImageUsed seg pixels) :
    pipelineBoxSizedMask seg =
      if BoxSized seg then
        if boxWidth seg * boxHeight seg ≤ pixels.length then some (pixels.take (boxWidth seg * boxHeight seg))
        else none
      else
        (List.range (boxHeight seg)).foldlM (copyRow seg pixels)
          (List.replicate (boxWidth seg * boxHeight seg) 0) := by
  have hboxed := hused.toBoxed
  have himage : ¬(seg.mask.rows ≤ 0 || seg.mask.cols ≤ 0 || seg.mask.pixelType ≠ .uint8) = true := by
    have hrows := hused.rows
    have hcols := hused.cols
    simp only [Bool.or_eq_true, decide_eq_true_eq, Int32.le_iff_toInt_le, Int32.toInt_zero, hused.pixelType,
      ne_eq, not_true_eq_false, or_false]
    omega
  unfold pipelineBoxSizedMask
  rw [if_neg fun hempty => not_boxed_iff.mp hempty hboxed, hboxed.expected, if_neg hused.size,
    if_neg (by rw [hused.present]; exact Bool.false_ne_true), hused.data, castSize_toInt hboxed.height.le]
  dsimp only
  rw [if_neg himage]
  simp only [BoxSized, Bool.and_eq_true, decide_eq_true_eq]
  rfl

/-- Without data and image the mask is empty. -/
theorem pipelineBoxSizedMask_none (hdata : ¬DataUsed seg) (himage : ∀ pixels, ¬ImageUsed seg pixels) :
    pipelineBoxSizedMask seg = some [] := by
  unfold pipelineBoxSizedMask
  by_cases hboxed : Boxed seg
  · have hsize : seg.mask_data.length ≠ boxWidth seg * boxHeight seg := fun hsize => hdata ⟨hboxed, hsize⟩
    rw [if_neg fun hempty => not_boxed_iff.mp hempty hboxed, hboxed.expected, if_neg hsize]
    by_cases hpresent : seg.mask.empty = true
    · rw [if_pos hpresent]
    rw [if_neg hpresent]
    cases hpixels : seg.mask.data with
    | none => rfl
    | some pixels =>
      dsimp only
      rw [if_pos]
      by_contra hgood
      simp only [Bool.or_eq_true, decide_eq_true_eq, Int32.le_iff_toInt_le, Int32.toInt_zero, not_or, not_not,
        not_le] at hgood
      exact himage pixels ⟨hboxed, hsize, Bool.eq_false_iff.mpr hpresent, hpixels, hgood.1.1, hgood.1.2, hgood.2⟩
  · rw [if_pos (not_boxed_iff.mpr hboxed)]

/-- The loop over the rows copies what of the box is in the frame. -/
theorem copyRows_filled (hused : ImageUsed seg pixels) :
    ∃ mask, (List.range (boxHeight seg)).foldlM (copyRow seg pixels)
        (List.replicate (boxWidth seg * boxHeight seg) 0) = some mask ∧
      Filled (boxPixel seg pixels) 0 (boxWidth seg * boxHeight seg) (boxHeight seg * boxWidth seg) mask := by
  refine loops.foldlM_range
    (fun row => Filled (boxPixel seg pixels) 0 (boxWidth seg * boxHeight seg) (row * boxWidth seg)) ?_
    fun row mask hrow hfilled => copyRow_filled hused.data hused.width hrow hfilled
  rw [Nat.zero_mul]
  exact filled_replicate _ _ _

/-- Every instance has a mask, which is read and written inside of its buffers. -/
theorem boxMask (seg : InstanceSegmentation φ) : ∃ mask, pipelineBoxSizedMask seg = some mask ∧ BoxMask seg mask := by
  by_cases hdata : DataUsed seg
  · refine ⟨seg.mask_data, pipelineBoxSizedMask_data hdata, Or.inr ?_, fun _ => rfl, ?_, ?_,
      fun hnot => absurd hdata hnot⟩
    · rw [hdata.size, hdata.toBoxed.natCast_expected]
    · exact fun pixels hused => absurd hdata.size hused.size
    · exact fun pixels hused => absurd hdata.size hused.size
  by_cases hsome : ∃ pixels, ImageUsed seg pixels
  · obtain ⟨pixels, hused⟩ := hsome
    have hunique : ∀ other, ImageUsed seg other → other = pixels := fun other hother =>
      Option.some.inj (hother.data.symm.trans hused.data)
    rw [pipelineBoxSizedMask_image hused]
    by_cases hboxSized : BoxSized seg
    · have hholds := seg.mask.holds pixels hused.data
      rw [hboxSized.1, hboxSized.2, Nat.mul_comm, hused.toBoxed.expected] at hholds
      rw [if_pos hboxSized, if_pos hholds]
      refine ⟨_, rfl, Or.inr ?_, fun h => absurd h hdata, ?_, ?_, fun _ hnot => absurd hused (hnot pixels)⟩
      · rw [List.length_take, Nat.min_eq_left hholds, hused.toBoxed.natCast_expected]
      · intro other hother _
        rw [hunique other hother]
        exact ⟨hholds, rfl⟩
      · exact fun _ _ hframe => absurd hboxSized hframe
    · obtain ⟨mask, hmask, hfilled⟩ := copyRows_filled hused
      rw [if_neg hboxSized, hmask]
      refine ⟨mask, rfl, Or.inr ?_, fun h => absurd h hdata, ?_, ?_, fun _ hnot => absurd hused (hnot pixels)⟩
      · rw [hfilled.length, hused.toBoxed.natCast_expected]
      · exact fun _ _ hbox => absurd hbox hboxSized
      · intro other hother _
        rw [hunique other hother]
        refine ⟨hfilled.length, fun row hrow column hcolumn => ⟨?_, framePlace_lt hused.data⟩⟩
        have hplace := place_lt hrow hcolumn
        rw [hfilled.getElem? _ hplace, if_pos (by rwa [Nat.mul_comm (boxHeight seg)]), boxPixel_place hcolumn]
  · have hnone : ∀ pixels, ¬ImageUsed seg pixels := fun pixels hused => hsome ⟨pixels, hused⟩
    exact ⟨[], pipelineBoxSizedMask_none hdata hnone, Or.inl rfl, fun h => absurd h hdata,
      fun pixels hused => absurd hused (hnone pixels), fun pixels hused => absurd hused (hnone pixels), fun _ _ => rfl⟩

end neuriplo.pipeline
