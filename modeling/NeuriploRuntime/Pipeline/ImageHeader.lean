import NeuriploRuntime.Numeral.Word

open numeral

namespace neuriplo.pipeline

/-- The `count` bytes at an offset, none when one of them is read behind the end of the buffer. -/
def bytesAt (data : List UInt8) (offset count : Nat) : Option (List UInt8) :=
  (List.range count).mapM fun index => data[offset + index]?

def littleEndian (word : List UInt8) : Int := WordFormat.unsignedValue word

def bigEndian (word : List UInt8) : Int := WordFormat.unsignedValue word.reverse

/-- Bytes inside the buffer can be read. -/
theorem bytesAt_of_le (data : List UInt8) (offset count : Nat) (hinside : offset + count ≤ data.length) :
    ∃ word, bytesAt data offset count = some word ∧ word.length = count := by
  unfold bytesAt
  induction count with
  | zero => exact ⟨[], rfl, rfl⟩
  | succ count ih =>
    obtain ⟨word, hword, hlength⟩ := ih (by omega)
    have hlast : data[offset + count]? = some data[offset + count] := List.getElem?_eq_getElem (by omega)
    refine ⟨word ++ [data[offset + count]], ?_, by simp [hlength]⟩
    rw [List.range_succ, List.mapM_append, hword]
    simp [hlast]

/-- A word is a natural number of its size. -/
theorem unsignedValue_bounds (word : List UInt8) :
    0 ≤ WordFormat.unsignedValue word ∧ WordFormat.unsignedValue word < 256 ^ word.length := by
  induction word with
  | nil => simp [WordFormat.unsignedValue]
  | cons byte word ih =>
    have hbyte : byte.toNat < 256 := byte.toNat_lt
    rw [WordFormat.unsignedValue, List.length_cons, pow_succ]
    omega

def kPngSignature : List UInt8 := [0x89, 0x50, 0x4E, 0x47, 0x0D, 0x0A, 0x1A, 0x0A]

/-- The name of the chunk with the dimensions, "IHDR". -/
def kPngHeaderChunk : List UInt8 := [0x49, 0x48, 0x44, 0x52]

/-- Width and height out of the header, if it has them. None outside says that a read went out of the
buffer. -/
abbrev Scan := Option (Option (Int × Int))

/-- The walk over the chunks of a PNG. -/
def pngDimensions (data : List UInt8) (offset : Nat) : Scan :=
  if offset + 12 ≤ data.length then
    match bytesAt data offset 4, bytesAt data (offset + 4) 4 with
    | some chunk_length, some chunk_type =>
      if chunk_type = kPngHeaderChunk then
        if data.length < offset + 16 then some none
        else
          match bytesAt data (offset + 8) 4, bytesAt data (offset + 12) 4 with
          | some width, some height => some (some (bigEndian width, bigEndian height))
          | _, _ => none
      else pngDimensions data (offset + (12 + (bigEndian chunk_length).toNat))
    | _, _ => none
  else some none
termination_by data.length - offset

/-- The first byte from `offset` on that is not a fill byte, or the end of the buffer. -/
def skipFill (data : List UInt8) (offset : Nat) : Option Nat :=
  if offset < data.length then
    match data[offset]? with
    | none => none
    | some byte => if byte = 0xFF then skipFill data (offset + 1) else some offset
  else some offset
termination_by data.length - offset

/-- Fill bytes are skipped forward. -/
theorem le_of_skipFill {data : List UInt8} {offset stop : Nat} (hskip : skipFill data offset = some stop) :
    offset ≤ stop := by
  induction offset using skipFill.induct data with
  | case1 offset hinside hread =>
    rw [skipFill, if_pos hinside, hread] at hskip
    cases hskip
  | case2 offset hinside hread ih =>
    rw [skipFill, if_pos hinside, hread] at hskip
    simp only [if_true] at hskip
    exact Nat.le_of_succ_le (ih hskip)
  | case3 offset hinside byte hread hfill =>
    rw [skipFill, if_pos hinside, hread] at hskip
    simp only [hfill, if_false, Option.some.injEq] at hskip
    exact hskip.le
  | case4 offset hinside =>
    rw [skipFill, if_neg hinside] at hskip
    cases hskip
    exact le_refl _

/-- Markers without a payload. -/
def isStandalone (marker : UInt8) : Bool := marker = 0x01 || (0xD0 ≤ marker && marker ≤ 0xD9)

def isStartOfFrame (marker : UInt8) : Bool :=
  0xC0 ≤ marker && marker ≤ 0xCF && marker ≠ 0xC4 && marker ≠ 0xC8 && marker ≠ 0xCC

/-- The walk over the segments of a JPEG. Only behind the first marker bytes that are no marker are
passed over. -/
def jpegDimensions (data : List UInt8) (offset : Nat) (first_marker : Bool) : Scan :=
  if offset < data.length then
    match data[offset]? with
    | none => none
    | some byte =>
      if byte ≠ 0xFF then if first_marker then some none else jpegDimensions data (offset + 1) first_marker
      else
        match hskip : skipFill data (offset + 1) with
        | none => none
        | some code_offset =>
          if data.length ≤ code_offset then some none
          else
            match data[code_offset]? with
            | none => none
            | some marker =>
              if isStandalone marker then
                have := le_of_skipFill hskip
                jpegDimensions data (code_offset + 1) false
              else if isStartOfFrame marker then
                if data.length ≤ code_offset + 7 then some none
                else
                  match bytesAt data (code_offset + 4) 2, bytesAt data (code_offset + 6) 2 with
                  | some height, some width => some (some (bigEndian width, bigEndian height))
                  | _, _ => none
              else if data.length ≤ code_offset + 2 then some none
              else
                match bytesAt data (code_offset + 1) 2 with
                | none => none
                | some segment_length =>
                  if bigEndian segment_length < 2 then some none
                  else
                    have := le_of_skipFill hskip
                    jpegDimensions data (code_offset + 1 + (bigEndian segment_length).toNat) false
  else some none
termination_by data.length - offset

def jpegScan (data : List UInt8) : Scan :=
  match skipFill data 0 with
  | none => none
  | some soi_offset =>
    if data.length ≤ soi_offset then some none
    else
      match data[soi_offset]? with
      | none => none
      | some byte => if byte ≠ 0xD8 then some none else jpegDimensions data (soi_offset + 1) true

/-- Rows stored the other way round have a negative height; the magnitude is taken after widening. -/
def bmpScan (data : List UInt8) : Scan :=
  match (bytesAt data 14 4).map littleEndian with
  | none => none
  | some header_size =>
    if header_size = 12 then
      if data.length < 22 then some none
      else
        match bytesAt data 18 2, bytesAt data 20 2 with
        | some width, some height => some (some (littleEndian width, littleEndian height))
        | _, _ => none
    else if header_size = 40 ∨ header_size = 56 ∨ header_size = 108 ∨ header_size = 124 then
      if data.length < 26 then some none
      else
        match bytesAt data 18 4, bytesAt data 22 4 with
        | some width, some height =>
          let read_i32_le := WordFormat.decode { signed := true, size := 4 }
          some (some (|read_i32_le width|, |read_i32_le height|))
        | _, _ => none
    else some none

/-- A buffer of at least `minimum` bytes that begins with `magic`. -/
def beginsWith (data : List UInt8) (minimum : Nat) (magic : List UInt8) : Option Bool :=
  if minimum ≤ data.length then (bytesAt data 0 magic.length).map fun word => decide (word = magic)
  else some false

/-- A buffer has fewer than 2^63 bytes, so no sum of an offset and a length wraps in a `size_t`. -/
def decodedImageDimensions (data : List UInt8) : Scan :=
  (beginsWith data 8 kPngSignature).bind fun png =>
    if png then pngDimensions data 8
    else
      (beginsWith data 2 [0xFF]).bind fun jpeg =>
        if jpeg then jpegScan data
        else (beginsWith data 18 [0x42, 0x4D]).bind fun bmp => if bmp then bmpScan data else some none

/-- Both dimensions are ones an unsigned 32-bit word can hold. -/
def InWord (dimensions : Int × Int) : Prop :=
  (0 ≤ dimensions.1 ∧ dimensions.1 < 2 ^ 32) ∧ 0 ≤ dimensions.2 ∧ dimensions.2 < 2 ^ 32

/-- A scan that reads nothing but the buffer, and finds dimensions of 32 bits if it finds any. -/
def Scan.Safe (scan : Scan) : Prop := ∃ found, scan = some found ∧ ∀ dimensions ∈ found, InWord dimensions

theorem Scan.safe_nothing : Scan.Safe (some none) := ⟨none, rfl, nofun⟩

/-- Dimensions of 32 bits are safe. -/
theorem Scan.safe_found {width height : Int} (hwidth : 0 ≤ width ∧ width < 2 ^ 32)
    (hheight : 0 ≤ height ∧ height < 2 ^ 32) : Scan.Safe (some (some (width, height))) := by
  refine ⟨_, rfl, fun dimensions hmem => ?_⟩
  cases hmem
  exact ⟨hwidth, hheight⟩

/-- A word of at most four bytes has 32 bits, in either order. -/
theorem word_bounds {word : List UInt8} (hlength : word.length ≤ 4) :
    (0 ≤ littleEndian word ∧ littleEndian word < 2 ^ 32) ∧ 0 ≤ bigEndian word ∧ bigEndian word < 2 ^ 32 := by
  have hpow : (256 : Int) ^ word.length ≤ 2 ^ 32 :=
    (pow_le_pow_right₀ (by norm_num) hlength).trans_eq (by norm_num)
  obtain ⟨hlow, hhigh⟩ := unsignedValue_bounds word
  obtain ⟨hlowBig, hhighBig⟩ := unsignedValue_bounds word.reverse
  rw [List.length_reverse] at hhighBig
  exact ⟨⟨hlow, hhigh.trans_le hpow⟩, hlowBig, hhighBig.trans_le hpow⟩

/-- The scan of a PNG header stays inside the buffer. -/
theorem pngDimensions_safe (data : List UInt8) (offset : Nat) : Scan.Safe (pngDimensions data offset) := by
  -- every chunk that is passed over is at least 12 bytes long
  induction hleft : data.length - offset using Nat.strong_induction_on generalizing offset with
  | _ left ih =>
    subst hleft
    rw [pngDimensions]
    by_cases hchunk : offset + 12 ≤ data.length
    · rw [if_pos hchunk]
      obtain ⟨chunk_length, hlength, -⟩ := bytesAt_of_le data offset 4 (by omega)
      obtain ⟨chunk_type, htype, -⟩ := bytesAt_of_le data (offset + 4) 4 (by omega)
      rw [hlength, htype]
      dsimp only
      by_cases hheader : chunk_type = kPngHeaderChunk
      · rw [if_pos hheader]
        by_cases htruncated : data.length < offset + 16
        · rw [if_pos htruncated]
          exact Scan.safe_nothing
        · obtain ⟨width, hwidth, hwidthLength⟩ :=
            bytesAt_of_le data (offset + 8) 4 (by omega)
          obtain ⟨height, hheight, hheightLength⟩ :=
            bytesAt_of_le data (offset + 12) 4 (by omega)
          rw [if_neg htruncated, hwidth, hheight]
          exact Scan.safe_found (word_bounds hwidthLength.le).2 (word_bounds hheightLength.le).2
      · rw [if_neg hheader]
        exact ih _ (by omega) _ rfl
    · rw [if_neg hchunk]
      exact Scan.safe_nothing

/-- Skipping fill bytes stays inside the buffer. -/
theorem skipFill_some (data : List UInt8) (offset : Nat) : ∃ stop, skipFill data offset = some stop := by
  induction hleft : data.length - offset using Nat.strong_induction_on generalizing offset with
  | _ left ih =>
    subst hleft
    rw [skipFill]
    by_cases hinside : offset < data.length
    · rw [if_pos hinside, List.getElem?_eq_getElem hinside]
      dsimp only
      split
      · exact ih _ (by omega) _ rfl
      · exact ⟨offset, rfl⟩
    · rw [if_neg hinside]
      exact ⟨offset, rfl⟩

/-- The scan of JPEG segments stays inside the buffer and ends. -/
theorem jpegDimensions_safe (data : List UInt8) (offset : Nat) (first_marker : Bool) :
    Scan.Safe (jpegDimensions data offset first_marker) := by
  -- every turn of the loop ends behind the byte it began at
  induction hleft : data.length - offset using Nat.strong_induction_on generalizing offset first_marker with
  | _ left ih =>
    subst hleft
    rw [jpegDimensions]
    split
    · rename_i hinside
      rw [List.getElem?_eq_getElem hinside]
      dsimp only
      split
      · split
        · exact Scan.safe_nothing
        · exact ih _ (by omega) _ _ rfl
      · split
        · rename_i hskip
          obtain ⟨stop, hstop⟩ := skipFill_some data (offset + 1)
          rw [hskip] at hstop
          cases hstop
        · rename_i code_offset hskip
          have hforward := le_of_skipFill hskip
          split
          · exact Scan.safe_nothing
          · rename_i hcode
            rw [List.getElem?_eq_getElem (by omega)]
            dsimp only
            split
            · exact ih _ (by omega) _ _ rfl
            · split
              · split
                · exact Scan.safe_nothing
                · obtain ⟨height, hheight, hheightLength⟩ :=
                    bytesAt_of_le data (code_offset + 4) 2 (by omega)
                  obtain ⟨width, hwidth, hwidthLength⟩ :=
                    bytesAt_of_le data (code_offset + 6) 2 (by omega)
                  rw [hheight, hwidth]
                  exact Scan.safe_found (word_bounds (by omega)).2 (word_bounds (by omega)).2
              · split
                · exact Scan.safe_nothing
                · obtain ⟨segment_length, hlength, -⟩ :=
                    bytesAt_of_le data (code_offset + 1) 2 (by omega)
                  rw [hlength]
                  dsimp only
                  split
                  · exact Scan.safe_nothing
                  · exact ih _ (by omega) _ _ rfl
    · exact Scan.safe_nothing

theorem jpegScan_safe (data : List UInt8) : Scan.Safe (jpegScan data) := by
  obtain ⟨soi_offset, hskip⟩ := skipFill_some data 0
  rw [jpegScan, hskip]
  dsimp only
  split
  · exact Scan.safe_nothing
  · rw [List.getElem?_eq_getElem (by omega)]
    dsimp only
    split
    · exact Scan.safe_nothing
    · exact jpegDimensions_safe data _ _

/-- The magnitude of a signed word fits in an unsigned one. -/
theorem signed_bounds (word : List UInt8) :
    0 ≤ |WordFormat.decode { signed := true, size := 4 } word| ∧
      |WordFormat.decode { signed := true, size := 4 } word| < 2 ^ 32 := by
  refine ⟨abs_nonneg _, ?_⟩
  have hlow := Int.le_bmod (x := WordFormat.unsignedValue word) (m := 2 ^ 32) (by norm_num)
  have hhigh := Int.bmod_lt (x := WordFormat.unsignedValue word) (m := 2 ^ 32) (by norm_num)
  rw [abs_lt]
  simp only [WordFormat.decode, if_true]
  norm_num at hlow hhigh ⊢
  omega

theorem bmpScan_safe {data : List UInt8} (hsize : 18 ≤ data.length) : Scan.Safe (bmpScan data) := by
  obtain ⟨header, hheader, -⟩ := bytesAt_of_le data 14 4 (by omega)
  rw [bmpScan, hheader, Option.map_some]
  dsimp only
  split
  · split
    · exact Scan.safe_nothing
    · obtain ⟨width, hwidth, hwidthLength⟩ := bytesAt_of_le data 18 2 (by omega)
      obtain ⟨height, hheight, hheightLength⟩ := bytesAt_of_le data 20 2 (by omega)
      rw [hwidth, hheight]
      exact Scan.safe_found (word_bounds (by omega)).1 (word_bounds (by omega)).1
  · split
    · split
      · exact Scan.safe_nothing
      · obtain ⟨width, hwidth, -⟩ := bytesAt_of_le data 18 4 (by omega)
        obtain ⟨height, hheight, -⟩ := bytesAt_of_le data 22 4 (by omega)
        rw [hwidth, hheight]
        exact Scan.safe_found (signed_bounds width) (signed_bounds height)
    · exact Scan.safe_nothing

/-- A magic number is compared with bytes of the buffer only. -/
theorem beginsWith_some (data : List UInt8) (minimum : Nat) (magic : List UInt8) (hmagic : magic.length ≤ minimum) :
    ∃ begins, beginsWith data minimum magic = some begins ∧ (begins = true → minimum ≤ data.length) := by
  unfold beginsWith
  split
  · rename_i hsize
    obtain ⟨word, hword, -⟩ := bytesAt_of_le data 0 magic.length (by omega)
    exact ⟨decide (word = magic), by rw [hword, Option.map_some], fun _ => hsize⟩
  · exact ⟨false, rfl, nofun⟩

/-- Whatever the format, the scan stays inside the buffer and ends. -/
theorem decodedImageDimensions_safe (data : List UInt8) : Scan.Safe (decodedImageDimensions data) := by
  obtain ⟨png, hpng, -⟩ := beginsWith_some data 8 kPngSignature (by decide)
  obtain ⟨jpeg, hjpeg, -⟩ := beginsWith_some data 2 [0xFF] (by decide)
  obtain ⟨bmp, hbmp, hsize⟩ := beginsWith_some data 18 [0x42, 0x4D] (by decide)
  simp only [decodedImageDimensions, hpng, hjpeg, hbmp, Option.bind_some]
  cases png with
  | true => exact pngDimensions_safe data 8
  | false =>
    cases jpeg with
    | true => exact jpegScan_safe data
    | false =>
      cases bmp with
      | true => exact bmpScan_safe (hsize rfl)
      | false => exact Scan.safe_nothing

end neuriplo.pipeline
