import Mathlib.Algebra.Order.Ring.Int
import Mathlib.Tactic.Positivity
import NeuriploRuntime.Rows.Slice

namespace numeral

/-- Words of `size` bytes, the least significant first. Signed ones are in two's
complement. -/
structure WordFormat where
  signed : Bool
  size : Nat
deriving DecidableEq, Repr

namespace WordFormat

/-- The words of a format have one for this value. -/
def Holds (format : WordFormat) (value : Int) : Prop :=
  if format.signed then -2 ^ (8 * format.size) ≤ 2 * value ∧ 2 * value < 2 ^ (8 * format.size)
  else 0 ≤ value ∧ value < 2 ^ (8 * format.size)

instance (format : WordFormat) (value : Int) : Decidable (format.Holds value) := by
  unfold Holds
  infer_instance

/-- The word of a value, which wraps where the format does not hold it. -/
def encode : Nat → Int → List UInt8
  | 0, _ => []
  | size + 1, value => UInt8.ofNat (value % 256).toNat :: encode size (value / 256)

def unsignedValue : List UInt8 → Int
  | [] => 0
  | byte :: word => byte.toNat + 256 * unsignedValue word

def decode (format : WordFormat) (word : List UInt8) : Int :=
  if format.signed then (unsignedValue word).bmod (2 ^ (8 * format.size)) else unsignedValue word

/-- The words of a buffer. -/
def decodeAll (format : WordFormat) (buffer : List UInt8) : List Int :=
  (List.range (buffer.length / format.size)).map fun index => format.decode (rows.slice format.size index 1 buffer)

/-- A value is written in as many bytes as the format has. -/
@[simp] theorem length_encode (size : Nat) (value : Int) : (encode size value).length = size := by
  induction size generalizing value with
  | zero => rfl
  | succ size ih => rw [encode, List.length_cons, ih]

/-- The low byte of a remainder and what is above it. -/
theorem emod_byte_mul (value : Int) {rest : Int} (hrest : 0 < rest) :
    value % (256 * rest) = value % 256 + 256 * (value / 256 % rest) := by
  have hlow := Int.emod_nonneg value (show (256 : Int) ≠ 0 by decide)
  have hlowLt := Int.emod_lt_of_pos value (show (0 : Int) < 256 by decide)
  have hhigh := Int.emod_nonneg (value / 256) (Int.ne_of_gt hrest)
  have hhighLt := Int.emod_lt_of_pos (value / 256) hrest
  have hsum : value % 256 + 256 * (value / 256 % rest) + 256 * rest * (value / 256 / rest) = value := by
    rw [Int.mul_assoc, Int.add_assoc, ← Int.mul_add, Int.emod_add_mul_ediv, Int.emod_add_mul_ediv]
  exact ((Int.ediv_emod_unique (by omega)).mpr ⟨hsum, by omega, by omega⟩).2

/-- What is written reads back modulo the format's range. -/
theorem unsignedValue_encode (size : Nat) (value : Int) :
    unsignedValue (encode size value) = value % 2 ^ (8 * size) := by
  induction size generalizing value with
  | zero => simp [encode, unsignedValue]
  | succ size ih =>
    have hnonneg : 0 ≤ value % 256 := Int.emod_nonneg value (by decide)
    have hlt : value % 256 < 256 := Int.emod_lt_of_pos value (by decide)
    have hbyte : ((UInt8.ofNat (value % 256).toNat).toNat : Int) = value % 256 := by
      rw [UInt8.toNat_ofNat_of_lt' (by simp only [UInt8.size]; omega), Int.toNat_of_nonneg hnonneg]
    have hpow : (2 : Int) ^ (8 * (size + 1)) = 256 * 2 ^ (8 * size) := by
      rw [Nat.mul_succ, pow_add, Int.mul_comm]
      rfl
    rw [encode, unsignedValue, ih, hbyte, hpow, emod_byte_mul value (by positivity)]

variable {format : WordFormat}

theorem Holds.natAbs_le {value : Int} (hholds : format.Holds value) : value.natAbs ≤ 2 ^ (8 * format.size) := by
  unfold Holds at hholds
  have hcast : ((2 ^ (8 * format.size) : Nat) : Int) = 2 ^ (8 * format.size) := by push_cast; rfl
  rw [← hcast] at hholds
  split at hholds
  · omega
  · omega

/-- A value the format holds reads back. -/
theorem decode_encode {value : Int} (hholds : format.Holds value) :
    format.decode (encode format.size value) = value := by
  rw [decode, unsignedValue_encode]
  unfold Holds at hholds
  cases hsigned : format.signed with
  | true =>
    rw [hsigned, if_pos rfl] at hholds
    rw [if_pos rfl]
    have hcast : ((2 ^ (8 * format.size) : Nat) : Int) = 2 ^ (8 * format.size) := by push_cast; rfl
    rw [← hcast, Int.emod_bmod]
    rw [← hcast] at hholds
    exact Int.bmod_eq_of_le_mul_two (by omega) (by omega)
  | false =>
    rw [hsigned, if_neg Bool.false_ne_true] at hholds
    rw [if_neg Bool.false_ne_true]
    exact Int.emod_eq_of_lt hholds.1 hholds.2

/-- Different values have different words. -/
theorem encode_inj {value other : Int} (hvalue : format.Holds value) (hother : format.Holds other) :
    encode format.size value = encode format.size other ↔ value = other := by
  constructor
  · intro hequal
    rw [← decode_encode hvalue, hequal, decode_encode hother]
  · rintro rfl
    rfl

theorem length_flatMap_encode (size : Nat) (values : List Int) :
    (values.flatMap (encode size)).length = values.length * size := by
  have hlength := @rows.length_flatMap_rows UInt8 Int size values (encode size) (fun _ => 1) (by simp)
  rw [hlength, List.map_const', List.sum_replicate_nat, Nat.mul_one]

/-- Values the format holds read back one after the other. -/
theorem decodeAll_flatMap_encode (hsize : 0 < format.size) {values : List Int}
    (hholds : ∀ value ∈ values, format.Holds value) :
    format.decodeAll (values.flatMap (encode format.size)) = values := by
  rw [decodeAll, length_flatMap_encode, Nat.mul_div_cancel _ hsize]
  apply List.ext_getElem
  · rw [List.length_map, List.length_range]
  · intro index hleft hright
    rw [List.getElem_map, List.getElem_range]
    obtain ⟨before, after, hsplit, hbefore⟩ := rows.split_of_getElem? (List.getElem?_eq_getElem hright)
    have hslice := @rows.slice_flatMap UInt8 Int format.size before after values[index] (encode format.size)
      (fun _ => 1) (by simp) (by simp)
    rw [← hsplit, List.map_const', List.sum_replicate_nat, Nat.mul_one, hbefore,
      rows.slice_whole (by simp)] at hslice
    rw [hslice]
    exact decode_encode (hholds _ (List.getElem_mem hright))

end WordFormat

end numeral
