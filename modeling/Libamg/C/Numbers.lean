import Libamg.C.Memory
import Mathlib.Data.Nat.Digits.Defs
import Mathlib.Algebra.Group.Nat.Defs

/-!
# Numbers in memory

An unsigned number of a fixed width as the bytes it is stored in, on a machine of either
byte order. Storing truncates it to the width; what has been stored is loaded again, and
storing what was loaded gives the same bytes.
-/

namespace Libamg.C

/-- The lowest `width` bytes of a number, the lowest one first. -/
def lowBytes : Nat → Nat → Text
  | 0, _ => []
  | width + 1, value => UInt8.ofNat value :: lowBytes width (value / 256)

/-- A number as it is stored in `width` bytes. -/
def storeNum (bigEndian : Bool) (width value : Nat) : Text :=
  if bigEndian then (lowBytes width value).reverse else lowBytes width value

/-- The number that bytes in memory are. -/
def loadNum (bigEndian : Bool) (bytes : Text) : Nat :=
  Nat.ofDigits 256 ((if bigEndian then bytes.reverse else bytes).map UInt8.toNat)

/-- Load a number of `width` bytes from an offset of a memory block. -/
def readNum (bigEndian : Bool) (memory : Text) (offset width : Nat) : Checked Nat :=
  if offset + width ≤ memory.length then .ok (loadNum bigEndian ((memory.drop offset).take width))
  else .error .outOfBounds

@[simp] theorem lowBytes_length (width value : Nat) : (lowBytes width value).length = width := by
  induction width generalizing value with
  | zero => rfl
  | succ width inductionHypothesis => rw [lowBytes, List.length_cons, inductionHypothesis]

theorem ofDigits_lowBytes (width value : Nat) :
    Nat.ofDigits 256 ((lowBytes width value).map UInt8.toNat) = value % 256 ^ width := by
  induction width generalizing value with
  | zero => exact (Nat.mod_one value).symm
  | succ width inductionHypothesis =>
      rw [lowBytes, List.map_cons, Nat.ofDigits_cons, inductionHypothesis, Nat.pow_succ',
        Nat.mod_mul, UInt8.toNat_ofNat']

theorem lowBytes_ofDigits (bytes : Text) :
    lowBytes bytes.length (Nat.ofDigits 256 (bytes.map UInt8.toNat)) = bytes := by
  induction bytes with
  | nil => rfl
  | cons byte bytes inductionHypothesis =>
      have bound := byte.toNat_lt
      have lowest : (Nat.ofDigits 256 ((byte :: bytes).map UInt8.toNat)) % 256 = byte.toNat := by
        rw [List.map_cons, Nat.ofDigits_cons, Nat.add_mul_mod_self_left]
        exact Nat.mod_eq_of_lt bound
      have others : (Nat.ofDigits 256 ((byte :: bytes).map UInt8.toNat)) / 256 =
          Nat.ofDigits 256 (bytes.map UInt8.toNat) := by
        rw [List.map_cons, Nat.ofDigits_cons, Nat.add_mul_div_left _ _ (by decide),
          Nat.div_eq_of_lt bound, Nat.zero_add]
      have first : UInt8.ofNat (Nat.ofDigits 256 ((byte :: bytes).map UInt8.toNat)) = byte := by
        apply UInt8.toNat_inj.mp
        rw [UInt8.toNat_ofNat']
        exact lowest
      rw [List.length_cons, lowBytes, first, others, inductionHypothesis]

section Stored

variable (bigEndian : Bool)

@[simp] theorem storeNum_length (width value : Nat) :
    (storeNum bigEndian width value).length = width := by
  cases bigEndian
  · exact lowBytes_length width value
  · exact (List.length_reverse).trans (lowBytes_length width value)

/-- A number is loaded as it was stored, truncated to its width. -/
theorem loadNum_storeNum (width value : Nat) :
    loadNum bigEndian (storeNum bigEndian width value) = value % 256 ^ width := by
  cases bigEndian
  · exact ofDigits_lowBytes width value
  · rw [loadNum, storeNum, if_pos rfl, if_pos rfl, List.reverse_reverse]
    exact ofDigits_lowBytes width value

/-- Bytes are stored as they were loaded. -/
theorem storeNum_loadNum (bytes : Text) :
    storeNum bigEndian bytes.length (loadNum bigEndian bytes) = bytes := by
  cases bigEndian
  · exact lowBytes_ofDigits bytes
  · have reversed := lowBytes_ofDigits bytes.reverse
    rw [List.length_reverse] at reversed
    rw [storeNum, loadNum, if_pos rfl, if_pos rfl, reversed, List.reverse_reverse]

theorem loadNum_lt (bytes : Text) : loadNum bigEndian bytes < 256 ^ bytes.length := by
  have stored := loadNum_storeNum bigEndian bytes.length (loadNum bigEndian bytes)
  rw [storeNum_loadNum] at stored
  rw [stored]
  exact Nat.mod_lt _ (Nat.pow_pos (by decide))

/-- A number of one byte. -/
theorem loadNum_singleton (byte : Byte) : loadNum bigEndian [byte] = byte.toNat := by
  cases bigEndian <;> exact Nat.ofDigits_singleton

variable {bigEndian}

theorem readNum_inside {memory : Text} {offset width : Nat} (inside : offset + width ≤ memory.length) :
    readNum bigEndian memory offset width =
      .ok (loadNum bigEndian ((memory.drop offset).take width)) := if_pos inside

theorem readNum_overrun {memory : Text} {offset width : Nat} (behind : memory.length < offset + width) :
    readNum bigEndian memory offset width = .error .outOfBounds := if_neg (Nat.not_le.mpr behind)

/-- What lies behind a number does not matter. -/
theorem readNum_append {memory : Text} {offset width : Nat} (inside : offset + width ≤ memory.length)
    (behind : Text) :
    readNum bigEndian (memory ++ behind) offset width = readNum bigEndian memory offset width := by
  have longer : offset + width ≤ (memory ++ behind).length := by
    rw [List.length_append]
    omega
  have short : width ≤ (memory.drop offset).length := by
    rw [List.length_drop]
    omega
  rw [readNum_inside longer, readNum_inside inside, List.drop_append_of_le_length (by omega),
    List.take_append_of_le_length short]

/-- A number of `width` bytes is read as one below `256 ^ width`. -/
theorem readNum_lt {memory : Text} {offset width value : Nat}
    (read : readNum bigEndian memory offset width = .ok value) : value < 256 ^ width := by
  by_cases inside : offset + width ≤ memory.length
  · rw [readNum_inside inside] at read
    cases read
    have length : ((memory.drop offset).take width).length = width := by
      rw [List.length_take, List.length_drop]
      omega
    have bound := loadNum_lt bigEndian ((memory.drop offset).take width)
    rwa [length] at bound
  · rw [readNum_overrun (Nat.not_le.mp inside)] at read
    cases read

end Stored

/-! ## Numbers as an `int` -/

/-- What an `int` of 32 bits keeps of a number. -/
def asInt (value : Int) : Int := Int.bmod value 4294967296

theorem asInt_eq {value : Int} (low : -2147483648 ≤ value) (high : value < 2147483648) :
    asInt value = value := by
  simp only [asInt, Int.bmod_def]
  split <;> omega

/-- An unsigned difference that is no negative `int` is the difference. -/
theorem asInt_sub {length front : Nat} (small : length < 4294967296) (short : front ≤ 2147483648)
    (nonneg : ¬ asInt ((length : Int) - front) < 0) :
    asInt ((length : Int) - front) = ((length - front : Nat) : Int) ∧ front ≤ length := by
  simp only [asInt, Int.bmod_def] at *
  split at nonneg <;> split <;> omega

end Libamg.C
