import Libamg.C.OnesComplement
import Libamg.Net.Ping

/-!
# The Internet checksum

`_in_cksum` adds the words of a buffer in an `int` and folds the sum twice. For a buffer of
65535 bytes the sum stays in the `int`, the two folds are enough, and what is returned is the
complement of the one's complement sum of the words, on a machine of either byte order.
-/

namespace Libamg.Net

open C

/-- The `unsigned short` that two bytes in memory are. -/
def word (bigEndian : Bool) (first second : Byte) : Nat :=
  if bigEndian then 256 * first.toNat + second.toNat else first.toNat + 256 * second.toNat

/-- An `unsigned short` in memory. -/
def wordBytes (bigEndian : Bool) (value : UInt16) : Text :=
  let low := UInt8.ofNat (value.toNat % 256)
  let high := UInt8.ofNat (value.toNat / 256)
  if bigEndian then [high, low] else [low, high]

/-- `sum + value` for numbers that are not negative, where that is an `int`. -/
def addInt (sum value : Nat) : Option Nat := if sum + value < 2 ^ 31 then some (sum + value) else none

/-- The loop over the words, and the last byte in the place of the first of a word. -/
def cksumLoop (bigEndian : Bool) (sum : Nat) : Text → Option Nat
  | [] => some sum
  | [last] => addInt sum (word bigEndian last 0)
  | first :: second :: rest => do
      let sum ← addInt sum (word bigEndian first second)
      cksumLoop bigEndian sum rest

/-- `_in_cksum`, with each addition in the `int`. -/
def inCksumInt (bigEndian : Bool) (buffer : Text) : Option UInt16 := do
  let sum ← cksumLoop bigEndian 0 buffer
  let sum ← addInt (sum >>> 16) (sum &&& 0xFFFF)
  let sum ← addInt sum (sum >>> 16)
  return ~~~ UInt16.ofNat sum

/-- The words of a buffer, with a zero behind a last odd byte. -/
def words (bigEndian : Bool) : Text → List Nat
  | [] => []
  | [last] => [word bigEndian last 0]
  | first :: second :: rest => word bigEndian first second :: words bigEndian rest

/-! ## The words -/

section Words

variable {bigEndian : Bool} {buffer : Text}

theorem word_le (first second : Byte) : word bigEndian first second ≤ 0xFFFF := by
  have low := first.toNat_lt
  have high := second.toNat_lt
  rw [word]
  split <;> omega

@[simp] theorem word_zero : word bigEndian 0 0 = 0 := by
  cases bigEndian <;> rfl

theorem words_le : ∀ value ∈ words bigEndian buffer, value ≤ 0xFFFF := by
  fun_induction words bigEndian buffer with
  | case1 => exact List.forall_mem_nil _
  | case2 last => exact List.forall_mem_singleton.mpr (word_le last 0)
  | case3 first second rest inductionHypothesis =>
      exact List.forall_mem_cons.mpr ⟨word_le first second, inductionHypothesis⟩

theorem words_sum_le : (words bigEndian buffer).sum ≤ 0xFFFF * ((buffer.length + 1) / 2) := by
  fun_induction words bigEndian buffer with
  | case1 => exact Nat.zero_le _
  | case2 last =>
      rw [List.sum_singleton, List.length_singleton]
      exact word_le last 0
  | case3 first second rest inductionHypothesis =>
      have bound := @word_le bigEndian first second
      simp only [List.sum_cons, List.length_cons]
      omega

/-- A part of whole words goes on its own. -/
theorem words_append (even : buffer.length % 2 = 0) (rest : Text) :
    words bigEndian (buffer ++ rest) = words bigEndian buffer ++ words bigEndian rest := by
  fun_induction words bigEndian buffer with
  | case1 => rfl
  | case2 last => cases even
  | case3 first second front inductionHypothesis =>
      have evenFront : front.length % 2 = 0 := by
        rw [List.length_cons, List.length_cons] at even
        omega
      rw [List.cons_append, List.cons_append, words, inductionHypothesis evenFront, List.cons_append]

theorem words_replicate_sum (count : Nat) : (words bigEndian (List.replicate count 0)).sum = 0 := by
  induction count using Nat.twoStepInduction with
  | zero => rfl
  | one => simp [words]
  | more count inductionHypothesis _ =>
      simpa [List.replicate_succ, words] using inductionHypothesis

/-- No sum of words of such a buffer leaves the `int`. -/
theorem words_sum_lt (short : buffer.length ≤ 65535) : (words bigEndian buffer).sum < 2 ^ 31 := by
  have bound := @words_sum_le bigEndian buffer
  omega

theorem wordBytes_length (value : UInt16) : (wordBytes bigEndian value).length = 2 := by
  cases bigEndian <;> rfl

/-- The two bytes of a word in memory are that word. -/
theorem words_wordBytes (value : UInt16) : words bigEndian (wordBytes bigEndian value) = [value.toNat] := by
  have small := value.toNat_lt
  have low : (UInt8.ofNat (value.toNat % 256)).toNat = value.toNat % 256 :=
    UInt8.toNat_ofNat_of_lt' (Nat.mod_lt _ (by decide))
  have high : (UInt8.ofNat (value.toNat / 256)).toNat = value.toNat / 256 :=
    UInt8.toNat_ofNat_of_lt' (by change value.toNat / 256 < 256; omega)
  cases bigEndian with
  | true =>
      simp only [wordBytes, words, word, if_true, low, high]
      congr 1
      omega
  | false =>
      simp only [wordBytes, words, word, Bool.false_eq_true, if_false, low, high]
      congr 1
      omega

end Words

/-! ## The sum -/

section Sum

variable {bigEndian : Bool} {buffer : Text}

theorem addInt_eq {sum value : Nat} (fits : sum + value < 2 ^ 31) :
    addInt sum value = some (sum + value) := if_pos fits

/-- The loop adds up the words where their sum is an `int`: no sum before it is larger. -/
theorem cksumLoop_eq {sum : Nat} (fits : sum + (words bigEndian buffer).sum < 2 ^ 31) :
    cksumLoop bigEndian sum buffer = some (sum + (words bigEndian buffer).sum) := by
  fun_induction words bigEndian buffer generalizing sum with
  | case1 => rfl
  | case2 last =>
      rw [List.sum_singleton] at fits ⊢
      rw [cksumLoop, addInt_eq fits]
  | case3 first second rest inductionHypothesis =>
      rw [List.sum_cons, ← Nat.add_assoc] at fits ⊢
      rw [cksumLoop, addInt_eq (by omega)]
      exact inductionHypothesis fits

/-- Shift and mask take a sum apart. -/
theorem shift_add_mask (sum : Nat) : (sum >>> 16) + (sum &&& 0xFFFF) = foldCarry 0xFFFF sum := by
  have mask : sum &&& 0xFFFF = sum % 2 ^ 16 := Nat.and_two_pow_sub_one_eq_mod sum 16
  rw [Nat.shiftRight_eq_div_pow, mask]
  rfl

/-- All additions stay in the `int`. -/
theorem inCksumInt_eq (fits : (words bigEndian buffer).sum < 2 ^ 31) :
    inCksumInt bigEndian buffer = some (~~~ UInt16.ofNat
      (foldCarry 0xFFFF (words bigEndian buffer).sum +
        foldCarry 0xFFFF (words bigEndian buffer).sum / (0xFFFF + 1))) := by
  have start : 0 + (words bigEndian buffer).sum < 2 ^ 31 := by rwa [Nat.zero_add]
  rw [inCksumInt, cksumLoop_eq start, Nat.zero_add]
  generalize (words bigEndian buffer).sum = sum at fits ⊢
  have once : foldCarry 0xFFFF sum ≤ 2 * 0xFFFF := foldCarry_le (by omega)
  have carry : foldCarry 0xFFFF sum / (0xFFFF + 1) ≤ 2 := by omega
  have shift : foldCarry 0xFFFF sum >>> 16 = foldCarry 0xFFFF sum / (0xFFFF + 1) :=
    Nat.shiftRight_eq_div_pow _ 16
  have first : addInt (sum >>> 16) (sum &&& 0xFFFF) = some (foldCarry 0xFFFF sum) := by
    rw [← shift_add_mask]
    apply addInt_eq
    rw [shift_add_mask]
    omega
  have second : addInt (foldCarry 0xFFFF sum) (foldCarry 0xFFFF sum >>> 16) =
      some (foldCarry 0xFFFF sum + foldCarry 0xFFFF sum / (0xFFFF + 1)) := by
    rw [shift]
    apply addInt_eq
    omega
  simp only [Option.bind_eq_bind, Option.bind_some, first, second]
  rfl

/-- The low word of the second sum is the folded one, and `~` takes it from 65535. -/
theorem toNat_not_folded {sum : Nat} (fits : sum < 2 ^ 31) :
    (~~~ UInt16.ofNat (foldCarry 0xFFFF sum + foldCarry 0xFFFF sum / (0xFFFF + 1))).toNat =
      0xFFFF - foldCarry 0xFFFF (foldCarry 0xFFFF sum) := by
  have once : foldCarry 0xFFFF sum ≤ 2 * 0xFFFF := foldCarry_le (by omega)
  rw [UInt16.toNat_not, UInt16.toNat_ofNat', ← add_carry_mod once]
  rfl

/-- The checksum is determined by the word that the sum of the words comes to. -/
theorem exists_cksum (fits : (words bigEndian buffer).sum < 2 ^ 31) :
    ∃ cksum, inCksumInt bigEndian buffer = some cksum ∧
      ∀ value, Folds 0xFFFF (words bigEndian buffer).sum value → cksum.toNat = 0xFFFF - value := by
  refine ⟨_, inCksumInt_eq fits, fun value folds => ?_⟩
  rw [toNat_not_folded fits, folds.unique (folds_foldCarry_twice (by omega))]

/-- A checksum in the place of zeros makes the checksum 0: with it, the words come to a word
of ones. -/
theorem inCksumInt_stored {front back : Text} {cksum : UInt16} (even : front.length % 2 = 0)
    (short : (front ++ 0 :: 0 :: back).length ≤ 65535)
    (returned : inCksumInt bigEndian (front ++ 0 :: 0 :: back) = some cksum) :
    inCksumInt bigEndian (front ++ wordBytes bigEndian cksum ++ back) = some 0 := by
  have before : words bigEndian (front ++ 0 :: 0 :: back) =
      words bigEndian front ++ 0 :: words bigEndian back := by
    rw [words_append even, words, word_zero]
  have after : words bigEndian (front ++ wordBytes bigEndian cksum ++ back) =
      words bigEndian front ++ cksum.toNat :: words bigEndian back := by
    have two : (wordBytes bigEndian cksum).length % 2 = 0 := by rw [wordBytes_length]
    rw [List.append_assoc, words_append even, words_append two, words_wordBytes,
      List.singleton_append]
  have folds := folds_endAroundSum (@words_le bigEndian (front ++ 0 :: 0 :: back))
  have value : cksum.toNat =
      0xFFFF - endAroundSum 0xFFFF (words bigEndian (front ++ 0 :: 0 :: back)) := by
    obtain ⟨same, returnedSame, complement⟩ := exists_cksum (@words_sum_lt bigEndian _ short)
    obtain rfl : same = cksum := Option.some.inj (returnedSame.symm.trans returned)
    exact complement _ folds
  have sum : (words bigEndian (front ++ wordBytes bigEndian cksum ++ back)).sum =
      (words bigEndian (front ++ 0 :: 0 :: back)).sum + cksum.toNat := by
    rw [before, after]
    simp only [List.sum_append, List.sum_cons]
    omega
  have length : (front ++ wordBytes bigEndian cksum ++ back).length ≤ 65535 := by
    simp only [List.length_append, List.length_cons, wordBytes_length] at short ⊢
    omega
  obtain ⟨second, secondReturned, complement⟩ := exists_cksum (@words_sum_lt bigEndian _ length)
  have whole := folds.add_complement (by decide : 0 < 0xFFFF)
  rw [← value, ← sum] at whole
  have zero : second = 0 := UInt16.toNat.inj (complement _ whole)
  rw [secondReturned, zero]

/-- Zeros behind whole words change nothing. -/
theorem inCksumInt_append_zeros (even : buffer.length % 2 = 0)
    (fits : (words bigEndian buffer).sum < 2 ^ 31) (count : Nat) :
    inCksumInt bigEndian (buffer ++ List.replicate count 0) = inCksumInt bigEndian buffer := by
  have same : (words bigEndian (buffer ++ List.replicate count 0)).sum =
      (words bigEndian buffer).sum := by
    rw [words_append even, List.sum_append, words_replicate_sum, Nat.add_zero]
  rw [inCksumInt_eq fits, inCksumInt_eq (by rwa [same]), same]

/-- For every buffer of at most 65535 bytes the sums stay in the `int` and the complement of
the one's complement sum of the words is returned; stored in the packet in the place of zeros
it makes the checksum 0, and zeros behind whole words change nothing. -/
theorem inCksumInt_onesComplement (bigEndian : Bool) {buffer : Text}
    (short : buffer.length ≤ 65535) :
    ∃ cksum, inCksumInt bigEndian buffer = some cksum ∧
      cksum.toNat = 0xFFFF - endAroundSum 0xFFFF (words bigEndian buffer) ∧
      (∀ front back, buffer = front ++ 0 :: 0 :: back → front.length % 2 = 0 →
        inCksumInt bigEndian (front ++ wordBytes bigEndian cksum ++ back) = some 0) ∧
      (buffer.length % 2 = 0 → ∀ count,
        inCksumInt bigEndian (buffer ++ List.replicate count 0) = some cksum) := by
  have fits := @words_sum_lt bigEndian buffer short
  obtain ⟨cksum, returned, complement⟩ := exists_cksum fits
  refine ⟨cksum, returned, complement _ (folds_endAroundSum words_le), ?_, ?_⟩
  · rintro front back rfl even
    exact inCksumInt_stored even short returned
  · intro even count
    rw [inCksumInt_append_zeros even fits count, returned]

/-- A request with an odd byte behind it. -/
theorem inCksumInt_onesComplement_odd :
    ([8, 0, 0, 0, 7] : Text).length ≤ 65535 ∧ ∃ cksum,
      inCksumInt false [8, 0, 0, 0, 7] = some cksum ∧
        cksum.toNat = 0xFFFF - endAroundSum 0xFFFF [8, 0, 7] := by
  have short : ([8, 0, 0, 0, 7] : Text).length ≤ 65535 := by decide
  obtain ⟨cksum, returned, complement, -⟩ := inCksumInt_onesComplement false short
  exact ⟨short, cksum, returned, complement⟩

end Sum

/-! ## The echo request -/

theorem wordSum_eq (buffer : Text) : wordSum buffer = (words false buffer).sum := by
  fun_induction words false buffer with
  | case1 => rfl
  | case2 last => simp [wordSum, word]
  | case3 first second rest inductionHypothesis =>
      rw [wordSum, inductionHypothesis, List.sum_cons]
      rfl

/-- Without the bounds of the `int` the same is computed. -/
theorem inCksumInt_eq_inCksum {buffer : Text} (short : buffer.length ≤ 65535) :
    inCksumInt false buffer = some (inCksum buffer) := by
  rw [inCksumInt_eq (words_sum_lt short), inCksum, wordSum_eq]
  rfl

/-- The part of the packet that is sent has the checksum 0, although all of it was summed: the
rest is zeros. -/
theorem sentRequest_inCksum : inCksumInt false (echoRequest.bytes.take 64) = some 0 := by
  let packet := (CharArray.zero packetSize).overwrite [icmpEcho]
  have cleared : packet.bytes = ([icmpEcho, 0] ++ 0 :: 0 :: List.replicate 60 0) ++
      List.replicate 128 0 := rfl
  have sent : echoRequest.bytes.take 64 =
      [icmpEcho, 0] ++ wordBytes false (inCksum packet.bytes) ++ List.replicate 60 0 := rfl
  have short : ([icmpEcho, 0] ++ 0 :: 0 :: List.replicate 60 0).length ≤ 65535 := by decide
  have summed : inCksumInt false packet.bytes = some (inCksum packet.bytes) :=
    inCksumInt_eq_inCksum (by rw [packet.size_eq]; decide)
  rw [sent]
  apply inCksumInt_stored rfl short
  rw [← summed, cleared]
  exact (inCksumInt_append_zeros (by decide) (words_sum_lt short) 128).symm

end Libamg.Net
