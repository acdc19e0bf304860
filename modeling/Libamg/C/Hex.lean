import Libamg.C.Tokens
import Mathlib.Data.Nat.Digits.Lemmas

/-!
# Hexadecimal numbers

The `%x` conversion, and `%hhx` as `sscanf` reads a list of bytes with it. Bytes printed
with two digits each and a separator between them are read back (`scanBytes_printBytes`).
-/

namespace Libamg.C

/-- The character of one hexadecimal digit. -/
def hexDigit (digit : Nat) : Byte :=
  if digit < 10 then UInt8.ofNat (48 + digit) else UInt8.ofNat (87 + digit)

/-- `isxdigit`. -/
def isHexDigit (byte : Byte) : Bool :=
  (48 ≤ byte && byte ≤ 57) || (65 ≤ byte && byte ≤ 70) || (97 ≤ byte && byte ≤ 102)

/-- The value of a hexadecimal digit. -/
def hexValue (byte : Byte) : Nat :=
  if byte ≤ 57 then byte.toNat - 48 else if byte ≤ 70 then byte.toNat - 55 else byte.toNat - 87

/-- The `%x` conversion. -/
def printHex (n : Nat) : Text :=
  if n = 0 then [hexDigit 0] else (Nat.digits 16 n).reverse.map hexDigit

/-- A byte with both of its digits. -/
def printByte (byte : Byte) : Text := [hexDigit (byte.toNat / 16), hexDigit (byte.toNat % 16)]

/-- Bytes with a separator between them. -/
def printBytes (separator : Byte) (bytes : Text) : Text :=
  [separator].intercalate (bytes.map printByte)

/-- A sign in front of a number: whether it is a minus, and the text behind it. -/
def scanSign (text : Text) : Bool × Text :=
  if text.head? = some 45 then (true, text.tail)
  else if text.head? = some 43 then (false, text.tail)
  else (false, text)

/-- Skip a `0x` in front of a hexadecimal number. -/
def skipPrefix : Text → Text
  | 48 :: 120 :: text => text
  | 48 :: 88 :: text => text
  | text => text

/-- The `%hhx` conversion: the low byte of a number read as by `strtoul`, whose result
saturates at 32 bits, and the text behind it. -/
def scanByte (text : Text) : Option (Byte × Text) :=
  let (negative, body) := scanSign (text.dropWhile isSpace)
  let body := skipPrefix body
  let digits := body.takeWhile isHexDigit
  if digits = [] then none
  else
    let value := digits.foldl (fun value byte => 16 * value + hexValue byte) 0
    let byte := UInt8.ofNat (min value (2 ^ 32 - 1))
    some (if negative then -byte else byte, body.dropWhile isHexDigit)

/-- `sscanf(text, "%hhx:%hhx:...")` with `count` conversions: the bytes stored before the
first failure. -/
def scanBytes (separator : Byte) : Nat → Text → Text
  | 0, _ => []
  | count + 1, text =>
      match scanByte text with
      | none => []
      | some (byte, rest) =>
          match rest with
          | [] => [byte]
          | next :: rest => byte :: if next = separator then scanBytes separator count rest else []

theorem hexDigit_spec {digit : Nat} (small : digit < 16) :
    isHexDigit (hexDigit digit) = true ∧ hexValue (hexDigit digit) = digit ∧
      isGraph (hexDigit digit) = true := by
  have all : ∀ digit < 16, isHexDigit (hexDigit digit) = true ∧ hexValue (hexDigit digit) = digit ∧
      isGraph (hexDigit digit) = true := by decide
  exact all digit small

theorem mem_printHex {byte : Byte} {n : Nat} (member : byte ∈ printHex n) :
    ∃ digit < 16, byte = hexDigit digit := by
  unfold printHex at member
  split at member
  · exact ⟨0, by decide, List.mem_singleton.mp member⟩
  · obtain ⟨digit, inDigits, rfl⟩ := List.mem_map.mp member
    exact ⟨digit, Nat.digits_lt_base (by decide) (List.mem_reverse.mp inDigits), rfl⟩

theorem printHex_length_le {n width : Nat} (positive : 0 < width) (small : n < 16 ^ width) :
    (printHex n).length ≤ width := by
  unfold printHex
  split
  · exact positive
  · rw [List.length_map, List.length_reverse]
    exact (Nat.digits_length_le_iff (by decide) n).mpr small

theorem mem_printByte {byte printed : Byte} (member : printed ∈ printByte byte) :
    ∃ digit < 16, printed = hexDigit digit := by
  have bound := byte.toNat_lt
  simp only [printByte, List.mem_cons, List.not_mem_nil, or_false] at member
  rcases member with rfl | rfl
  · exact ⟨byte.toNat / 16, by omega, rfl⟩
  · exact ⟨byte.toNat % 16, by omega, rfl⟩

theorem mem_printBytes {byte separator : Byte} {bytes : Text}
    (member : byte ∈ printBytes separator bytes) :
    byte = separator ∨ ∃ digit < 16, byte = hexDigit digit := by
  have words : ∀ word ∈ bytes.map printByte, ∀ byte ∈ word,
      byte = separator ∨ ∃ digit < 16, byte = hexDigit digit := by
    intro word listed byte member
    obtain ⟨printed, -, rfl⟩ := List.mem_map.mp listed
    exact .inr (mem_printByte member)
  exact forall_mem_intercalate (.inl rfl) words byte member

/-- Two digits for each byte, and a separator for each but the last. -/
theorem printBytes_length (separator : Byte) {bytes : Text} (nonempty : bytes ≠ []) :
    (printBytes separator bytes).length + 1 = 3 * bytes.length := by
  induction bytes with
  | nil => exact absurd rfl nonempty
  | cons byte bytes inductionHypothesis =>
      unfold printBytes at inductionHypothesis ⊢
      have two : (printByte byte).length = 2 := rfl
      by_cases last : bytes = []
      · rw [last, List.map_cons, List.map_nil, List.intercalate_singleton, two]
        rfl
      · have others : bytes.map printByte ≠ [] := by simpa using last
        have rest := inductionHypothesis last
        rw [List.map_cons, List.intercalate_cons_of_ne_nil others, List.length_append,
          List.length_append, two, List.length_singleton, List.length_cons]
        omega

theorem isHexDigit_ne {byte other : Byte} (digit : isHexDigit byte = true)
    (noDigit : isHexDigit other = false) : byte ≠ other := by
  rintro rfl
  rw [digit] at noDigit
  cases noDigit

theorem isHexDigit_not_isSpace {byte : Byte} (digit : isHexDigit byte = true) :
    isSpace byte = false := by
  have above : ¬ byte ≤ 13 := by
    intro below
    have small : ∀ n ≤ 13, isHexDigit (UInt8.ofNat n) = false := by decide
    have noDigit := small byte.toNat (UInt8.le_iff_toNat_le.mp below)
    rw [UInt8.ofNat_toNat, digit] at noDigit
    cases noDigit
  have different : byte ≠ 32 := isHexDigit_ne digit (by decide)
  simp [isSpace, above, different]

theorem scanSign_of_isHexDigit {byte : Byte} (digit : isHexDigit byte = true) (rest : Text) :
    scanSign (byte :: rest) = (false, byte :: rest) := by
  have notMinus : byte ≠ 45 := isHexDigit_ne digit (by decide)
  have notPlus : byte ≠ 43 := isHexDigit_ne digit (by decide)
  simp [scanSign, notMinus, notPlus]

theorem skipPrefix_of_isHexDigit {second : Byte} (digit : isHexDigit second = true)
    (first : Byte) (rest : Text) : skipPrefix (first :: second :: rest) = first :: second :: rest := by
  unfold skipPrefix
  split
  · rename_i same
    cases same
    cases digit
  · rename_i same
    cases same
    cases digit
  · rfl

/-- A byte with both digits is read back up to the first byte that is no digit. -/
theorem scanByte_printByte (byte : Byte) {rest : Text}
    (stop : ∀ next ∈ rest.head?, isHexDigit next = false) :
    scanByte (printByte byte ++ rest) = some (byte, rest) := by
  have bound := byte.toNat_lt
  obtain ⟨high, highValue, -⟩ := hexDigit_spec (show byte.toNat / 16 < 16 by omega)
  obtain ⟨low, lowValue, -⟩ := hexDigit_spec (show byte.toNat % 16 < 16 by omega)
  have digitsBefore : ∀ next ∈ printByte byte, isHexDigit next = true := by
    simp only [printByte, List.forall_mem_cons, high, low, List.not_mem_nil, IsEmpty.forall_iff,
      implies_true, and_self]
  have taken := takeWhile_append_stop digitsBefore stop
  have dropped := dropWhile_append_stop digitsBefore stop
  have start : (printByte byte ++ rest).dropWhile isSpace = printByte byte ++ rest := by
    simp [printByte, isHexDigit_not_isSpace high]
  have unsigned : scanSign (printByte byte ++ rest) = (false, printByte byte ++ rest) :=
    scanSign_of_isHexDigit high _
  have unprefixed : skipPrefix (printByte byte ++ rest) = printByte byte ++ rest :=
    skipPrefix_of_isHexDigit low _ _
  have number : (printByte byte).foldl (fun value byte => 16 * value + hexValue byte) 0 =
      byte.toNat := by
    simp only [printByte, List.foldl_cons, List.foldl_nil, highValue, lowValue]
    omega
  have unsaturated : min byte.toNat (2 ^ 32 - 1) = byte.toNat := by omega
  have nonempty : printByte byte ≠ [] := List.cons_ne_nil _ _
  simp only [scanByte, start, unsigned, unprefixed, taken, dropped, nonempty, number, unsaturated,
    UInt8.ofNat_toNat, ↓reduceIte, Bool.false_eq_true]

/-- Printed bytes are read back. -/
theorem scanBytes_printBytes {separator : Byte} (noDigit : isHexDigit separator = false)
    (bytes : Text) : scanBytes separator bytes.length (printBytes separator bytes) = bytes := by
  induction bytes with
  | nil => rfl
  | cons byte bytes inductionHypothesis =>
      unfold printBytes at inductionHypothesis ⊢
      by_cases last : bytes = []
      · have read := @scanByte_printByte byte [] (by simp)
        rw [List.append_nil] at read
        rw [last, List.map_cons, List.map_nil, List.intercalate_singleton, List.length_singleton,
          scanBytes, read]
      · have others : bytes.map printByte ≠ [] := by simpa using last
        have read := @scanByte_printByte byte
          (separator :: [separator].intercalate (bytes.map printByte)) (by simpa using noDigit)
        rw [List.map_cons, List.intercalate_cons_of_ne_nil others, List.append_assoc,
          List.singleton_append, List.length_cons, scanBytes, read]
        simp only [↓reduceIte, inductionHypothesis]

end Libamg.C
