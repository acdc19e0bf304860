import Libamg.C.Bytes
import Mathlib.Data.Nat.Digits.Lemmas

/-!
# Decimal numbers

`printInt` is the `%d` conversion and `atoi` reads such a number back. `atoi`
follows the usual implementation through `strtol` with a 32-bit `long`: leading
space, an optional sign, a run of digits, and saturation at the ends of the range.
-/

namespace Libamg.C

/-- The character of one decimal digit. -/
def digitByte (digit : Nat) : Byte := UInt8.ofNat (48 + digit)

def printNat (n : Nat) : Text :=
  if n = 0 then [digitByte 0] else (Nat.digits 10 n).reverse.map digitByte

/-- The `%d` conversion. -/
def printInt (n : Int) : Text :=
  if n < 0 then minus :: printNat n.natAbs else printNat n.natAbs

/-- The `%hd` conversion of an `int` argument: the value of its low 16 bits. -/
def printShort (n : Int32) : Text := printInt n.toInt16.toInt

/-- The value of a run of digits, most significant first. -/
def digitsValue (digits : Text) : Nat :=
  digits.foldl (fun value byte => 10 * value + (byte.toNat - 48)) 0

/-- The digits at the start of a text. -/
def leadingNat (text : Text) : Nat := digitsValue (text.takeWhile isDigit)

/-- The exact number at the start of a text, 0 when there is none. -/
def strtol (text : Text) : Int :=
  let body := text.dropWhile isSpace
  if body.head? = some minus then -(leadingNat body.tail : Int)
  else if body.head? = some 43 then leadingNat body.tail
  else leadingNat body

/-- `atoi`. -/
def atoi (text : Text) : Int32 :=
  Int32.ofInt (max (-2 ^ 31) (min (2 ^ 31 - 1) (strtol text)))

/-- What stands behind white space and a sign. -/
def unsigned (text : Text) : Text :=
  let body := text.dropWhile isSpace
  if body.head? = some minus ∨ body.head? = some 43 then body.tail else body

/-- The number that a text is: white space, a sign and digits, and nothing behind them. -/
def numberOf (text : Text) : Option Int :=
  if unsigned text ≠ [] ∧ (unsigned text).all isDigit then some (strtol text)
  else none

/-- The number that a text begins with, whatever stands behind its digits. -/
def numberAtFront (text : Text) : Option Int :=
  if (unsigned text).takeWhile isDigit = [] then none else some (strtol text)

/-- The numbers written in a text that is read on in the middle of a number, or not. A minus
is a sign unless it stands behind a digit. -/
def writtenFrom : Bool → Option Nat → Text → List Int
  | _, none, [] => []
  | negative, some value, [] => [if negative then -value else value]
  | negative, none, byte :: rest =>
      if isDigit byte then writtenFrom negative (some (byte.toNat - 48)) rest
      else writtenFrom (byte = minus) none rest
  | negative, some value, byte :: rest =>
      if isDigit byte then writtenFrom negative (some (10 * value + (byte.toNat - 48))) rest
      else (if negative then -(value : Int) else value) :: writtenFrom false none rest

/-- The numbers written in a text, one for each run of digits. -/
def writtenNumbers (text : Text) : List Int := writtenFrom false none text

theorem toInt_atoi (text : Text) :
    (atoi text).toInt = max (-2 ^ 31) (min (2 ^ 31 - 1) (strtol text)) :=
  Int32.toInt_ofInt_of_le (by omega) (by omega)

theorem digitByte_toNat {digit : Nat} (small : digit < 10) :
    (digitByte digit).toNat = 48 + digit := by
  have all : ∀ digit < 10, (digitByte digit).toNat = 48 + digit := by decide
  exact all digit small

theorem digitByte_isDigit {digit : Nat} (small : digit < 10) :
    isDigit (digitByte digit) = true := by
  have all : ∀ digit < 10, isDigit (digitByte digit) = true := by decide
  exact all digit small

theorem printNat_isDigit (n : Nat) : ∀ byte ∈ printNat n, isDigit byte = true := by
  intro byte member
  unfold printNat at member
  split at member
  · rw [List.mem_singleton.mp member]
    exact digitByte_isDigit (by decide)
  · obtain ⟨digit, inDigits, rfl⟩ := List.mem_map.mp member
    exact digitByte_isDigit (Nat.digits_lt_base (by decide) (List.mem_reverse.mp inDigits))

theorem printNat_ne_nil (n : Nat) : printNat n ≠ [] := by
  unfold printNat
  split
  · simp
  · rename_i nonzero
    simpa [Nat.digits_eq_nil_iff_eq_zero] using nonzero

/-- Reading printed digits, least significant first, is `Nat.ofDigits`. -/
theorem digitsValue_map {digits : List Nat} (small : ∀ digit ∈ digits, digit < 10) :
    digitsValue (digits.reverse.map digitByte) = Nat.ofDigits 10 digits := by
  induction digits with
  | nil => rfl
  | cons digit rest inductionHypothesis =>
      have restValue := inductionHypothesis fun other member =>
        small other (List.mem_cons_of_mem _ member)
      have digitValue := digitByte_toNat (small digit List.mem_cons_self)
      unfold digitsValue at restValue ⊢
      simp only [List.reverse_cons, List.map_append, List.map_cons, List.map_nil,
        List.foldl_append, List.foldl_cons, List.foldl_nil, restValue, digitValue,
        Nat.ofDigits_cons]
      omega

theorem digitsValue_printNat (n : Nat) : digitsValue (printNat n) = n := by
  unfold printNat
  split
  · rename_i zero
    rw [zero]
    rfl
  · rw [digitsValue_map fun _ member => Nat.digits_lt_base (by decide) member,
      Nat.ofDigits_digits]

/-- A text that no digit continues. -/
def NoDigitNext (rest : Text) : Prop := ∀ byte ∈ rest.head?, isDigit byte = false

instance (rest : Text) : Decidable (NoDigitNext rest) :=
  decidable_of_iff (rest.head?.all (fun byte => !isDigit byte) = true)
    (by simp [NoDigitNext, Option.all_eq_true])

@[simp] theorem noDigitNext_nil : NoDigitNext [] := by simp [NoDigitNext]

theorem leadingNat_printNat (n : Nat) {rest : Text} (stop : NoDigitNext rest) :
    leadingNat (printNat n ++ rest) = n := by
  rw [leadingNat, takeWhile_append_stop (printNat_isDigit n) stop, digitsValue_printNat]

/-- A digit is neither space nor sign. -/
theorem isDigit_cases {byte : Byte} (digit : isDigit byte = true) :
    isSpace byte = false ∧ byte ≠ minus ∧ byte ≠ 43 := by
  simp only [isDigit, Bool.and_eq_true, decide_eq_true_eq] at digit
  refine ⟨?_, ?_, ?_⟩
  · have above : ¬ byte ≤ 13 := fun below =>
      absurd (UInt8.le_trans digit.1 below) (by decide)
    have other : byte ≠ 32 := by rintro rfl; revert digit; decide
    simp [isSpace, above, other]
  · rintro rfl; revert digit; decide
  · rintro rfl; revert digit; decide

/-- `strtol` reads back a printed number up to the first byte that is no digit. -/
theorem strtol_printInt (n : Int) {rest : Text} (stop : NoDigitNext rest) :
    strtol (printInt n ++ rest) = n := by
  unfold strtol printInt
  by_cases negative : n < 0
  · have notSpace : isSpace minus = false := by decide
    simp only [negative, ↓reduceIte, List.cons_append, List.dropWhile_cons, notSpace,
      Bool.false_eq_true, List.head?_cons, List.tail_cons, leadingNat_printNat _ stop]
    omega
  · obtain ⟨byte, tail, printed⟩ := List.exists_cons_of_ne_nil (printNat_ne_nil n.natAbs)
    have digit := printNat_isDigit n.natAbs byte (by rw [printed]; exact List.mem_cons_self)
    obtain ⟨notSpace, notMinus, notPlus⟩ := isDigit_cases digit
    have whole := leadingNat_printNat n.natAbs stop
    rw [printed, List.cons_append] at whole
    simp only [negative, ↓reduceIte, printed, List.cons_append, List.dropWhile_cons, notSpace,
      Bool.false_eq_true, List.head?_cons, Option.some.injEq, notMinus, notPlus, whole]
    omega

/-- `atoi` reads a printed number in the range of `int`. -/
theorem atoi_printInt_append (n : Int) {rest : Text} (lower : -2 ^ 31 ≤ n) (upper : n < 2 ^ 31)
    (stop : NoDigitNext rest) : atoi (printInt n ++ rest) = Int32.ofInt n := by
  unfold atoi
  rw [strtol_printInt n stop]
  congr 1
  omega

/-- Bytes that no number contains can be cut off a number. -/
theorem strtol_takeWhile {text : Text} {keep : Byte → Bool}
    (noSpace : ∀ byte ∈ text.head?, isSpace byte = false)
    (kept : ∀ byte, isDigit byte = true ∨ byte = minus ∨ byte = 43 → keep byte = true) :
    strtol (text.takeWhile keep) = strtol text := by
  have digits (rest : Text) : leadingNat (rest.takeWhile keep) = leadingNat rest := by
    have both : (fun byte => decide (isDigit byte = true ∧ keep byte = true)) = isDigit := by
      funext byte
      rw [Bool.eq_iff_iff, decide_eq_true_eq]
      exact and_iff_left_of_imp fun digit => kept byte (.inl digit)
    rw [leadingNat, leadingNat, List.takeWhile_takeWhile, both]
  cases text with
  | nil => rfl
  | cons byte rest =>
      have notSpace : isSpace byte = false := noSpace byte rfl
      have body : (byte :: rest).dropWhile isSpace = byte :: rest :=
        List.dropWhile_cons_of_neg (by rw [notSpace]; exact Bool.false_ne_true)
      by_cases inside : keep byte = true
      · have cut : (byte :: rest).takeWhile keep = byte :: rest.takeWhile keep :=
          List.takeWhile_cons_of_pos inside
        have cutBody : (byte :: rest.takeWhile keep).dropWhile isSpace =
            byte :: rest.takeWhile keep :=
          List.dropWhile_cons_of_neg (by rw [notSpace]; exact Bool.false_ne_true)
        have whole : leadingNat (byte :: rest.takeWhile keep) = leadingNat (byte :: rest) := by
          rw [← cut, digits]
        simp only [strtol, cut, body, cutBody, List.head?_cons, List.tail_cons, digits, whole]
      · have other := not_or.mp fun number => inside (kept byte number)
        have noSign := not_or.mp other.2
        have noDigits : leadingNat (byte :: rest) = 0 := by
          rw [leadingNat, List.takeWhile_cons_of_neg other.1]
          rfl
        rw [List.takeWhile_cons_of_neg inside]
        simp only [strtol, body, List.head?_cons, Option.some.injEq, if_neg noSign.1,
          if_neg noSign.2, noDigits]
        rfl

/-- `atoi` finds the number that a text denotes. -/
theorem atoi_of_strtol {text : Text} {n : Int32} (denotes : strtol text = n.toInt) :
    atoi text = n := by
  have lower := n.le_toInt
  have upper := n.toInt_lt
  have inside : max (-2 ^ 31) (min (2 ^ 31 - 1) n.toInt) = n.toInt := by omega
  rw [atoi, denotes, inside, Int32.ofInt_toInt]

theorem atoi_printInt (n : Int32) : atoi (printInt n.toInt) = n := by
  have read := atoi_printInt_append n.toInt n.le_toInt n.toInt_lt noDigitNext_nil
  rwa [List.append_nil, Int32.ofInt_toInt] at read

theorem atoi_printInt16 (n : Int16) : atoi (printInt n.toInt) = n.toInt32 := by
  have lower := n.le_toInt
  have upper := n.toInt_lt
  have read := atoi_printInt_append n.toInt (by omega) (by omega) noDigitNext_nil
  rwa [List.append_nil, Int32.ofInt_int16ToInt] at read

/-- The value that `%hd` and `atoi` bring back: the low 16 bits, sign extended. -/
theorem atoi_printShort (n : Int32) : atoi (printShort n) = n.toInt16.toInt32 :=
  atoi_printInt16 n.toInt16

/-- A value in the range of `short` is unchanged by `%hd`. -/
theorem toInt16_toInt32_of_short {n : Int32} (lower : -2 ^ 15 ≤ n.toInt) (upper : n.toInt < 2 ^ 15) :
    n.toInt16.toInt32 = n := by
  apply Int32.toInt_inj.mp
  rw [Int16.toInt_toInt32, Int32.toInt_toInt16, Int.bmod_eq_of_le (by omega) (by omega)]

theorem printInt_isWord (n : Int) : IsWord (printInt n) := by
  have digits : IsWord (printNat n.natAbs) := fun byte member =>
    isDigit_isGraph (printNat_isDigit _ byte member)
  unfold printInt
  split
  · intro byte member
    rcases List.mem_cons.mp member with rfl | inDigits
    · decide
    · exact digits byte inDigits
  · exact digits

/-- A printed number is made of digits and a sign. -/
theorem notMem_printInt {byte : Byte} (notDigit : isDigit byte = false) (notMinus : byte ≠ minus)
    (n : Int) : byte ∉ printInt n := by
  have digits : byte ∉ printNat n.natAbs := by
    intro member
    have digit := printNat_isDigit _ byte member
    rw [notDigit] at digit
    exact Bool.false_ne_true digit
  unfold printInt
  split
  · exact List.not_mem_cons_of_ne_of_not_mem notMinus digits
  · exact digits

theorem printShort_isWord (n : Int32) : IsWord (printShort n) := printInt_isWord _

theorem printInt_ne_nil (n : Int) : printInt n ≠ [] := by
  unfold printInt
  split
  · simp
  · exact printNat_ne_nil _

theorem printNat_length_le {n width : Nat} (positive : 0 < width) (small : n < 10 ^ width) :
    (printNat n).length ≤ width := by
  unfold printNat
  split
  · exact positive
  · rw [List.length_map, List.length_reverse]
    exact (Nat.digits_length_le_iff (by decide) n).mpr small

/-- Ten digits and a sign are enough for every `int`. -/
theorem printInt_length_le {n : Int} (lower : -2 ^ 31 ≤ n) (upper : n < 2 ^ 31) :
    (printInt n).length ≤ 11 := by
  have digits : (printNat n.natAbs).length ≤ 10 := printNat_length_le (by decide) (by omega)
  unfold printInt
  split
  · rw [List.length_cons]
    omega
  · omega

theorem printInt_natCast_length_le {n width : Nat} (positive : 0 < width) (small : n < 10 ^ width) :
    (printInt n).length ≤ width := by
  have nonnegative : ¬ ((n : Int) < 0) := by omega
  rw [printInt, if_neg nonnegative, Int.natAbs_natCast]
  exact printNat_length_le positive small

theorem printInt32_length_le (n : Int32) : (printInt n.toInt).length ≤ 11 :=
  printInt_length_le n.le_toInt n.toInt_lt

theorem printShort_length_le (n : Int32) : (printShort n).length ≤ 11 := by
  have lower := n.toInt16.le_toInt
  have upper := n.toInt16.toInt_lt
  exact printInt_length_le (by omega) (by omega)

example : atoi (lit " -42,7") = -42 := by decide

example : numberOf (lit " -42") = some (-42) ∧ numberOf (lit "42,7") = none := by decide

example : writtenNumbers (lit "1-15,17--31x5") = [1, 15, 17, -31, 5] := by decide

end Libamg.C
