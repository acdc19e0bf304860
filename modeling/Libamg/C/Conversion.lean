import Libamg.C.Decimal

/-!
# Printed conversions

A printed text as the list of its conversions: each number stands beside the argument
that it was printed from, and `denotes_iff_fits` says when it stands for that argument.
-/

namespace Libamg.C

/-- Literal text or a `%s`, `%d` of an `int`, and `%hd` of an `int` or of an
`unsigned short`. -/
inductive Conversion where
  | text (str : Text)
  | int (n : Int32)
  | short (n : Int32)
  | unsignedShort (n : UInt16)

namespace Conversion

/-- What is printed. -/
def bytes : Conversion → Text
  | .text str => str
  | .int n => printInt n.toInt
  | .short n => printShort n
  | .unsignedShort n => printInt n.toInt16.toInt

/-- The number that is meant. -/
def argument : Conversion → Option Int
  | .text _ => none
  | .int n => some n.toInt
  | .short n => some n.toInt
  | .unsignedShort n => some n.toNat

/-- The printed number, read as an integer, is the number that is meant. -/
def Denotes (conversion : Conversion) : Prop :=
  ∀ value ∈ conversion.argument, strtol conversion.bytes = value

/-- The argument is in the range of its conversion. -/
def Fits : Conversion → Prop
  | .text _ | .int _ => True
  | .short n => -2 ^ 15 ≤ n.toInt ∧ n.toInt < 2 ^ 15
  | .unsignedShort n => n.toNat < 2 ^ 15

@[simp] theorem fits_text (str : Text) : (text str).Fits ↔ True := Iff.rfl

@[simp] theorem fits_int (n : Int32) : (int n).Fits ↔ True := Iff.rfl

theorem strtol_printInt_self (n : Int) : strtol (printInt n) = n := by
  have read := strtol_printInt n noDigitNext_nil
  rwa [List.append_nil] at read

theorem lowShort_eq_iff (n : Int) : n.bmod (2 ^ 16) = n ↔ -2 ^ 15 ≤ n ∧ n < 2 ^ 15 := by
  rw [Int.bmod_eq_iff (by decide), Int.sub_self]
  omega

/-- `%hd` keeps 16 bits, so it prints the argument exactly if it is a 16-bit number. -/
theorem denotes_iff_fits (conversion : Conversion) : conversion.Denotes ↔ conversion.Fits := by
  cases conversion with
  | text str => exact iff_of_true nofun trivial
  | int n =>
      refine iff_of_true ?_ trivial
      rintro _ ⟨rfl⟩
      exact strtol_printInt_self n.toInt
  | short n =>
      have read : strtol (printShort n) = n.toInt.bmod (2 ^ 16) := by
        rw [printShort, strtol_printInt_self, Int32.toInt_toInt16]
      simp only [Denotes, argument, bytes, Fits, Option.mem_some_iff, forall_eq', read]
      exact lowShort_eq_iff n.toInt
  | unsignedShort n =>
      have read : strtol (printInt n.toInt16.toInt) = (n.toNat : Int).bmod (2 ^ 16) :=
        (strtol_printInt_self _).trans (BitVec.toInt_eq_toNat_bmod n.toBitVec)
      simp only [Denotes, argument, bytes, Fits, Option.mem_some_iff, forall_eq', read]
      rw [lowShort_eq_iff]
      omega

/-- The text of conversions one after the other. -/
def print (conversions : List Conversion) : Text := conversions.flatMap bytes

@[simp] theorem print_nil : print [] = [] := rfl

@[simp] theorem print_cons (conversion : Conversion) (conversions : List Conversion) :
    print (conversion :: conversions) = conversion.bytes ++ print conversions := rfl

@[simp] theorem print_append (first second : List Conversion) :
    print (first ++ second) = print first ++ print second := List.flatMap_append

/-- Every number among the conversions is the one that is meant. -/
def AllDenote (conversions : List Conversion) : Prop :=
  ∀ conversion ∈ conversions, conversion.Denotes

@[simp] theorem allDenote_nil : AllDenote [] ↔ True := iff_of_true nofun trivial

@[simp] theorem allDenote_cons (conversion : Conversion) (conversions : List Conversion) :
    AllDenote (conversion :: conversions) ↔ conversion.Fits ∧ AllDenote conversions := by
  rw [← denotes_iff_fits]
  exact List.forall_mem_cons

@[simp] theorem allDenote_append (first second : List Conversion) :
    AllDenote (first ++ second) ↔ AllDenote first ∧ AllDenote second := List.forall_mem_append

end Conversion
end Libamg.C
