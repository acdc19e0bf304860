import Libamg.C.Decimal
import Libamg.C.KeyValue

/-!
# Values of the configuration files

The conversions shared by the parsers and printers of the configuration modules:
numbers, `yes`/`no` flags and comparisons of a value with a fixed text.
-/

namespace Libamg

open C

/-- The delimiters of the crop step. In the source the literal goes on behind an
embedded NUL, which `strtok` never sees. -/
def cropDelimiters : Text := lit " \t\n"

/-- `!strcmp(value, name)`. -/
def sameText (value : Text) (name : String) : Int32 := if value = lit name then 1 else 0

/-- `flag ? onTrue : onFalse` as the argument of `%s`. -/
def choose (flag : Int32) (onTrue onFalse : String) : Text :=
  if flag ≠ 0 then lit onTrue else lit onFalse

/-- `flag ? "yes" : "no"`. -/
def yesNo (flag : Int32) : Text := choose flag "yes" "no"

/-- The truth value of a flag as 0 or 1. -/
def truth (flag : Int32) : Int32 := if flag ≠ 0 then 1 else 0

/-- The value of the low 16 bits of a number: what `%hd` keeps of it. -/
def lowShort (n : Int32) : Int32 := n.toInt16.toInt32

@[simp] theorem atoi_printShort_eq (n : Int32) : atoi (printShort n) = lowShort n := atoi_printShort n

theorem lowShort_of_range {n : Int32} (lower : -32768 ≤ n.toInt) (upper : n.toInt ≤ 32767) :
    lowShort n = n := toInt16_toInt32_of_short (by omega) (by omega)

/-- A 16-bit number. -/
def IsShort (n : Int32) : Prop := -32768 ≤ n ∧ n ≤ 32767

/-- The range of the numbers that the round trips are stated for. -/
def InShortRange (n : Int32) : Prop := 0 ≤ n ∧ n ≤ 32767

instance (n : Int32) : Decidable (IsShort n) := inferInstanceAs (Decidable (_ ∧ _))

instance (n : Int32) : Decidable (InShortRange n) := inferInstanceAs (Decidable (_ ∧ _))

theorem IsShort.lowShort_eq {n : Int32} (short : IsShort n) : lowShort n = n := by
  have lower := Int32.le_iff_toInt_le.mp short.1
  have upper := Int32.le_iff_toInt_le.mp short.2
  have bottom : (-32768 : Int32).toInt = -32768 := rfl
  have top : (32767 : Int32).toInt = 32767 := rfl
  exact lowShort_of_range (by omega) (by omega)

theorem InShortRange.lowShort_eq {n : Int32} (range : InShortRange n) : lowShort n = n :=
  IsShort.lowShort_eq ⟨Int32.le_trans (by decide) range.1, range.2⟩

/-- `%hd` prints what its 16 bits mean. -/
theorem printShort_lowShort (n : Int32) : printShort (lowShort n) = printShort n := by
  rw [printShort, lowShort, Int16.toInt16_toInt32, printShort]

/-- A 16-bit number is printed alike by `%hd` and `%d`. -/
theorem printShort_eq_printInt {n : Int32} (short : IsShort n) :
    printShort n = printInt n.toInt := by
  rw [printShort, ← Int16.toInt_toInt32]
  exact congrArg (fun m : Int32 => printInt m.toInt) short.lowShort_eq

theorem yesNo_truth (flag : Int32) : yesNo (truth flag) = yesNo flag := by
  by_cases on : flag ≠ 0
  · rw [truth, if_pos on, yesNo, yesNo, choose, choose, if_pos on]
    rfl
  · rw [truth, if_neg on, yesNo, yesNo, choose, choose, if_neg on]
    rfl

theorem truth_of_flag {flag : Int32} (binary : flag = 0 ∨ flag = 1) : truth flag = flag := by
  rcases binary with rfl | rfl <;> rfl

@[simp] theorem truth_truth (flag : Int32) : truth (truth flag) = truth flag := by
  unfold truth
  split <;> rfl

/-- A printed flag is read back as its truth value. -/
theorem sameText_choose (flag : Int32) {onTrue onFalse : String} (different : onFalse ≠ onTrue) :
    sameText (choose flag onTrue onFalse) onTrue = truth flag := by
  unfold choose truth
  split
  · simp [sameText]
  · simp [sameText, different]

@[simp] theorem sameText_lit (name : String) : sameText (lit name) name = 1 := if_pos rfl

theorem sameText_adaptive (flag : Int32) :
    sameText (choose flag "adaptive" "fixed") "adaptive" = truth flag :=
  sameText_choose flag (by simp)

@[simp] theorem sameText_yesNo (flag : Int32) : sameText (yesNo flag) "yes" = truth flag :=
  sameText_choose flag (by simp)

theorem cropDelimiters_blank : ∀ byte ∈ cropDelimiters, isGraph byte = false := by
  have none : (cropDelimiters.any isGraph) = false := by decide
  intro byte member
  exact Bool.eq_false_iff.mpr (List.any_eq_false.mp none byte member)

/-- Cropping a printed word; an empty one leaves the newline. -/
theorem crop_bare {value : Text} (word : IsWord value) :
    crop cropDelimiters (value ++ [newline]) = cropped value :=
  crop_word cropDelimiters_blank (by decide) word

/-- Cropping a printed value that is a non-empty word gives it back. -/
theorem crop_value {value : Text} (word : IsWord value) (nonempty : value ≠ []) :
    crop cropDelimiters (value ++ [newline]) = value := by
  rw [crop_bare word, cropped_eq_self nonempty]

/-- A value that fits a line of any parser and needs no cropping. -/
structure Plain (value : Text) : Prop where
  isWord : IsWord value
  nonempty : value ≠ []
  short : value.length ≤ 11

theorem Plain.ofLit (value : Text)
    (check : (IsWord value ∧ value ≠ []) ∧ value.length ≤ 11 := by decide) : Plain value :=
  ⟨check.1.1, check.1.2, check.2⟩

theorem Plain.printInt (n : Int32) : Plain (printInt n.toInt) :=
  ⟨printInt_isWord _, printInt_ne_nil _, printInt32_length_le n⟩

theorem Plain.printShort (n : Int32) : Plain (printShort n) :=
  ⟨printShort_isWord n, printInt_ne_nil _, printShort_length_le n⟩

theorem Plain.choose (flag : Int32) {onTrue onFalse : String} (first : Plain (lit onTrue))
    (second : Plain (lit onFalse)) : Plain (choose flag onTrue onFalse) := by
  unfold Libamg.choose
  split
  · exact first
  · exact second

theorem Plain.yesNo (flag : Int32) : Plain (yesNo flag) := .choose flag (.ofLit _) (.ofLit _)

theorem Plain.crop {value : Text} (plain : Plain value) :
    C.crop cropDelimiters (value ++ [newline]) = value := crop_value plain.isWord plain.nonempty

/-- A line with a fixed key and a plain value is read back whole. -/
theorem Plain.wellFormed {size : Nat} {key : String} {value : Text} (plain : Plain value)
    (keyShape : (newline ∉ lit key ∧ 0 ∉ lit key ∧ equals ∉ lit key) ∧
      (lit key).length + 13 < size) : (Entry.setting (lit key) value).WellFormed size := by
  have short := plain.short
  exact .ofSetting keyShape.1 ⟨plain.isWord.newline_notMem, plain.isWord.nul_notMem⟩ (by omega)

end Libamg
