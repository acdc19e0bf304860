import Libamg.C.Memory
import Libamg.C.Tokens
import Mathlib.Data.List.DropRight

/-!
# The string helpers of `str.c`

`striplf` compares plain `char` values with 32, so on a target whose `char` is
signed it also takes the bytes from 128 on for control bytes. The signedness is a
parameter of everything that uses it.
-/

namespace Libamg.Str

open C

/-- `str[ln - 1] < 32` for a plain `char`. -/
def belowSpace (charSigned : Bool) (byte : Byte) : Bool :=
  byte < 32 || (charSigned && 128 ≤ byte)

/-- `libamg_str_striplf`: the string without its trailing control bytes. -/
def striplf (charSigned : Bool) (str : Text) : Text := str.rdropWhile (belowSpace charSigned)

/-- The array that stripping leaves: the dropped bytes are overwritten by NULs. -/
def stripArray {size : Nat} (charSigned : Bool) (array : CharArray size) : CharArray size :=
  let stripped := striplf charSigned array.str
  array.overwrite (stripped ++ List.replicate (array.str.length - stripped.length) 0)

/-- `libamg_str_striplf` on a field, which is read as a string first. -/
def striplfField {size : Nat} (charSigned : Bool) (array : CharArray size) :
    Checked (CharArray size) :=
  if array.Terminated then .ok (stripArray charSigned array) else .error .outOfBounds

/-- `libamg_str_next_token`: the text before the separator, which becomes the
string at `str`, and the text after it, which is returned. -/
def nextToken (str : Text) (sep : Byte) : Option (Text × Text) := splitFirst sep str

theorem isGraph_not_belowSpace (charSigned : Bool) {byte : Byte} (graph : isGraph byte = true) :
    belowSpace charSigned byte = false := by
  simp only [isGraph, Bool.and_eq_true, decide_eq_true_eq] at graph
  have notBelow : ¬ byte < 32 := fun below =>
    absurd (UInt8.lt_of_le_of_lt graph.1 below) (by decide)
  have notAbove : ¬ 128 ≤ byte := fun above =>
    absurd (UInt8.le_trans above graph.2) (by decide)
  simp [belowSpace, notBelow, notAbove]

/-- A word has nothing to strip. -/
theorem striplf_word (charSigned : Bool) {str : Text} (word : IsWord str) :
    striplf charSigned str = str := by
  rw [striplf, List.rdropWhile_eq_self_iff]
  intro nonempty
  rw [isGraph_not_belowSpace charSigned (word _ (List.getLast_mem nonempty))]
  decide

theorem striplf_newline (charSigned : Bool) : striplf charSigned [newline] = [] := by
  cases charSigned <;> decide

theorem striplfField_eq {size : Nat} (charSigned : Bool) {array : CharArray size}
    (terminated : array.Terminated) :
    striplfField charSigned array = .ok (stripArray charSigned array) := if_pos terminated

/-- The stripped string and the NULs over the dropped bytes are as long as the string. -/
theorem length_stripped (charSigned : Bool) (str : Text) :
    (striplf charSigned str ++
      List.replicate (str.length - (striplf charSigned str).length) 0).length = str.length := by
  have shorter := (List.rdropWhile_prefix (belowSpace charSigned) str).length_le
  rw [List.length_append, List.length_replicate, striplf]
  omega

/-- A stripped array is a stripped string, the NULs over the dropped bytes together
with the old terminator, and what stood behind. -/
theorem stripArray_bytes {size : Nat} (charSigned : Bool) {array : CharArray size}
    (terminated : array.Terminated) :
    ∃ rest, (stripArray charSigned array).bytes = striplf charSigned array.str ++ 0 :: rest := by
  obtain ⟨rest, shape⟩ := CharArray.exists_bytes_eq terminated
  have room := CharArray.str_length_lt terminated
  have length := length_stripped charSigned array.str
  have behind : array.bytes.drop array.str.length = 0 :: rest := by
    rw [shape, List.drop_left]
  refine ⟨List.replicate (array.str.length - (striplf charSigned array.str).length) 0 ++ rest, ?_⟩
  rw [stripArray, CharArray.overwrite_bytes (by rw [length]; omega), length, behind,
    List.append_assoc, List.append_cons, ← List.replicate_succ', List.replicate_succ,
    List.cons_append]

theorem stripArray_terminated {size : Nat} (charSigned : Bool) {array : CharArray size}
    (terminated : array.Terminated) : (stripArray charSigned array).Terminated := by
  obtain ⟨rest, bytes⟩ := stripArray_bytes charSigned terminated
  exact CharArray.terminated_of_bytes bytes

/-- The string of a stripped array is the stripped string. -/
theorem str_stripArray {size : Nat} (charSigned : Bool) {array : CharArray size}
    (terminated : array.Terminated) :
    (stripArray charSigned array).str = striplf charSigned array.str := by
  obtain ⟨rest, bytes⟩ := stripArray_bytes charSigned terminated
  have isPrefix : striplf charSigned array.str <+: array.str := List.rdropWhile_prefix _ _
  have noNul : 0 ∉ striplf charSigned array.str := fun member =>
    array.nul_notMem_str (isPrefix.subset member)
  exact CharArray.str_of_bytes noNul bytes

theorem str_stripArray_of_word {size : Nat} (charSigned : Bool) {array : CharArray size}
    (word : array.Word) : (stripArray charSigned array).str = array.str := by
  rw [str_stripArray charSigned word.terminated, striplf_word charSigned word.isWord]

theorem stripArray_word {size : Nat} (charSigned : Bool) {array : CharArray size}
    (word : array.Word) : (stripArray charSigned array).Word where
  terminated := stripArray_terminated charSigned word.terminated
  isWord := by
    rw [str_stripArray_of_word charSigned word]
    exact word.isWord

end Libamg.Str
