import Libamg.C.Buffer
import Libamg.C.Trailing
import Libamg.Str
import Mathlib.Algebra.Group.Int.Defs
import Mathlib.Algebra.Group.Nat.Defs

/-!
# The loop of `libamg_str_striplf`

The loop goes back over the string and writes a NUL over every byte that compares below 32.
It stops at the first one that does not. A signed `char` makes that comparison true of the
bytes from 128 on, and an `int` holds the length of a string below `2 ^ 31` bytes only.
-/

namespace Libamg.Str

open C

/-- The control bytes of a string: the values from 1 to 31. -/
def isControl (byte : Byte) : Bool := 1 ≤ byte && byte ≤ 31

/-- `int ln = strlen(str)`, where a negative `ln` is as good as 0. -/
def lnOf (length : Nat) : Nat := ((length : Int).bmod (2 ^ 32)).toNat

/-- `while ((ln > 0) && (str[ln - 1] < 32)) str[--ln] = 0` -/
def striplfLoop {size : Nat} (charSigned : Bool) :
    Nat → CharArray size → Checked (CharArray size)
  | 0, array => .ok array
  | ln + 1, array => do
      let byte ← array.byteAt ln
      if belowSpace charSigned byte then
        let array ← array.writeAt ln [0]
        striplfLoop charSigned ln array
      else .ok array

/-- `libamg_str_striplf`, as it works on the array of the string. -/
def striplfInPlace {size : Nat} (charSigned : Bool) (array : CharArray size) :
    Checked (CharArray size) := do
  let str ← array.read
  striplfLoop charSigned (lnOf str.length) array

/-- The part of the string that `ln` reaches over. -/
def front (str : Text) : Text := str.take (lnOf str.length)

section Length

theorem lnOf_le (length : Nat) : lnOf length ≤ length := by
  have wrapped := @Int.bmod_def length (2 ^ 32)
  unfold lnOf
  split at wrapped <;> omega

theorem lnOf_lt (length : Nat) : lnOf length < 2 ^ 31 := by
  have below := @Int.bmod_lt length (2 ^ 32) (by decide)
  unfold lnOf
  omega

theorem lnOf_of_short {length : Nat} (short : length < 2 ^ 31) : lnOf length = length := by
  have whole : (length : Int).bmod (2 ^ 32) = length := Int.bmod_eq_of_le (by omega) (by omega)
  unfold lnOf
  rw [whole, Int.toNat_natCast]

theorem length_front (str : Text) : (front str).length = lnOf str.length := by
  rw [front, List.length_take, Nat.min_eq_left (lnOf_le str.length)]

theorem front_of_short {str : Text} (short : str.length < 2 ^ 31) : front str = str := by
  rw [front, lnOf_of_short short, List.take_length]

theorem front_append_drop (str : Text) : front str ++ str.drop (lnOf str.length) = str :=
  List.take_append_drop _ str

end Length

section Loop

variable {size : Nat} (charSigned : Bool)

/-- A run of the loop over the front of an array. -/
theorem striplfLoop_bytes (text : Text) {array : CharArray size} {back : Text}
    (bytes : array.bytes = text ++ back) :
    ∃ after, striplfLoop charSigned text.length array = .ok after ∧
      after.bytes = striplf charSigned text ++
        (List.replicate (text.length - (striplf charSigned text).length) 0 ++ back) := by
  induction text using List.reverseRecOn generalizing array back with
  | nil => exact ⟨array, rfl, bytes⟩
  | append_singleton text byte inductionHypothesis =>
      have behind : array.bytes = text ++ ([byte] ++ back) := by rw [bytes, List.append_assoc]
      have found : array.byteAt text.length = .ok byte := CharArray.byteAt_of_bytes behind
      rw [List.length_append, List.length_singleton, striplfLoop, found, Checked.ok_bind]
      by_cases below : belowSpace charSigned byte = true
      · have stripped : striplf charSigned (text ++ [byte]) = striplf charSigned text :=
          List.rdropWhile_concat_pos _ text byte below
        have shorter : (striplf charSigned text).length ≤ text.length :=
          (List.rdropWhile_prefix _ text).length_le
        obtain ⟨stored, written, contents⟩ :=
          @CharArray.writeAt_split size array text [byte] [0] back behind rfl
        obtain ⟨after, returned, left⟩ := inductionHypothesis contents
        refine ⟨after, ?_, ?_⟩
        · rw [if_pos below, written]
          exact returned
        · rw [left, stripped, Nat.sub_add_comm shorter, List.replicate_succ', List.append_assoc]
      · have whole : striplf charSigned (text ++ [byte]) = text ++ [byte] :=
          List.rdropWhile_concat_neg _ text byte below
        refine ⟨array, if_neg below, ?_⟩
        rw [bytes, whole, List.length_append, List.length_singleton, Nat.sub_self]
        rfl

/-- Over a string, the loop has the front and leaves what is behind it. -/
theorem striplfInPlace_bytes {array : CharArray size} (terminated : array.Terminated) :
    ∃ back after, array.bytes = front array.str ++ back ∧
      striplfInPlace charSigned array = .ok after ∧
      after.bytes = striplf charSigned (front array.str) ++ (List.replicate
        ((front array.str).length - (striplf charSigned (front array.str)).length) 0 ++ back) := by
  obtain ⟨rest, shape⟩ := CharArray.exists_bytes_eq terminated
  have bytes : array.bytes =
      front array.str ++ (array.str.drop (lnOf array.str.length) ++ 0 :: rest) := by
    rw [← List.append_assoc, front_append_drop]
    exact shape
  obtain ⟨after, returned, left⟩ := striplfLoop_bytes charSigned (front array.str) bytes
  refine ⟨_, after, bytes, ?_, left⟩
  rw [striplfInPlace, CharArray.read_eq_str terminated, Checked.ok_bind, ← length_front]
  exact returned

/-- Nothing is written if the front does not end in a byte that compares below 32. -/
theorem striplfInPlace_of_endsFree {array : CharArray size} (terminated : array.Terminated)
    (free : EndsFree (belowSpace charSigned) (front array.str)) :
    striplfInPlace charSigned array = .ok array := by
  obtain ⟨back, after, bytes, returned, left⟩ := striplfInPlace_bytes charSigned terminated
  have same : after = array := by
    ext1
    rw [left, bytes, striplf, rdropWhile_of_endsFree free, Nat.sub_self]
    rfl
  rw [returned, same]

/-- Else what is left of the front is the string. -/
theorem striplfInPlace_of_not_endsFree {array : CharArray size} (terminated : array.Terminated)
    (ends : ¬ EndsFree (belowSpace charSigned) (front array.str)) :
    ∃ after, striplfInPlace charSigned array = .ok after ∧ after.Terminated ∧
      after.str = striplf charSigned (front array.str) := by
  obtain ⟨back, after, -, returned, left⟩ := striplfInPlace_bytes charSigned terminated
  have shorter : (striplf charSigned (front array.str)).length < (front array.str).length :=
    length_rdropWhile_lt ends
  obtain ⟨more, room⟩ := Nat.exists_eq_add_of_lt shorter
  have bytes : after.bytes = striplf charSigned (front array.str) ++
      0 :: (List.replicate more 0 ++ back) := by
    rw [left, room, Nat.add_assoc, Nat.add_sub_cancel_left, List.replicate_succ, List.cons_append]
  have noNul : 0 ∉ striplf charSigned (front array.str) := by
    intro member
    apply array.nul_notMem_str
    exact List.mem_of_mem_take ((List.rdropWhile_prefix _ (front array.str)).subset member)
  exact ⟨after, returned, CharArray.terminated_of_bytes bytes, CharArray.str_of_bytes noNul bytes⟩

/-- What the string becomes. -/
def strippedText (str : Text) : Text :=
  if EndsFree (belowSpace charSigned) (front str) then str else striplf charSigned (front str)

/-- The loop ends in a string, which a second call leaves alone. -/
theorem striplfInPlace_str {array : CharArray size} (terminated : array.Terminated) :
    ∃ after, striplfInPlace charSigned array = .ok after ∧ after.Terminated ∧
      after.str = strippedText charSigned array.str ∧
      striplfInPlace charSigned after = .ok after := by
  rw [strippedText]
  split
  · have kept := striplfInPlace_of_endsFree charSigned terminated ‹_›
    exact ⟨array, kept, terminated, rfl, kept⟩
  · obtain ⟨after, returned, afterTerminated, str⟩ :=
      striplfInPlace_of_not_endsFree charSigned terminated ‹_›
    refine ⟨after, returned, afterTerminated, str, ?_⟩
    have short : after.str.length < 2 ^ 31 := by
      have shorter := (List.rdropWhile_prefix (belowSpace charSigned) (front array.str)).length_le
      have below := lnOf_lt array.str.length
      rw [length_front] at shorter
      rw [str, striplf]
      omega
    apply striplfInPlace_of_endsFree charSigned afterTerminated
    rw [front_of_short short, str]
    exact endsFree_rdropWhile (belowSpace charSigned) (front array.str)

/-- On an array that an `int` can measure, the loop is the function on its string. -/
theorem striplfInPlace_eq_striplfField {array : CharArray size} (short : size ≤ 2 ^ 31) :
    striplfInPlace charSigned array = striplfField charSigned array := by
  by_cases terminated : array.Terminated
  · have room := CharArray.str_length_lt terminated
    obtain ⟨back, after, bytes, returned, left⟩ := striplfInPlace_bytes charSigned terminated
    rw [front_of_short (Nat.lt_of_lt_of_le room short)] at bytes left
    have length := length_stripped charSigned array.str
    have same : after = stripArray charSigned array := by
      ext1
      rw [left, stripArray, CharArray.overwrite_bytes (by omega), length, List.append_assoc]
      congr 2
      rw [bytes, List.drop_left]
    rw [returned, striplfField_eq charSigned terminated, same]
  · rw [striplfInPlace, striplfField, CharArray.read, if_neg terminated, if_neg terminated]
    rfl

end Loop

section Purpose

variable {size : Nat} {charSigned : Bool}

/-- What stripping is for: the longest prefix that does not end in a control byte is left,
and no byte from 128 on is removed. -/
structure Stripped (array after : CharArray size) : Prop where
  terminated : after.Terminated
  longest : IsLongestFree isControl array.str after.str
  upperKept : ∀ removed, array.str = after.str ++ removed → ∀ byte ∈ removed, byte < 128

/-- The call strips its string, and a second one changes nothing. -/
def StripsControl (charSigned : Bool) (array : CharArray size) : Prop :=
  ∃ after, striplfInPlace charSigned array = .ok after ∧ Stripped array after ∧
    striplfInPlace charSigned after = .ok after

/-- The last byte that is not a control byte is below 128. -/
def AsciiEnd (str : Text) : Prop :=
  ∀ byte ∈ (str.filter fun byte => !isControl byte).getLast?, byte < 128

instance (str : Text) : Decidable (AsciiEnd str) :=
  Option.decidableForallMem _

/-- The strings that are stripped right. A string from `2 ^ 31` bytes on is seen up to `ln`
only: either nothing is to be removed, or all that is behind `ln` is. -/
def StripCondition (charSigned : Bool) (str : Text) : Prop :=
  if str.length < 2 ^ 31 then charSigned = false ∨ AsciiEnd str
  else if EndsFree (belowSpace charSigned) (front str) then EndsFree isControl str
  else (∀ byte ∈ str.drop (lnOf str.length), isControl byte = true) ∧
    (charSigned = false ∨ AsciiEnd (front str))

theorem belowSpace_eq {byte : Byte} (notNul : byte ≠ 0) :
    belowSpace charSigned byte = (isControl byte || (charSigned && 128 ≤ byte)) := by
  have positive : 1 ≤ byte := by
    rw [UInt8.le_iff_toNat_le]
    have nonzero := UInt8.toNat_inj.not.mpr notNul
    simp only [UInt8.toNat_zero, UInt8.toNat_one] at nonzero ⊢
    omega
  have same : (byte < 32) = (byte ≤ 31) := by
    rw [UInt8.lt_iff_toNat_lt, UInt8.le_iff_toNat_le]
    exact propext Nat.lt_succ_iff
  simp [belowSpace, isControl, positive, same]

theorem isControl_lt {byte : Byte} (control : isControl byte = true) : byte < 128 := by
  simp only [isControl, Bool.and_eq_true, decide_eq_true_eq] at control
  exact UInt8.lt_of_le_of_lt control.2 (by decide)

theorem asciiEnd_concat_control {str : Text} {byte : Byte} (control : isControl byte = true) :
    AsciiEnd (str ++ [byte]) ↔ AsciiEnd str := by
  rw [AsciiEnd, AsciiEnd, List.filter_append, List.filter_cons_of_neg (by rw [control]; decide),
    List.filter_nil, List.append_nil]

theorem asciiEnd_concat {str : Text} {byte : Byte} (control : ¬ isControl byte = true) :
    AsciiEnd (str ++ [byte]) ↔ byte < 128 := by
  rw [AsciiEnd, List.filter_append, List.filter_cons_of_pos (by simpa using control),
    List.filter_nil, List.getLast?_concat]
  simp

/-- The loop and the purpose agree exactly if the last byte to stay is seen as one. -/
theorem striplf_eq_iff {str : Text} (string : 0 ∉ str) :
    striplf charSigned str = str.rdropWhile isControl ↔ charSigned = false ∨ AsciiEnd str := by
  induction str using List.reverseRecOn with
  | nil => exact iff_of_true rfl (.inr nofun)
  | append_singleton str byte inductionHypothesis =>
      have notNul : byte ≠ 0 := by
        rintro rfl
        exact string (List.mem_append_right str (.head _))
      have frontString : 0 ∉ str := fun member => string (List.mem_append_left [byte] member)
      have compare := @belowSpace_eq charSigned byte notNul
      by_cases control : isControl byte = true
      · have below : belowSpace charSigned byte = true := by rw [compare, control, Bool.true_or]
        rw [striplf, List.rdropWhile_concat_pos _ str byte below,
          List.rdropWhile_concat_pos _ str byte control, asciiEnd_concat_control control]
        exact inductionHypothesis frontString
      · rw [striplf, List.rdropWhile_concat_neg _ str byte control, asciiEnd_concat control]
        rw [(Bool.not_eq_true _).mp control, Bool.false_or] at compare
        by_cases below : belowSpace charSigned byte = true
        · have shorter := (List.rdropWhile_prefix (belowSpace charSigned) str).length_le
          rw [List.rdropWhile_concat_pos _ str byte below]
          refine iff_of_false ?_ ?_
          · intro same
            rw [same, List.length_append, List.length_singleton] at shorter
            omega
          · simpa [below] using compare
        · rw [List.rdropWhile_concat_neg _ str byte below]
          refine iff_of_true rfl ?_
          simpa [below, or_iff_not_imp_left] using compare

theorem strippedText_of_short {str : Text} (short : str.length < 2 ^ 31) :
    strippedText charSigned str = striplf charSigned str := by
  rw [strippedText, front_of_short short]
  split
  · exact (rdropWhile_of_endsFree ‹_›).symm
  · rfl

theorem strippedText_eq_iff {str : Text} (string : 0 ∉ str) :
    strippedText charSigned str = str.rdropWhile isControl ↔ StripCondition charSigned str := by
  rw [StripCondition]
  split
  · rw [strippedText_of_short ‹_›]
    exact striplf_eq_iff string
  · rw [strippedText]
    split
    · rw [eq_comm]
      exact rdropWhile_eq_self_iff_endsFree
    · have frontString : 0 ∉ front str := fun member => string (List.mem_of_mem_take member)
      have isPrefix : striplf charSigned (front str) <+: front str := List.rdropWhile_prefix _ _
      have whole : str.rdropWhile isControl =
          (front str ++ str.drop (lnOf str.length)).rdropWhile isControl := by
        rw [front_append_drop]
      rw [← striplf_eq_iff frontString, whole, eq_comm, rdropWhile_append_eq_iff isPrefix]
      exact and_congr_right fun _ => eq_comm

/-- The bytes that a prefix leaves out are control bytes if it is the longest one. -/
theorem upperKept_of_isLongestFree {str kept : Text} (longest : IsLongestFree isControl str kept) :
    ∀ removed, str = kept ++ removed → ∀ byte ∈ removed, byte < 128 := by
  intro removed shape byte member
  obtain ⟨back, split, allControl, -⟩ := rdropWhile_eq_iff.mp (isLongestFree_iff.mp longest).symm
  rw [shape, List.append_cancel_left_eq] at split
  exact isControl_lt (allControl byte (split ▸ member))

theorem stripsControl_iff_strippedText {array : CharArray size} (terminated : array.Terminated) :
    StripsControl charSigned array ↔
      strippedText charSigned array.str = array.str.rdropWhile isControl := by
  obtain ⟨after, returned, afterTerminated, str, again⟩ := striplfInPlace_str charSigned terminated
  rw [← str, ← isLongestFree_iff]
  constructor
  · rintro ⟨other, otherReturned, stripped, -⟩
    rw [returned, Except.ok.injEq] at otherReturned
    rw [otherReturned]
    exact stripped.longest
  · intro longest
    exact ⟨after, returned, ⟨afterTerminated, longest, upperKept_of_isLongestFree longest⟩, again⟩

/-- A call strips its string right exactly if neither the sign of `char` nor a length that is
no `int` comes into it. -/
theorem stripsControl_iff {array : CharArray size} (terminated : array.Terminated) :
    StripsControl charSigned array ↔ StripCondition charSigned array.str := by
  rw [stripsControl_iff_strippedText terminated]
  exact strippedText_eq_iff array.nul_notMem_str

/-- A caller id in ASCII, read with the newline of its line. -/
theorem stripsControl_ascii : StripsControl true (.filled 63 (lit "Jose" ++ [newline])) := by
  have str : (CharArray.filled 63 (lit "Jose" ++ [newline])).str = lit "Jose" ++ [newline] :=
    CharArray.str_filled (by decide) (by decide)
  refine (stripsControl_iff (CharArray.filled_terminated (by decide))).mpr ?_
  rw [str, StripCondition, if_pos (by decide)]
  exact .inr (by decide)

/-- A caller id in UTF-8 that ends in an accented letter. -/
def accented : Text := lit "Jos" ++ [0xC3, 0xA9]

/-- A signed `char` takes the letter off its end. -/
theorem not_stripsControl_accented :
    (CharArray.filled 63 accented).Terminated ∧
      (∃ after, striplfInPlace true (.filled 63 accented) = .ok after ∧ after.str = lit "Jos") ∧
      ¬ StripsControl true (.filled 63 accented) := by
  have terminated : (CharArray.filled 63 accented).Terminated :=
    CharArray.filled_terminated (by decide)
  have str : (CharArray.filled 63 accented).str = accented :=
    CharArray.str_filled (by decide) (by decide)
  have shortened : strippedText true accented = lit "Jos" := by
    rw [strippedText_of_short (by decide)]
    decide
  refine ⟨terminated, ?_, ?_⟩
  · obtain ⟨after, returned, -, left, -⟩ := striplfInPlace_str true terminated
    rw [str, shortened] at left
    exact ⟨after, returned, left⟩
  · rw [stripsControl_iff_strippedText terminated, str, shortened]
    decide

end Purpose

end Libamg.Str
