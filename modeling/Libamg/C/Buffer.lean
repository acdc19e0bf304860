import Libamg.C.Memory

/-!
# Stores into arrays

A store names an index; one behind the end of the array is a fault. What a store leaves
is said of the front of the array up to it, which is how loops fill an array.
-/

namespace Libamg.C

section Store

variable {α : Type} {size : Nat}

/-- Store an element of an array. -/
def store (array : Vector α size) (index : Nat) (value : α) : Checked (Vector α size) :=
  if inside : index < size then .ok (array.set index value inside) else .error .outOfBounds

theorem store_inside {array : Vector α size} {index : Nat} (inside : index < size) (value : α) :
    store array index value = .ok (array.set index value inside) := dif_pos inside

theorem store_overrun {array : Vector α size} {index : Nat} (behind : size ≤ index) (value : α) :
    store array index value = .error .outOfBounds := dif_neg (Nat.not_lt.mpr behind)

/-- The front of the array up to the stored element. -/
theorem take_set {array : Vector α size} {index : Nat} (inside : index < size) (value : α) :
    (array.set index value inside).toList.take (index + 1) = array.toList.take index ++ [value] := by
  have within : index < array.toList.length := by
    rw [Vector.length_toList]
    exact inside
  rw [Vector.toList_set, List.take_set, List.take_succ_eq_append_getElem within,
    List.set_append_right _ _ (List.length_take_le index array.toList), List.length_take,
    Nat.min_eq_left (Nat.le_of_lt within), Nat.sub_self, List.set_cons_zero]

end Store

namespace CharArray

variable {size : Nat}

/-- Store bytes from an offset of an array on; the array must hold all of them. -/
def writeAt (array : CharArray size) (offset : Nat) (bytes : Text) : Checked (CharArray size) :=
  if fits : offset + bytes.length ≤ size then
    .ok ⟨array.bytes.take offset ++ (bytes ++ array.bytes.drop (offset + bytes.length)), by
      simp only [List.length_append, List.length_take, List.length_drop, array.size_eq]
      omega⟩
  else .error .outOfBounds

theorem writeAt_bytes {array : CharArray size} {offset : Nat} {bytes : Text}
    (fits : offset + bytes.length ≤ size) :
    ∃ after, array.writeAt offset bytes = .ok after ∧
      after.bytes = array.bytes.take offset ++ (bytes ++ array.bytes.drop (offset + bytes.length)) :=
  ⟨_, dif_pos fits, rfl⟩

/-- Bytes written over as many others. -/
theorem writeAt_split {array : CharArray size} {front old new back : Text}
    (bytes : array.bytes = front ++ (old ++ back)) (same : old.length = new.length) :
    ∃ after, array.writeAt front.length new = .ok after ∧ after.bytes = front ++ (new ++ back) := by
  have fits : front.length + new.length ≤ size := by
    have length := congrArg List.length bytes
    rw [array.size_eq, List.length_append, List.length_append] at length
    omega
  obtain ⟨after, written, contents⟩ := @writeAt_bytes size array _ _ fits
  refine ⟨after, written, ?_⟩
  rw [contents, bytes, List.take_left, ← same, ← List.drop_drop, List.drop_left, List.drop_left]

theorem writeAt_overrun {array : CharArray size} {offset : Nat} {bytes : Text}
    (behind : size < offset + bytes.length) : array.writeAt offset bytes = .error .outOfBounds :=
  dif_neg (Nat.not_le.mpr behind)

/-- The string from an offset of an array on. -/
def strAt (array : CharArray size) (offset : Nat) : Checked Text :=
  if 0 ∈ array.bytes.drop offset then .ok (cstr (array.bytes.drop offset)) else .error .outOfBounds

theorem strAt_eq {array : CharArray size} {offset : Nat} {text rest : Text} (string : 0 ∉ text)
    (bytes : array.bytes.drop offset = text ++ 0 :: rest) : array.strAt offset = .ok text := by
  rw [strAt, bytes, if_pos (by simp), cstr_append_nul string]

/-- `strcat`: the source and its NUL go over the NUL of the string in the array. -/
def strcat (array : CharArray size) (source : Text) : Checked (CharArray size) := do
  let front ← array.read
  array.writeAt front.length (source ++ [0])

/-- There is room for the longer string. -/
theorem strcat_eq {array : CharArray size} {source : Text} (terminated : array.Terminated)
    (string : 0 ∉ source) (fits : array.str.length + source.length < size) :
    ∃ after, array.strcat source = .ok after ∧ after.Terminated ∧
      after.str = array.str ++ source := by
  have room : array.str.length + (source ++ [0]).length ≤ size := by
    rw [List.length_append, List.length_singleton]
    omega
  obtain ⟨rest, shape⟩ := exists_bytes_eq terminated
  obtain ⟨after, written, contents⟩ := @writeAt_bytes size array _ _ room
  have bytes : after.bytes = (array.str ++ source) ++
      0 :: array.bytes.drop (array.str.length + (source ++ [0]).length) := by
    have front : array.bytes.take array.str.length = array.str := by
      conv => lhs; rw [shape]
      exact List.take_left
    rw [contents, front]
    simp only [List.append_assoc, List.singleton_append]
  have clean : 0 ∉ array.str ++ source :=
    List.not_mem_append (nul_notMem_str array) string
  refine ⟨after, ?_, terminated_of_bytes bytes, str_of_bytes clean bytes⟩
  rw [strcat, read_eq_str terminated]
  exact written

theorem strcat_overrun {array : CharArray size} {source : Text} (terminated : array.Terminated)
    (behind : size ≤ array.str.length + source.length) :
    array.strcat source = .error .outOfBounds := by
  rw [strcat, read_eq_str terminated]
  refine writeAt_overrun ?_
  rw [List.length_append, List.length_singleton]
  omega

@[simp] theorem overwrite_nil (array : CharArray size) : array.overwrite [] = array := by
  ext1
  rw [overwrite_bytes (Nat.zero_le size)]
  rfl

/-- Behind the bytes stored so far, the next ones go where they belong. -/
theorem writeAt_overwrite (array : CharArray size) {front bytes : Text}
    (fits : front.length + bytes.length ≤ size) :
    (array.overwrite front).writeAt front.length bytes = .ok (array.overwrite (front ++ bytes)) := by
  have frontFits : front.length ≤ size := by omega
  have bothFit : (front ++ bytes).length ≤ size := by
    rw [List.length_append]
    exact fits
  obtain ⟨after, written, contents⟩ := @writeAt_bytes size (array.overwrite front) _ _ fits
  rw [written]
  congr 1
  ext1
  rw [contents, overwrite_bytes frontFits, overwrite_bytes bothFit, List.take_left,
    List.drop_append, List.drop_of_length_le (Nat.le_add_right _ _), List.nil_append,
    List.drop_drop, Nat.add_sub_cancel_left, List.length_append, List.append_assoc]

end CharArray

end Libamg.C
