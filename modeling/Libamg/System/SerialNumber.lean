import Libamg.C.Buffer
import Libamg.C.Search

/-!
# The serial number

`libamg_system_get_serialnum` reads the first block of the bootloader's environment, turns
every NUL of its buffer into a newline and searches what is no string any more. The buffer
is as long as the block wanted; behind a shorter block it holds what was on the stack.
-/

namespace Libamg.System

open C

/-- The name looked for, with the sign behind it. -/
def serialKey : Text := lit "serialnum="

/-- What a call leaves, with the number of bytes of its buffer that it examined. -/
structure Serial (maxlen : Nat) where
  value : Int32
  data : CharArray maxlen
  examined : Nat

/-- A NUL becomes a newline. -/
def nulToNewline (byte : Byte) : Byte := if byte = 0 then newline else byte

/-- The loop over the whole buffer. -/
def replaceNuls {size : Nat} (buffer : CharArray size) : CharArray size :=
  ⟨buffer.bytes.map nulToNewline, by rw [List.length_map, buffer.size_eq]⟩

/-- The search in the buffer and the copy out of it. -/
def copySerialnum {size : Nat} (buffer : CharArray size) (maxlen : Nat) : Checked (Serial maxlen) := do
  match ← strstr serialKey buffer.bytes with
  | none => return ⟨-1, .zero maxlen, size⟩
  | some offset =>
      let p := offset + serialKey.length
      let q ← seek newline (buffer.bytes.drop p) p
      let buffer ← buffer.writeAt q [0]
      let text ← buffer.strAt p
      return ⟨0, (CharArray.zero maxlen).strncpy text maxlen (Nat.le_refl maxlen), size⟩

/-- `libamg_system_get_serialnum`, for what `open` and `read` answer: `none` where the call
fails, and the bytes obtained. -/
def getSerialnum (stack : CharArray 4096) (maxlen : Nat) (file : Option (Option Text)) :
    Checked (Serial maxlen) :=
  match file with
  | none | some none | some (some []) => .ok ⟨-1, .zero maxlen, 0⟩
  | some (some bytes) => copySerialnum (replaceNuls (stack.overwrite bytes)) maxlen

/-! ## The partition -/

/-- One string of the environment. -/
structure Assignment where
  name : Text
  value : Text
  nameKey : equals ∉ name
  nameString : 0 ∉ name
  valueString : 0 ∉ value

/-- `name=value` and the NUL behind it. -/
def Assignment.text (assignment : Assignment) : Text :=
  assignment.name ++ equals :: assignment.value ++ [0]

/-- The environment between other bytes. -/
structure Partition where
  front : Text
  assignments : List Assignment
  back : Text

namespace Partition

variable (partition : Partition)

def bytes : Text :=
  partition.front ++ (partition.assignments.map Assignment.text).flatten ++ partition.back

/-- The value of the first variable of the name among those that lie in the block: `left`
bytes of it are behind the variables before. -/
def lookup (left : Nat) : List Assignment → Option Text
  | [] => none
  | first :: rest =>
      if first.text.length ≤ left then
        if first.name = lit "serialnum" then some first.value
        else lookup (left - first.text.length) rest
      else none

/-- The value of the serial number in the first `count` bytes. -/
def serialnum (count : Nat) : Option Text :=
  lookup (count - partition.front.length) partition.assignments

end Partition

/-- How the partition is read. -/
inductive Access (partition : Partition) where
  | unopened
  | failed
  | got (count : Nat) (fits : count ≤ 4096) (available : count ≤ partition.bytes.length)

namespace Access

variable {partition : Partition}

/-- The bytes obtained. -/
def block : Access partition → Text
  | unopened | failed => []
  | got count _ _ => partition.bytes.take count

/-- What `open` and `read` answer. -/
def file : Access partition → Option (Option Text)
  | unopened => none
  | failed => some none
  | got count _ _ => some (some (partition.bytes.take count))

end Access

/-- Only bytes that were read are examined, and the value of the serial number is stored as
a string as far as it fits; or -1 is returned and the string is empty. -/
def LooksUpSerial {partition : Partition} (stack : CharArray 4096) (access : Access partition)
    (room : Nat) : Prop :=
  ∃ serial, getSerialnum stack (room + 1) access.file = .ok serial ∧
    serial.examined ≤ access.block.length ∧ serial.data.Terminated ∧
    match partition.serialnum access.block.length with
    | some value => serial.value = 0 ∧ serial.data.str = value.take room
    | none => serial.value = -1 ∧ serial.data.str = []

/-! ## The search -/

theorem serialKey_clean : 0 ∉ serialKey ∧ newline ∉ serialKey := by decide

theorem serialKey_ne_nil : serialKey ≠ [] := by decide

section Replace

variable {text memory : Text}

theorem map_nulToNewline (noNul : 0 ∉ text) : text.map nulToNewline = text := by
  conv => rhs; rw [← List.map_id text]
  refine List.map_congr_left fun byte member => if_neg ?_
  rintro rfl
  exact noNul member

theorem nul_notMem_map (memory : Text) : 0 ∉ memory.map nulToNewline := by
  intro member
  obtain ⟨byte, -, same⟩ := List.mem_map.mp member
  rw [nulToNewline] at same
  split at same
  · exact absurd same (by decide)
  · contradiction

/-- A text without newlines has no NUL in front of the replacement either. -/
theorem clean_of_map (noNewline : newline ∉ text.map nulToNewline) :
    0 ∉ text ∧ newline ∉ text := by
  constructor
  · exact fun nul => noNewline (List.mem_map.mpr ⟨0, nul, rfl⟩)
  · exact fun line => noNewline (List.mem_map.mpr ⟨newline, line, rfl⟩)

theorem isPrefix_map_nulToNewline (noNul : 0 ∉ text) (noNewline : newline ∉ text) :
    text <+: memory.map nulToNewline ↔ text <+: memory := by
  constructor
  · rintro ⟨rest, shape⟩
    obtain ⟨front, back, rfl, same, -⟩ := List.map_eq_append_iff.mp shape.symm
    have clean := @clean_of_map front (same ▸ noNewline)
    rw [map_nulToNewline clean.1] at same
    rw [← same]
    exact List.prefix_append front back
  · rintro ⟨rest, rfl⟩
    rw [List.map_append, map_nulToNewline noNul]
    exact List.prefix_append _ _

theorem firstIn_map_nulToNewline {offset : Nat} :
    FirstIn serialKey (memory.map nulToNewline) offset ↔ FirstIn serialKey memory offset := by
  obtain ⟨noNul, noNewline⟩ := serialKey_clean
  simp only [FirstIn, ← List.map_drop, isPrefix_map_nulToNewline noNul noNewline]

end Replace

/-- The bytes behind the first key of a block up to the next NUL or newline in the block. -/
def BehindKey (block text : Text) : Prop :=
  ∃ offset stop rest, FirstIn serialKey block offset ∧
    block.drop (offset + serialKey.length) = text ++ stop :: rest ∧
    (stop = 0 ∨ stop = newline) ∧ 0 ∉ text ∧ newline ∉ text

theorem BehindKey.noNul {block text : Text} (behind : BehindKey block text) : 0 ∉ text := by
  obtain ⟨offset, stop, rest, first, shape, ends, noNul, noNewline⟩ := behind
  exact noNul

/-- What stands behind the key is copied as far as there is room for it. -/
theorem copySerialnum_of_behindKey {size maxlen : Nat} {buffer : CharArray size} {text : Text}
    (behind : BehindKey buffer.bytes text) : copySerialnum (replaceNuls buffer) maxlen =
      .ok ⟨0, (CharArray.zero maxlen).strncpy text maxlen (Nat.le_refl maxlen), size⟩ := by
  obtain ⟨offset, stop, rest, first, shape, ends, noNul, noNewline⟩ := behind
  have searched : strstr serialKey (replaceNuls buffer).bytes = .ok (some offset) :=
    (strstr_eq_ok_iff serialKey_ne_nil (nul_notMem_map _)).mpr
      ⟨offset, rfl, firstIn_map_nulToNewline.mpr first⟩
  have stops : nulToNewline stop = newline := by
    rcases ends with rfl | rfl <;> rfl
  have tail : (replaceNuls buffer).bytes.drop (offset + serialKey.length) =
      text ++ newline :: rest.map nulToNewline := by
    rw [replaceNuls, ← List.map_drop, shape, List.map_append, List.map_cons,
      map_nulToNewline noNul, stops]
  have parts : (replaceNuls buffer).bytes =
      ((replaceNuls buffer).bytes.take (offset + serialKey.length) ++ text) ++
        ([newline] ++ rest.map nulToNewline) := by
    rw [List.append_assoc, List.singleton_append, ← tail, List.take_append_drop]
  have inside : offset + serialKey.length ≤ (replaceNuls buffer).bytes.length := by
    have lengths := congrArg List.length tail
    rw [List.length_drop, List.length_append, List.length_cons] at lengths
    omega
  have length : ((replaceNuls buffer).bytes.take (offset + serialKey.length) ++ text).length =
      offset + serialKey.length + text.length := by
    rw [List.length_append, List.length_take_of_le inside]
  obtain ⟨after, written, contents⟩ :=
    @CharArray.writeAt_split size (replaceNuls buffer) _ _ [0] _ parts rfl
  rw [length] at written
  have string : after.bytes.drop (offset + serialKey.length) =
      text ++ 0 :: rest.map nulToNewline := by
    rw [contents, List.append_assoc]
    exact List.drop_left' (List.length_take_of_le inside)
  rw [copySerialnum, searched, Checked.ok_bind]
  dsimp only
  rw [tail, seek_eq noNewline, Checked.ok_bind, written, Checked.ok_bind,
    CharArray.strAt_eq noNul string]
  rfl

/-- The search ends inside the buffer exactly if there is a key and an end behind it. -/
theorem copySerialnum_eq_ok_iff {size maxlen : Nat} {buffer : CharArray size}
    {serial : Serial maxlen} :
    copySerialnum (replaceNuls buffer) maxlen = .ok serial ↔ ∃ text, BehindKey buffer.bytes text ∧
      serial = ⟨0, (CharArray.zero maxlen).strncpy text maxlen (Nat.le_refl maxlen), size⟩ := by
  have search := @strstr_eq_ok_iff serialKey (buffer.bytes.map nulToNewline) serialKey_ne_nil
    (nul_notMem_map _)
  simp only [firstIn_map_nulToNewline] at search
  constructor
  · intro copied
    obtain ⟨found, searched, returned⟩ := Checked.bind_eq_ok copied
    obtain ⟨offset, rfl, first⟩ := search.mp searched
    obtain ⟨q, sought, -⟩ := Checked.bind_eq_ok returned
    obtain ⟨front, tail, shape, noNewline⟩ := exists_of_seek sought
    rw [replaceNuls, ← List.map_drop] at shape
    obtain ⟨text, rest, parts, same, shape⟩ := List.map_eq_append_iff.mp shape
    obtain ⟨stop, rest, rfl, stops, -⟩ := List.map_eq_cons_iff.mp shape
    have clean := @clean_of_map text (same ▸ noNewline)
    have ends : stop = 0 ∨ stop = newline := by
      rw [nulToNewline] at stops
      split at stops
      · exact .inl ‹_›
      · exact .inr stops
    have behind : BehindKey buffer.bytes text :=
      ⟨offset, stop, rest, first, parts, ends, clean⟩
    rw [copySerialnum_of_behindKey behind] at copied
    exact ⟨text, behind, (Except.ok.inj copied).symm⟩
  · rintro ⟨text, behind, rfl⟩
    exact copySerialnum_of_behindKey behind

/-- What the read obtained is all of the buffer, and the text behind its first key is the
value of the serial number as far as that fits; or the read obtained nothing. -/
def Access.Regular {partition : Partition} (access : Access partition) (room : Nat) : Prop :=
  access.block = [] ∨ access.block.length = 4096 ∧
    ∃ value, partition.serialnum 4096 = some value ∧ BehindKey access.block (value.take room)

theorem serialnum_zero (partition : Partition) : partition.serialnum 0 = none := by
  rw [Partition.serialnum, Nat.zero_sub]
  cases partition.assignments with
  | nil => rfl
  | cons first rest =>
      refine if_neg ?_
      rw [Assignment.text, List.length_append, List.length_singleton]
      omega

theorem Access.file_of_block {partition : Partition} {access : Access partition}
    (nonempty : access.block ≠ []) : access.file = some (some access.block) := by
  cases access with
  | unopened | failed => exact absurd rfl nonempty
  | got => rfl

/-- With nothing read nothing is examined, and -1 is returned. -/
theorem getSerialnum_nothing {partition : Partition} (stack : CharArray 4096) (maxlen : Nat)
    {access : Access partition} (nothing : access.block = []) :
    getSerialnum stack maxlen access.file = .ok ⟨-1, .zero maxlen, 0⟩ := by
  cases access with
  | unopened | failed => rfl
  | got count fits available =>
      rw [Access.block] at nothing
      rw [Access.file, nothing]
      rfl

/-- A block that fills the buffer is all that the buffer holds. -/
theorem getSerialnum_something {partition : Partition} (stack : CharArray 4096) (maxlen : Nat)
    {access : Access partition} (nonempty : access.block ≠ []) :
    getSerialnum stack maxlen access.file =
      copySerialnum (replaceNuls (stack.overwrite access.block)) maxlen := by
  rw [Access.file_of_block nonempty]
  cases bytes : access.block with
  | nil => exact absurd bytes nonempty
  | cons byte rest => rfl

theorem Access.block_length_le {partition : Partition} (access : Access partition) :
    access.block.length ≤ 4096 := by
  cases access with
  | unopened | failed => exact Nat.zero_le 4096
  | got count fits available =>
      rw [Access.block, List.length_take]
      omega

/-- A text shorter than the cleared array is what the array then holds. -/
theorem str_stored {room : Nat} {text : Text} (noNul : 0 ∉ text) (short : text.length < room + 1) :
    ((CharArray.zero (room + 1)).strncpy text (room + 1) (Nat.le_refl _)).str = text :=
  CharArray.str_strncpy_zero (Nat.le_refl _) noNul (Nat.le_of_lt short) short

/-- The serial number is looked up as it should be exactly if the read is regular. -/
theorem looksUpSerial_iff {partition : Partition} (stack : CharArray 4096)
    (access : Access partition) (room : Nat) :
    LooksUpSerial stack access room ↔ access.Regular room := by
  by_cases nothing : access.block = []
  · refine iff_of_true ⟨_, getSerialnum_nothing stack _ nothing, Nat.zero_le _, ?_, ?_⟩ (.inl nothing)
    · exact (CharArray.closed_zero room).terminated
    · rw [nothing, List.length_nil, serialnum_zero]
      exact ⟨rfl, CharArray.str_zero⟩
  · rw [Access.Regular, or_iff_right nothing, LooksUpSerial, getSerialnum_something stack _ nothing]
    by_cases whole : access.block.length = 4096
    · have bytes : (stack.overwrite access.block).bytes = access.block := by
        rw [CharArray.overwrite_bytes (Nat.le_of_eq whole),
          List.drop_of_length_le (by rw [stack.size_eq, whole]), List.append_nil]
      rw [whole, and_iff_right rfl]
      constructor
      · rintro ⟨serial, returned, -, terminated, stored⟩
        obtain ⟨text, behind, rfl⟩ := copySerialnum_eq_ok_iff.mp returned
        rw [bytes] at behind
        have short := (CharArray.terminated_strncpy_full _ behind.noNul).mp terminated
        cases found : partition.serialnum 4096 with
        | none =>
            rw [found] at stored
            have impossible : (0 : Int32) = -1 := stored.1
            exact absurd impossible (by decide)
        | some value =>
            rw [found, str_stored behind.noNul short] at stored
            exact ⟨value, rfl, stored.2 ▸ behind⟩
      · rintro ⟨value, found, behind⟩
        have short : (value.take room).length < room + 1 :=
          Nat.lt_succ_of_le (List.length_take_le room value)
        have noNul := behind.noNul
        rw [← bytes] at behind
        refine ⟨_, copySerialnum_of_behindKey behind, Nat.le_refl 4096, ?_, ?_⟩
        · exact (CharArray.terminated_strncpy_full _ noNul).mpr short
        · rw [found]
          exact ⟨rfl, str_stored noNul short⟩
    · refine iff_of_false ?_ fun both => whole both.1
      rintro ⟨serial, returned, inside, -⟩
      obtain ⟨text, -, rfl⟩ := copySerialnum_eq_ok_iff.mp returned
      have fits := access.block_length_le
      exact whole (Nat.le_antisymm fits inside)

/-- Bytes without any environment. -/
def Partition.blank (bytes : Text) : Partition := ⟨[], [], bytes⟩

theorem Partition.blank_bytes (bytes : Text) : (Partition.blank bytes).bytes = bytes := rfl

/-- A key is no text of one byte repeated. -/
theorem not_behindKey_replicate {count : Nat} {byte : Byte} {text : Text} (other : byte ≠ 115) :
    ¬ BehindKey (List.replicate count byte) text := by
  rintro ⟨offset, stop, rest, ⟨begins, -⟩, -⟩
  have first : (115 : Byte) ∈ serialKey := by decide
  have inside := List.mem_of_mem_drop (begins.subset first)
  exact other (List.eq_of_mem_replicate inside).symm

/-- An erased flash chip. -/
def erased : Partition := .blank (List.replicate 4096 255)

theorem erased_available : 4096 ≤ erased.bytes.length := by
  rw [erased, Partition.blank_bytes, List.length_replicate]

/-- There is no serial number in it, and the search for one leaves the buffer. -/
theorem lookup_erased :
    ¬ LooksUpSerial (.zero 4096) (.got 4096 (Nat.le_refl 4096) erased_available) 15 := by
  rintro ⟨serial, returned, -⟩
  have block : (Access.got 4096 (Nat.le_refl 4096) erased_available).block =
      List.replicate 4096 255 := by
    rw [Access.block, erased, Partition.blank_bytes, List.take_replicate, Nat.min_self]
  have nonempty : (Access.got 4096 (Nat.le_refl 4096) erased_available).block ≠ [] := by
    rw [block, Ne, List.replicate_eq_nil_iff]
    decide
  rw [getSerialnum_something _ _ nonempty] at returned
  obtain ⟨text, behind, -⟩ := copySerialnum_eq_ok_iff.mp returned
  rw [block, CharArray.overwrite_bytes (Nat.le_of_eq List.length_replicate), CharArray.zero,
    List.length_replicate, List.drop_replicate, Nat.sub_self, List.replicate_zero,
    List.append_nil] at behind
  exact not_behindKey_replicate (by decide) behind

end Libamg.System
