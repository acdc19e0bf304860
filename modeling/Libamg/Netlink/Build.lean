import Libamg.Netlink.Attributes
import Libamg.Semantics.Run

/-!
# Building a netlink message

`addattr_l` and `addattr32` append attributes to a message in a buffer. A run of calls
refines appending to a list of attributes for as long as there is room, and `parse_rtattr`
finds the last attribute of each type with the payload it was given (`runChecked_addAttr`).
All of this is about payloads whose length fits into `rta_len`; that of a longer one is
stored without its upper bits.
-/

namespace Libamg.Netlink

open C Semantics

/-- What an `unsigned` calculation of 32 bits keeps. -/
def wrap32 (value : Nat) : Nat := value % 4294967296

/-- An `int` as an `unsigned`. -/
def toUnsigned (value : Int) : Nat := (value % 4294967296).toNat

section Functions

variable (bigEndian : Bool) {size : Nat}

/-- What the functions that add an attribute store at an offset. -/
def writeRtattr (n : CharArray size) (offset : Nat) (type : Int) (len : Nat) (data : Text) :
    Checked (CharArray size) := do
  let n ← n.writeAt (offset + 2) (storeNum bigEndian 2 (toUnsigned type))
  let n ← n.writeAt offset (storeNum bigEndian 2 len)
  n.writeAt (offset + 4) data

/-- `addattr_l` with the `data` of `alen` bytes: its status and the message afterwards. -/
def addattrL (n : CharArray size) (maxlen type : Int) (data : Text) :
    Checked (Int × CharArray size) := do
  let len := 4 + data.length
  let nlmsgLen ← readNum bigEndian n.bytes 0 4
  let tail := wrap32 (align4 nlmsgLen)
  if toUnsigned maxlen < wrap32 (tail + align4 len) then return (-1, n)
  else
    let n ← writeRtattr bigEndian n tail type len data
    let n ← n.writeAt 0 (storeNum bigEndian 4 (tail + align4 len))
    return (0, n)

/-- `addattr32`, which does not align the length it adds. -/
def addattr32 (n : CharArray size) (maxlen type : Int) (data : UInt32) :
    Checked (Int × CharArray size) := do
  let len := 4 + 4
  let nlmsgLen ← readNum bigEndian n.bytes 0 4
  let tail := wrap32 (align4 nlmsgLen)
  if toUnsigned maxlen < wrap32 (tail + len) then return (-1, n)
  else
    let n ← writeRtattr bigEndian n tail type len (storeNum bigEndian 4 data.toNat)
    let n ← n.writeAt 0 (storeNum bigEndian 4 (tail + len))
    return (0, n)

/-- `addattr32` is `addattr_l` with the bytes of the number. -/
theorem addattr32_eq (n : CharArray size) (maxlen type : Int) (data : UInt32) :
    addattr32 bigEndian n maxlen type data =
      addattrL bigEndian n maxlen type (storeNum bigEndian 4 data.toNat) := by
  have aligned : align4 (4 + 4) = 4 + 4 := rfl
  rw [addattr32, addattrL, storeNum_length, aligned]

end Functions

/-! ## Attributes -/

/-- An attribute whose length fits into `rta_len`. -/
structure Attribute where
  type : UInt16
  payload : Text
  short : 4 + payload.length < 65536

namespace Attribute

variable (bigEndian : Bool) (attr : Attribute)

/-- The bytes from `rta_len` to the end of the payload. -/
def bytes : Text :=
  storeNum bigEndian 2 (4 + attr.payload.length) ++
    (storeNum bigEndian 2 attr.type.toNat ++ attr.payload)

/-- The room the attribute takes in a message. -/
def space : Nat := align4 (4 + attr.payload.length)

@[simp] theorem bytes_length : (attr.bytes bigEndian).length = 4 + attr.payload.length := by
  rw [bytes, List.length_append, List.length_append, storeNum_length, storeNum_length]
  omega

/-- The attribute in memory, with the bytes up to the next boundary. -/
def record (padding : Text) (padded : 4 + attr.payload.length + padding.length = attr.space) :
    Framing.Record rtattr bigEndian where
  bytes := attr.bytes bigEndian
  padding := padding
  complete := by
    rw [bytes_length]
    exact Nat.le_add_right 4 _
  counted := by
    have short := attr.short
    have front : (attr.bytes bigEndian).take rtattr.width =
        storeNum bigEndian 2 (4 + attr.payload.length) := by
      have width : rtattr.width = (storeNum bigEndian 2 (4 + attr.payload.length)).length :=
        (storeNum_length bigEndian 2 _).symm
      rw [bytes, width, List.take_left]
    rw [front, loadNum_storeNum, bytes_length]
    exact Nat.mod_eq_of_lt short
  padded := by
    rw [bytes_length]
    exact padded

end Attribute

/-- What a pointer to an attribute gives: the type and the payload. -/
def view (bigEndian : Bool) (rta : Text) : Nat × Text :=
  (typeOf bigEndian rta, (rtaData rta).take (loadNum bigEndian (rta.take 2) - 4))

section View

variable {bigEndian : Bool}

theorem view_attr (attr : Attribute) (behind : Text) :
    view bigEndian (attr.bytes bigEndian ++ behind) =
      (attr.type.toNat, attr.payload) := by
  have short := attr.short
  have type := attr.type.toNat_lt
  have shape : attr.bytes bigEndian ++ behind =
      storeNum bigEndian 2 (4 + attr.payload.length) ++
        (storeNum bigEndian 2 attr.type.toNat ++ (attr.payload ++ behind)) := by
    simp only [Attribute.bytes, List.append_assoc]
  have length (value : Nat) : (storeNum bigEndian 2 value).length = 2 :=
    storeNum_length bigEndian 2 value
  have rtaLen : loadNum bigEndian ((attr.bytes bigEndian ++ behind).take 2) =
      4 + attr.payload.length := by
    rw [shape, List.take_left' (length _), loadNum_storeNum]
    exact Nat.mod_eq_of_lt short
  have rtaType : typeOf bigEndian (attr.bytes bigEndian ++ behind) = attr.type.toNat := by
    rw [typeOf, shape, List.drop_left' (length _), List.take_left' (length _), loadNum_storeNum]
    exact Nat.mod_eq_of_lt type
  have data : rtaData (attr.bytes bigEndian ++ behind) = attr.payload ++ behind := by
    rw [rtaData, shape, ← List.append_assoc]
    refine List.drop_left' ?_
    rw [List.length_append, length, length]
  rw [view, rtaLen, rtaType, data, Nat.add_sub_cancel_left, List.take_left]

end View

/-! ## Drafts -/

/-- A buffer begins with a message: its length and then `front`, up to a boundary. -/
structure Draft {size : Nat} (bigEndian : Bool) (n : CharArray size) (front : Text) : Prop where
  laidOut : ∃ behind, n.bytes = storeNum bigEndian 4 (4 + front.length) ++ (front ++ behind)
  aligned : front.length % 4 = 0

section Drafts

variable {bigEndian : Bool} {size maxlen : Nat} {n : CharArray size} {front : Text}

theorem toUnsigned_natCast {value : Nat} (short : value < 4294967296) :
    toUnsigned (value : Int) = value := by
  unfold toUnsigned
  omega

theorem wrap32_eq {value : Nat} (short : value < 4294967296) : wrap32 value = value :=
  Nat.mod_eq_of_lt short

/-- A text that is long enough has a front of a length. -/
theorem exists_front {text : Text} {length : Nat} (long : length ≤ text.length) :
    ∃ front back, text = front ++ back ∧ front.length = length :=
  ⟨text.take length, text.drop length, (List.take_append_drop length text).symm,
    List.length_take_of_le long⟩

/-- Bytes at an offset are written over as many others. -/
theorem writeAt_over {array : CharArray size} {front old new back : Text} {offset : Nat}
    (bytes : array.bytes = front ++ (old ++ back)) (same : old.length = new.length)
    (reached : front.length = offset) :
    ∃ after, array.writeAt offset new = .ok after ∧ after.bytes = front ++ (new ++ back) :=
  reached ▸ CharArray.writeAt_split bytes same

/-- An attribute is written over as many bytes as it has. -/
theorem writeRtattr_bytes {front old back : Text} {offset : Nat} (attr : Attribute)
    (bytes : n.bytes = front ++ (old ++ back)) (same : old.length = 4 + attr.payload.length)
    (reached : front.length = offset) :
    ∃ after, writeRtattr bigEndian n offset attr.type.toNat (4 + attr.payload.length) attr.payload =
        .ok after ∧ after.bytes = front ++ (attr.bytes bigEndian ++ back) := by
  have type := attr.type.toNat_lt
  obtain ⟨oldLen, behindLen, rfl, lenLength⟩ := @exists_front old 2 (by omega)
  rw [List.length_append] at same
  obtain ⟨oldType, oldData, rfl, typeLength⟩ := @exists_front behindLen 2 (by omega)
  rw [List.length_append] at same
  have stored (value : Nat) : (storeNum bigEndian 2 value).length = 2 := storeNum_length bigEndian 2 value
  have atType : n.bytes = (front ++ oldLen) ++ (oldType ++ (oldData ++ back)) := by
    simpa only [List.append_assoc] using bytes
  obtain ⟨first, wroteType, firstBytes⟩ := @writeAt_over size n _ _
    (storeNum bigEndian 2 attr.type.toNat) _ (offset + 2) atType (by rw [typeLength, stored]) (by
      rw [List.length_append]
      omega)
  have atLen : first.bytes =
      front ++ (oldLen ++ (storeNum bigEndian 2 attr.type.toNat ++ (oldData ++ back))) := by
    simpa only [List.append_assoc] using firstBytes
  obtain ⟨second, wroteLen, secondBytes⟩ := @writeAt_over size first _ _
    (storeNum bigEndian 2 (4 + attr.payload.length)) _ offset atLen (by rw [lenLength, stored]) reached
  have atData : second.bytes = (front ++ (storeNum bigEndian 2 (4 + attr.payload.length) ++
      storeNum bigEndian 2 attr.type.toNat)) ++ (oldData ++ back) := by
    simpa only [List.append_assoc] using secondBytes
  obtain ⟨after, wroteData, afterBytes⟩ := @writeAt_over size second _ _ attr.payload _ (offset + 4)
    atData (by omega) (by
      simp only [List.length_append, stored]
      omega)
  refine ⟨after, ?_, ?_⟩
  · rw [writeRtattr, toUnsigned_natCast (by omega), wroteType, Checked.ok_bind, wroteLen,
      Checked.ok_bind, wroteData]
  · rw [afterBytes, Attribute.bytes]
    simp only [List.append_assoc]

namespace Draft

variable (draft : Draft bigEndian n front)

include draft

theorem length_le : 4 + front.length ≤ size := by
  obtain ⟨behind, bytes⟩ := draft.laidOut
  have length := congrArg List.length bytes
  simp only [List.length_append, n.size_eq, storeNum_length] at length
  omega

/-- The length of a message as it is read. -/
theorem read (int : 4 + front.length < 2147483648) :
    readNum bigEndian n.bytes 0 4 = .ok (4 + front.length) := by
  have inside := draft.length_le
  obtain ⟨behind, bytes⟩ := draft.laidOut
  have small : 4 + front.length < 256 ^ 4 := by omega
  have covered : 0 + 4 ≤ n.bytes.length := by
    rw [n.size_eq]
    omega
  rw [readNum_inside covered, bytes, List.drop_zero, List.take_left' (storeNum_length _ _ _),
    loadNum_storeNum, Nat.mod_eq_of_lt small]

/-- Where the next attribute goes. -/
theorem tail (int : 4 + front.length < 2147483648) :
    wrap32 (align4 (4 + front.length)) = 4 + front.length := by
  have aligned := draft.aligned
  rw [align4_eq (by omega)]
  exact wrap32_eq (by omega)

/-- Where there is room, `addattr_l` appends the attribute; the bytes up to the next
boundary are those that the buffer had there. -/
theorem addattrL_room (within : maxlen ≤ size) (int : maxlen < 2147483648) (attr : Attribute)
    (room : 4 + front.length + attr.space ≤ maxlen) :
    ∃ after padding, addattrL bigEndian n maxlen attr.type.toNat attr.payload = .ok (0, after) ∧
      4 + attr.payload.length + padding.length = attr.space ∧
      Draft bigEndian after (front ++ (attr.bytes bigEndian ++ padding)) := by
  have read := draft.read (by omega)
  have tail := draft.tail (by omega)
  have aligned := draft.aligned
  obtain ⟨behind, bytes⟩ := draft.laidOut
  have short := attr.short
  have padded : 4 + attr.payload.length ≤ attr.space := le_align4 _
  have spaceAligned : attr.space % 4 = 0 := align4_mod _
  have fits : ¬ toUnsigned (maxlen : Int) <
      wrap32 (4 + front.length + align4 (4 + attr.payload.length)) := by
    rw [Attribute.space] at room
    rw [toUnsigned_natCast (by omega), wrap32_eq (by omega)]
    omega
  have length := congrArg List.length bytes
  simp only [List.length_append, n.size_eq, storeNum_length] at length
  obtain ⟨old, rest, rfl, oldLength⟩ := @exists_front behind (4 + attr.payload.length) (by omega)
  rw [List.length_append] at length
  obtain ⟨padding, rest, rfl, paddingLength⟩ :=
    @exists_front rest (attr.space - (4 + attr.payload.length)) (by omega)
  have atAttr : n.bytes =
      (storeNum bigEndian 4 (4 + front.length) ++ front) ++ (old ++ (padding ++ rest)) := by
    simpa only [List.append_assoc] using bytes
  obtain ⟨middle, wroteAttr, middleBytes⟩ := @writeRtattr_bytes bigEndian size n _ _ _
    (4 + front.length) attr atAttr oldLength (by rw [List.length_append, storeNum_length])
  have atCount : middle.bytes = [] ++ (storeNum bigEndian 4 (4 + front.length) ++
      (front ++ (attr.bytes bigEndian ++ (padding ++ rest)))) := by
    simpa only [List.nil_append, List.append_assoc] using middleBytes
  obtain ⟨after, wroteCount, afterBytes⟩ := @writeAt_over size middle _ _
    (storeNum bigEndian 4 (4 + front.length + align4 (4 + attr.payload.length))) _ 0
    atCount (by rw [storeNum_length, storeNum_length]) rfl
  have total : (front ++ (attr.bytes bigEndian ++ padding)).length = front.length + attr.space := by
    simp only [List.length_append, Attribute.bytes_length]
    omega
  refine ⟨after, padding, ?_, by omega, ⟨rest, ?_⟩, by omega⟩
  · rw [addattrL, read, Checked.ok_bind]
    simp only [tail, if_neg fits, wroteAttr, wroteCount, Checked.ok_bind]
    rfl
  · rw [afterBytes, total, ← Nat.add_assoc, Attribute.space]
    simp only [List.append_assoc, List.nil_append]

/-- Where there is no room, it refuses and leaves the message as it is. -/
theorem addattrL_full (inside : 4 + front.length ≤ maxlen) (int : maxlen < 2147483648)
    (attr : Attribute) (full : maxlen < 4 + front.length + attr.space) :
    addattrL bigEndian n maxlen attr.type.toNat attr.payload = .ok (-1, n) := by
  have read := draft.read (by omega)
  have tail := draft.tail (by omega)
  have short := attr.short
  have padded : attr.space < 4 + attr.payload.length + 4 := align4_lt _
  have exceeded : toUnsigned (maxlen : Int) <
      wrap32 (4 + front.length + align4 (4 + attr.payload.length)) := by
    rw [Attribute.space] at full padded
    rw [toUnsigned_natCast (by omega), wrap32_eq (by omega)]
    omega
  rw [addattrL, read, Checked.ok_bind]
  simp only [tail, if_pos exceeded]
  rfl

end Draft

end Drafts

/-! ## Messages -/

/-- `nlmsg_len` of a message with these bytes between its length and the attributes. -/
def messageLength (fields : Text) (attrs : List Attribute) : Nat :=
  4 + fields.length + (attrs.map Attribute.space).sum

/-- A buffer begins with a message that has these attributes. -/
structure Message {size : Nat} (bigEndian : Bool) (n : CharArray size) (fields : Text)
    (attrs : List Attribute) : Prop where
  laidOut : ∃ records : List (Framing.Record rtattr bigEndian),
    records.map Framing.Record.bytes = attrs.map (Attribute.bytes bigEndian) ∧
      Draft bigEndian n (fields ++ Framing.layout records)

section Messages

variable {bigEndian : Bool} {size maxlen : Nat} {n : CharArray size} {fields : Text}
  {attrs : List Attribute}

theorem layout_length {records : List (Framing.Record rtattr bigEndian)}
    (same : records.map Framing.Record.bytes = attrs.map (Attribute.bytes bigEndian)) :
    (Framing.layout records).length = (attrs.map Attribute.space).sum := by
  induction attrs generalizing records with
  | nil =>
      rw [List.map_eq_nil_iff.mp same]
      rfl
  | cons attr attrs inductionHypothesis =>
      obtain ⟨record, others, rfl, first, later⟩ := List.map_eq_cons_iff.mp same
      rw [Framing.layout_cons_length, first, Attribute.bytes_length, inductionHypothesis later]
      rfl

theorem messageLength_eq {records : List (Framing.Record rtattr bigEndian)}
    (same : records.map Framing.Record.bytes = attrs.map (Attribute.bytes bigEndian)) :
    4 + (fields ++ Framing.layout records).length = messageLength fields attrs := by
  rw [List.length_append, layout_length same, messageLength, Nat.add_assoc]

theorem messageLength_snoc (fields : Text) (attrs : List Attribute) (attr : Attribute) :
    messageLength fields (attrs ++ [attr]) = messageLength fields attrs + attr.space := by
  rw [messageLength, messageLength, List.map_append, List.sum_append, List.map_singleton,
    List.sum_singleton]
  omega

/-! ## Runs -/

/-- A call that adds an attribute. -/
inductive AttrCall where
  | bytes (attr : Attribute)
  | number (type : UInt16) (data : UInt32)

/-- The attribute that a call adds. -/
def AttrCall.attr (bigEndian : Bool) : AttrCall → Attribute
  | .bytes attr => attr
  | .number type data =>
      { type := type
        payload := storeNum bigEndian 4 data.toNat
        short := by
          rw [storeNum_length]
          decide }

/-- `addattr_l` or `addattr32`. -/
def addAttr (bigEndian : Bool) (maxlen : Int) (n : CharArray size) :
    AttrCall → Checked (Int × CharArray size)
  | .bytes attr => addattrL bigEndian n maxlen attr.type.toNat attr.payload
  | .number type data => addattr32 bigEndian n maxlen type.toNat data

/-- Append an attribute to a list of them if the message then has room for all. -/
def append (bigEndian : Bool) (maxlen : Nat) (fields : Text) (attrs : List Attribute)
    (call : AttrCall) : Int × List Attribute :=
  if messageLength fields (attrs ++ [call.attr bigEndian]) ≤ maxlen then
    (0, attrs ++ [call.attr bigEndian])
  else (-1, attrs)

theorem addAttr_eq (call : AttrCall) :
    addAttr bigEndian maxlen n call =
      addattrL bigEndian n maxlen (call.attr bigEndian).type.toNat (call.attr bigEndian).payload := by
  cases call with
  | bytes attr => rfl
  | number type data => exact addattr32_eq bigEndian n maxlen type.toNat data

/-- A call does to the message what appending does to its attributes. -/
theorem addAttr_append (within : maxlen ≤ size) (int : maxlen < 2147483648)
    (message : Message bigEndian n fields attrs) (inside : messageLength fields attrs ≤ maxlen)
    (call : AttrCall) :
    ∃ after, addAttr bigEndian maxlen n call =
        .ok ((append bigEndian maxlen fields attrs call).1, after) ∧
      Message bigEndian after fields (append bigEndian maxlen fields attrs call).2 ∧
      messageLength fields (append bigEndian maxlen fields attrs call).2 ≤ maxlen := by
  have length := messageLength_snoc fields attrs (call.attr bigEndian)
  obtain ⟨records, same, draft⟩ := message.laidOut
  have total := @messageLength_eq bigEndian fields attrs records same
  rw [addAttr_eq]
  by_cases room : messageLength fields (attrs ++ [call.attr bigEndian]) ≤ maxlen
  · obtain ⟨after, padding, added, padded, draftAfter⟩ :=
      draft.addattrL_room within int (call.attr bigEndian) (by omega)
    rw [append, if_pos room]
    refine ⟨after, added, ⟨records ++ [(call.attr bigEndian).record bigEndian padding padded], ?_, ?_⟩,
      room⟩
    · rw [List.map_append, List.map_append, same]
      rfl
    · rw [Framing.layout_append, Framing.layout_cons]
      simpa only [Framing.layout, Attribute.record, List.flatMap_nil, List.append_nil,
        List.append_assoc] using draftAfter
  · have full := draft.addattrL_full (by omega) int (call.attr bigEndian) (by omega)
    rw [append, if_neg room]
    exact ⟨n, full, message, inside⟩

/-- The views of the attributes in memory. -/
theorem map_view_pointersOf {records : List (Framing.Record rtattr bigEndian)}
    (same : records.map Framing.Record.bytes = attrs.map (Attribute.bytes bigEndian)) (behind : Text) :
    (Framing.pointersOf records behind).map (view bigEndian) =
      attrs.map fun attr => (attr.type.toNat, attr.payload) := by
  induction attrs generalizing records with
  | nil =>
      rw [List.map_eq_nil_iff.mp same]
      rfl
  | cons attr attrs inductionHypothesis =>
      obtain ⟨record, others, rfl, first, later⟩ := List.map_eq_cons_iff.mp same
      rw [Framing.pointersOf, List.map_cons, List.map_cons, inductionHypothesis later,
        Framing.layout_cons, List.append_assoc, first, view_attr]

/-- The payload of the last attribute of a type. -/
def lastPayload (attrs : List Attribute) (type : Nat) : Option Text :=
  ((attrs.filter fun attr => attr.type.toNat = type).map Attribute.payload).getLast?

theorem lastOfType_eq {rtas : List Text} (type : Nat)
    (same : rtas.map (view bigEndian) = attrs.map fun attr => (attr.type.toNat, attr.payload)) :
    (lastOfType bigEndian rtas type).map (fun rta => (view bigEndian rta).2) =
      lastPayload attrs type := by
  have filtered := congrArg (fun views => ((views.filter fun pair => pair.1 = type).map
    Prod.snd).getLast?) same
  simp only [List.filter_map, List.map_map, List.getLast?_map] at filtered
  rw [lastOfType, lastPayload, List.getLast?_map]
  exact filtered

/-- `parse_rtattr` finds the last attribute of each type in a message, with its payload. -/
theorem Message.parse (message : Message bigEndian n fields attrs) (max : Nat) :
    ∃ tb, parseRtattr bigEndian max (n.bytes.drop (4 + fields.length))
        (messageLength fields attrs - (4 + fields.length : Nat)) = .ok tb ∧
      ∀ type (known : type < max + 1),
        tb[type].map (fun rta => (view bigEndian rta).2) = lastPayload attrs type := by
  obtain ⟨records, same, draft⟩ := message.laidOut
  obtain ⟨behind, bytes⟩ := draft.laidOut
  have memory : n.bytes.drop (4 + fields.length) = Framing.layout records ++ behind := by
    rw [bytes, List.append_assoc, ← List.append_assoc]
    refine List.drop_left' ?_
    rw [List.length_append, storeNum_length]
  have left : (messageLength fields attrs : Int) - (4 + fields.length : Nat) =
      (Framing.layout records).length := by
    rw [layout_length same, messageLength]
    omega
  obtain ⟨tb, parsed, slots⟩ := @parseRtattr_layout bigEndian records behind max
  rw [memory, left]
  refine ⟨tb, parsed, fun type known => ?_⟩
  rw [slots type known]
  exact lastOfType_eq type (map_view_pointersOf same behind)

/-- The header of a request for a route in a buffer that is cleared behind it. -/
def request : CharArray 48 where
  bytes := storeNum false 4 28 ++ List.replicate 44 0
  size_eq := by decide

/-- Any calls on a message in a buffer: the statuses are those of appending, the message
stays within its bound, and each type has the payload that was added last. -/
theorem runChecked_addAttr {maxlen : Nat} (within : maxlen ≤ size) (int : maxlen < 2147483648)
    (message : Message bigEndian n fields []) (inside : messageLength fields [] ≤ maxlen)
    (calls : List AttrCall) (max : Nat) :
    ∃ after, runChecked (addAttr bigEndian maxlen) n calls =
        .ok ((run (append bigEndian maxlen fields) [] calls).1, after) ∧
      Message bigEndian after fields (run (append bigEndian maxlen fields) [] calls).2 ∧
      messageLength fields (run (append bigEndian maxlen fields) [] calls).2 ≤ maxlen ∧
      ∃ tb, parseRtattr bigEndian max (after.bytes.drop (4 + fields.length))
          (messageLength fields (run (append bigEndian maxlen fields) [] calls).2 -
            (4 + fields.length : Nat)) = .ok tb ∧
        ∀ type (known : type < max + 1), tb[type].map (fun rta => (view bigEndian rta).2) =
          lastPayload (run (append bigEndian maxlen fields) [] calls).2 type := by
  obtain ⟨after, ran, messageAfter, insideAfter⟩ := @run_simulates _ _ _ _ _
    (addAttr bigEndian maxlen) (append bigEndian maxlen fields) (fun _ => True)
    (fun _ n attrs => Message bigEndian n fields attrs ∧ messageLength fields attrs ≤ maxlen)
    (fun remaining n attrs call _ related =>
      addAttr_append within int related.1 related.2 call)
    calls (fun _ _ => trivial) n [] ⟨message, inside⟩
  obtain ⟨tb, parsed, slots⟩ := messageAfter.parse max
  exact ⟨after, ran, messageAfter, insideAfter, tb, parsed, slots⟩

/-- A request for a route with room for two attributes. -/
theorem runChecked_addAttr_request :
    ∃ after, runChecked (addAttr false (44 : Nat)) (request : CharArray 48)
        [.number 15 254, .bytes ⟨5, [192, 0, 2, 1], by decide⟩, .number 1 0] =
        .ok ([0, 0, -1], after) := by
  obtain ⟨after, ran, -⟩ := @runChecked_addAttr false 48 request (List.replicate 24 0) 44 (by decide)
    (by decide) ⟨[], rfl, ⟨⟨List.replicate 20 0, by decide⟩, by decide⟩⟩ (by decide)
    [.number 15 254, .bytes ⟨5, [192, 0, 2, 1], by decide⟩, .number 1 0] 50
  exact ⟨after, ran⟩

end Messages

end Libamg.Netlink
