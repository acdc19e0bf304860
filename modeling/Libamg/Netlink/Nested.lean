import Libamg.Netlink.Build

/-!
# Nested attributes

`addattr_nest` begins an attribute and `addattr_nest_end` sets its length to what has been
added since. Attributes nested to any depth are written this way (`Forest.write`) and read
with one `parse_rtattr` for each level (`lookup`); what is read at a path of types is what
was written there last (`lookup_written`).
-/

namespace Libamg.Netlink

open C

section Functions

variable (bigEndian : Bool) {size : Nat}

/-- `addattr_nest`, which does not look at the status of `addattr_l`: the offset of the
attribute and the message afterwards. -/
def addattrNest (n : CharArray size) (maxlen type : Int) : Checked (Nat × CharArray size) := do
  let nlmsgLen ← readNum bigEndian n.bytes 0 4
  let nest := wrap32 (align4 nlmsgLen)
  let (_, n) ← addattrL bigEndian n maxlen type []
  return (nest, n)

/-- `addattr_nest_end`. -/
def addattrNestEnd (n : CharArray size) (nest : Nat) : Checked (Nat × CharArray size) := do
  let nlmsgLen ← readNum bigEndian n.bytes 0 4
  let n ← n.writeAt nest (storeNum bigEndian 2 (toUnsigned ((wrap32 (align4 nlmsgLen) : Int) - nest)))
  let nlmsgLen ← readNum bigEndian n.bytes 0 4
  return (nlmsgLen, n)

end Functions

/-- Attributes in their order, with attributes nested in some of them. -/
inductive Forest where
  | nil
  | leaf (attr : Attribute) (rest : Forest)
  | nest (type : UInt16) (children rest : Forest)

namespace Forest

/-- The room that the attributes take. -/
def space : Forest → Nat
  | nil => 0
  | leaf attr rest => attr.space + rest.space
  | nest _ children rest => 4 + children.space + rest.space

/-- The length of every nested attribute fits into `rta_len`. -/
def Short : Forest → Prop
  | nil => True
  | leaf _ rest => rest.Short
  | nest _ children rest => 4 + children.space < 65536 ∧ children.Short ∧ rest.Short

/-- The calls that add the attributes to a message, one after the other. -/
def write (bigEndian : Bool) (maxlen : Nat) {size : Nat} :
    Forest → CharArray size → Checked (CharArray size)
  | nil, n => return n
  | leaf attr rest, n => do
      let (_, n) ← addattrL bigEndian n maxlen attr.type.toNat attr.payload
      rest.write bigEndian maxlen n
  | nest type children rest, n => do
      let (start, n) ← addattrNest bigEndian n maxlen type.toNat
      let n ← children.write bigEndian maxlen n
      let (_, n) ← addattrNestEnd bigEndian n start
      rest.write bigEndian maxlen n

/-- The last attribute of a type: its payload, or the attributes nested in it. -/
def last (type : Nat) : Forest → Option (Text ⊕ Forest)
  | nil => none
  | leaf attr rest =>
      (rest.last type).or (if attr.type.toNat = type then some (.inl attr.payload) else none)
  | nest nestType children rest =>
      (rest.last type).or (if nestType.toNat = type then some (.inr children) else none)

/-- What lies at a path of types: nothing, or a payload. -/
inductive Has : Forest → List Nat → Option Text → Prop
  | missing {forest : Forest} {type : Nat} {path : List Nat} (last : forest.last type = none) :
      Has forest (type :: path) none
  | payload {forest : Forest} {type : Nat} {payload : Text}
      (last : forest.last type = some (.inl payload)) : Has forest [type] (some payload)
  | nested {forest children : Forest} {type : Nat} {path : List Nat} {answer : Option Text}
      (last : forest.last type = some (.inr children)) (deeper : path ≠ [])
      (found : Has children path answer) : Has forest (type :: path) answer

/-- The records of the attributes; a nested attribute has the records of its children as
its payload. -/
inductive Encodes (bigEndian : Bool) : Forest → List (Framing.Record rtattr bigEndian) → Prop
  | nil : Encodes bigEndian nil []
  | leaf {attr : Attribute} {rest : Forest} {record : Framing.Record rtattr bigEndian}
      {records : List (Framing.Record rtattr bigEndian)} (bytes : record.bytes = attr.bytes bigEndian)
      (others : Encodes bigEndian rest records) : Encodes bigEndian (leaf attr rest) (record :: records)
  | nest {type : UInt16} {children rest : Forest} {record : Framing.Record rtattr bigEndian}
      {records inner : List (Framing.Record rtattr bigEndian)} {attr : Attribute}
      (inside : Encodes bigEndian children inner) (sameType : attr.type = type)
      (payload : attr.payload = Framing.layout inner) (bytes : record.bytes = attr.bytes bigEndian)
      (others : Encodes bigEndian rest records) :
      Encodes bigEndian (nest type children rest) (record :: records)

end Forest

/-- Read at a path of types from a table, with `parse_rtattr_nested` for every deeper level. -/
def lookupIn (bigEndian : Bool) {max : Nat} :
    List Nat → Vector (Option Text) (max + 1) → Checked (Option Text)
  | [], _ => return none
  | type :: path, tb => do
      match ← element tb type with
      | none => return none
      | some rta =>
          if path = [] then do
            let payload ← rtaPayload bigEndian rta
            return some ((rtaData rta).take payload.toNat)
          else do
            let tb ← parseRtattrNested bigEndian max rta
            lookupIn bigEndian path tb

/-- Read at a path of types, with `parse_rtattr` for the first level. -/
def lookup (bigEndian : Bool) (max : Nat) (path : List Nat) (memory : Text) (len : Int) :
    Checked (Option Text) := do
  let tb ← parseRtattr bigEndian max memory len
  lookupIn bigEndian path tb

/-! ## Writing -/

section Write

variable {bigEndian : Bool} {size maxlen : Nat} {n : CharArray size} {front : Text}

theorem layout_singleton (record : Framing.Record rtattr bigEndian) :
    Framing.layout [record] = record.bytes ++ record.padding := by
  rw [Framing.layout_cons, Framing.layout, List.flatMap_nil, List.append_nil]

/-- A nested attribute that has no children yet. -/
def openNest (type : UInt16) : Attribute where
  type := type
  payload := []
  short := by decide

theorem nest_space {bigEndian : Bool} (inner : List (Framing.Record rtattr bigEndian)) :
    4 + (Framing.layout inner).length + ([] : Text).length = align4 (4 + (Framing.layout inner).length) := by
  have aligned := Framing.layout_length_mod inner
  rw [List.length_nil, Nat.add_zero, align4_eq (by omega)]

/-- The record of a nested attribute with its children. -/
def nestRecord (bigEndian : Bool) (type : UInt16) (inner : List (Framing.Record rtattr bigEndian))
    (short : 4 + (Framing.layout inner).length < 65536) : Framing.Record rtattr bigEndian :=
  Attribute.record bigEndian { type := type, payload := Framing.layout inner, short := short } []
    (nest_space inner)

theorem addattrNest_room (draft : Draft bigEndian n front) (within : maxlen ≤ size)
    (int : maxlen < 2147483648) (type : UInt16) (room : 4 + front.length + 4 ≤ maxlen) :
    ∃ after, addattrNest bigEndian n maxlen type.toNat = .ok (4 + front.length, after) ∧
      Draft bigEndian after (front ++ (openNest type).bytes bigEndian) := by
  have read := draft.read (by omega)
  have tail := draft.tail (by omega)
  have space : (openNest type).space = 4 := by
    simp only [Attribute.space, openNest, List.length_nil]
    rfl
  obtain ⟨after, padding, added, padded, draftAfter⟩ :=
    draft.addattrL_room within int (openNest type) (by omega)
  have unpadded : padding = [] := by
    have payload : (openNest type).payload.length = 0 := rfl
    exact List.eq_nil_of_length_eq_zero (by omega)
  subst unpadded
  rw [List.append_nil] at draftAfter
  have added : addattrL bigEndian n maxlen type.toNat [] = .ok (0, after) := added
  refine ⟨after, ?_, draftAfter⟩
  rw [addattrNest, read, Checked.ok_bind, tail, added]
  rfl

/-- The end of a nested attribute makes one attribute of it and its children. -/
theorem addattrNestEnd_layout {type : UInt16} {inner : List (Framing.Record rtattr bigEndian)}
    (draft : Draft bigEndian n (front ++ ((openNest type).bytes bigEndian ++ Framing.layout inner)))
    (int : 4 + front.length + 4 + (Framing.layout inner).length < 2147483648)
    (short : 4 + (Framing.layout inner).length < 65536) :
    ∃ total after, addattrNestEnd bigEndian n (4 + front.length) = .ok (total, after) ∧
      Draft bigEndian after (front ++ Framing.layout [nestRecord bigEndian type inner short]) := by
  have payload : (openNest type).payload = [] := rfl
  have total : (front ++ ((openNest type).bytes bigEndian ++ Framing.layout inner)).length =
      front.length + (4 + (Framing.layout inner).length) := by
    simp only [List.length_append, Attribute.bytes_length, payload, List.length_nil]
  have read := draft.read (by omega)
  have tail := draft.tail (by omega)
  have aligned := draft.aligned
  obtain ⟨behind, bytes⟩ := draft.laidOut
  rw [total] at read tail aligned bytes
  have atLen : n.bytes =
      (storeNum bigEndian 4 (4 + (front.length + (4 + (Framing.layout inner).length))) ++ front) ++
        (storeNum bigEndian 2 (4 + 0) ++
          (storeNum bigEndian 2 type.toNat ++ (Framing.layout inner ++ behind))) := by
    rw [bytes]
    simp only [Attribute.bytes, openNest, List.length_nil, List.append_nil, List.append_assoc]
  obtain ⟨after, wrote, afterBytes⟩ := @writeAt_over size n _ _
    (storeNum bigEndian 2 (4 + (Framing.layout inner).length)) _ (4 + front.length) atLen
    (by rw [storeNum_length, storeNum_length]) (by rw [List.length_append, storeNum_length])
  have difference : toUnsigned (((4 + (front.length + (4 + (Framing.layout inner).length)) : Nat) : Int) -
      ((4 + front.length : Nat) : Int)) = 4 + (Framing.layout inner).length := by
    unfold toUnsigned
    omega
  have record : Framing.layout [nestRecord bigEndian type inner short] =
      storeNum bigEndian 2 (4 + (Framing.layout inner).length) ++
        (storeNum bigEndian 2 type.toNat ++ Framing.layout inner) := by
    rw [layout_singleton]
    simp only [nestRecord, Attribute.record, Attribute.bytes, List.append_nil]
  have length : (front ++ Framing.layout [nestRecord bigEndian type inner short]).length =
      front.length + (4 + (Framing.layout inner).length) := by
    rw [record]
    simp only [List.length_append, storeNum_length]
    omega
  have draftAfter : Draft bigEndian after
      (front ++ Framing.layout [nestRecord bigEndian type inner short]) := by
    refine ⟨⟨behind, ?_⟩, ?_⟩
    · rw [afterBytes, length, record]
      simp only [List.append_assoc]
    · rw [length]
      exact aligned
  have readAfter := draftAfter.read (by omega)
  refine ⟨4 + (front ++ Framing.layout [nestRecord bigEndian type inner short]).length, after, ?_,
    draftAfter⟩
  rw [addattrNestEnd, read, Checked.ok_bind, tail, difference, wrote, Checked.ok_bind, readAfter]
  rfl

/-- Attributes that fit into a message are written behind what it has. -/
theorem Forest.write_draft (forest : Forest) (short : forest.Short) (within : maxlen ≤ size)
    (int : maxlen < 2147483648) (draft : Draft bigEndian n front)
    (room : 4 + front.length + forest.space ≤ maxlen) :
    ∃ after records, forest.write bigEndian maxlen n = .ok after ∧
      forest.Encodes bigEndian records ∧ (Framing.layout records).length = forest.space ∧
      Draft bigEndian after (front ++ Framing.layout records) := by
  induction forest generalizing n front with
  | nil =>
      refine ⟨n, [], rfl, .nil, rfl, ?_⟩
      rw [Framing.layout, List.flatMap_nil, List.append_nil]
      exact draft
  | leaf attr rest restWritten =>
      rw [space] at room
      obtain ⟨middle, padding, added, padded, draftMiddle⟩ :=
        draft.addattrL_room within int attr (by omega)
      have length : (front ++ (attr.bytes bigEndian ++ padding)).length = front.length + attr.space := by
        simp only [List.length_append, Attribute.bytes_length]
        omega
      obtain ⟨after, records, written, encodes, restLength, draftAfter⟩ :=
        restWritten short draftMiddle (by omega)
      refine ⟨after, attr.record bigEndian padding padded :: records, ?_, .leaf rfl encodes, ?_, ?_⟩
      · rw [write, added]
        exact written
      · rw [Framing.layout_cons_length, restLength, Attribute.record, Attribute.bytes_length]
        rfl
      · rw [Framing.layout_cons, Attribute.record]
        simpa only [List.append_assoc] using draftAfter
  | nest type children rest childrenWritten restWritten =>
      obtain ⟨nestShort, childrenShort, restShort⟩ := short
      rw [space] at room
      have header : ((openNest type).bytes bigEndian).length = 4 :=
        Attribute.bytes_length bigEndian (openNest type)
      obtain ⟨opened, began, draftOpened⟩ :=
        addattrNest_room draft within int type (by omega)
      obtain ⟨filled, inner, childrenDone, inside, innerLength, draftFilled⟩ :=
        childrenWritten childrenShort draftOpened (by
          rw [List.length_append]
          omega)
      rw [List.append_assoc] at draftFilled
      obtain ⟨total, closed, ended, draftClosed⟩ :=
        addattrNestEnd_layout draftFilled (by omega) (by omega)
      have recordLength : (Framing.layout [nestRecord bigEndian type inner (by omega)]).length =
          4 + children.space := by
        rw [layout_singleton]
        simp only [nestRecord, Attribute.record, Attribute.bytes_length, List.append_nil]
        omega
      obtain ⟨after, records, written, encodes, restLength, draftAfter⟩ :=
        restWritten restShort draftClosed (by
          rw [List.length_append]
          omega)
      refine ⟨after, nestRecord bigEndian type inner (by omega) :: records, ?_,
        .nest inside rfl rfl rfl encodes, ?_, ?_⟩
      · rw [write, began]
        simp only [Checked.ok_bind, childrenDone, ended]
        exact written
      · rw [← List.singleton_append, Framing.layout_append, List.length_append, recordLength,
          restLength]
        rfl
      · rw [← List.singleton_append, Framing.layout_append, ← List.append_assoc]
        exact draftAfter

end Write

/-! ## Reading -/

section Read

variable {bigEndian : Bool} {records : List (Framing.Record rtattr bigEndian)} {forest : Forest}

/-- What a pointer to an attribute has to do with the attribute's place in a forest. -/
inductive Shows (bigEndian : Bool) : Text → Text ⊕ Forest → Prop
  | payload {rta payload : Text} (length : rtaPayload bigEndian rta = .ok (payload.length : Int))
      (data : (rtaData rta).take payload.length = payload) : Shows bigEndian rta (.inl payload)
  | nested {rta behind : Text} {children : Forest} {inner : List (Framing.Record rtattr bigEndian)}
      (inside : children.Encodes bigEndian inner)
      (length : rtaPayload bigEndian rta = .ok ((Framing.layout inner).length : Int))
      (data : rtaData rta = Framing.layout inner ++ behind) : Shows bigEndian rta (.inr children)

/-- The payload behind a pointer to an attribute. -/
theorem rtaPayload_attr (attr : Attribute) (behind : Text) :
    rtaPayload bigEndian (attr.bytes bigEndian ++ behind) = .ok (attr.payload.length : Int) ∧
      rtaData (attr.bytes bigEndian ++ behind) = attr.payload ++ behind ∧
      typeOf bigEndian (attr.bytes bigEndian ++ behind) = attr.type.toNat := by
  have short := attr.short
  have stored (value : Nat) : (storeNum bigEndian 2 value).length = 2 := storeNum_length bigEndian 2 value
  have shape : attr.bytes bigEndian ++ behind =
      storeNum bigEndian 2 (4 + attr.payload.length) ++
        (storeNum bigEndian 2 attr.type.toNat ++ (attr.payload ++ behind)) := by
    simp only [Attribute.bytes, List.append_assoc]
  have inside : 0 + 2 ≤ (attr.bytes bigEndian ++ behind).length := by
    rw [List.length_append, Attribute.bytes_length]
    omega
  have small : 4 + attr.payload.length < 256 ^ 2 := by omega
  refine ⟨?_, ?_, congrArg Prod.fst (view_attr attr behind)⟩
  · rw [rtaPayload, rtaLen, readNum_inside inside, List.drop_zero, shape,
      List.take_left' (stored _), loadNum_storeNum, Nat.mod_eq_of_lt small]
    exact congrArg Except.ok (by omega)
  · rw [rtaData, shape, ← List.append_assoc]
    refine List.drop_left' ?_
    rw [List.length_append, stored, stored]

/-- The last attribute of a type in memory is that of the forest. -/
theorem lastOfType_encodes (encodes : forest.Encodes bigEndian records) (behind : Text) (type : Nat) :
    match forest.last type with
    | none => lastOfType bigEndian (Framing.pointersOf records behind) type = none
    | some item => ∃ rta, lastOfType bigEndian (Framing.pointersOf records behind) type = some rta ∧
        Shows bigEndian rta item := by
  induction encodes with
  | nil => rfl
  | @leaf attr rest record records bytes others inductionHypothesis =>
      rw [Framing.pointersOf, lastOfType_cons, Forest.last]
      cases later : rest.last type with
      | some item =>
          rw [later] at inductionHypothesis
          obtain ⟨rta, found, shows⟩ := inductionHypothesis
          rw [found]
          exact ⟨rta, rfl, shows⟩
      | none =>
          rw [later] at inductionHypothesis
          obtain ⟨length, data, typed⟩ :=
            rtaPayload_attr attr (record.padding ++ Framing.layout records ++ behind)
          rw [inductionHypothesis, Framing.layout_cons, List.append_assoc, bytes, typed]
          by_cases same : attr.type.toNat = type
          · rw [if_pos same, if_pos same]
            refine ⟨_, rfl, .payload length ?_⟩
            rw [data, List.take_left]
          · rw [if_neg same, if_neg same]
            rfl
  | @nest nestType children rest record records inner attr inside sameType payload bytes others
      insideHypothesis inductionHypothesis =>
      rw [Framing.pointersOf, lastOfType_cons, Forest.last]
      cases later : rest.last type with
      | some item =>
          rw [later] at inductionHypothesis
          obtain ⟨rta, found, shows⟩ := inductionHypothesis
          rw [found]
          exact ⟨rta, rfl, shows⟩
      | none =>
          rw [later] at inductionHypothesis
          obtain ⟨length, data, typed⟩ :=
            rtaPayload_attr attr (record.padding ++ Framing.layout records ++ behind)
          rw [inductionHypothesis, Framing.layout_cons, List.append_assoc, bytes, typed, sameType]
          by_cases same : nestType.toNat = type
          · rw [if_pos same, if_pos same]
            rw [payload] at length data
            exact ⟨_, rfl, .nested inside length data⟩
          · rw [if_neg same, if_neg same]
            rfl

/-- What a forest has at a path is found there in memory. -/
theorem lookup_encodes {path : List Nat} {answer : Option Text} {max : Nat}
    (has : forest.Has path answer) (encodes : forest.Encodes bigEndian records)
    (known : ∀ type ∈ path, type ≤ max) (behind : Text) :
    lookup bigEndian max path (Framing.layout records ++ behind) (Framing.layout records).length =
      .ok answer := by
  induction has generalizing records behind with
  | @missing forest type path last =>
      obtain ⟨tb, parsed, slots⟩ := @parseRtattr_layout bigEndian records behind max
      have inside : type < max + 1 := Nat.lt_succ_of_le (known type (.head path))
      have slot := lastOfType_encodes encodes behind type
      rw [last] at slot
      rw [lookup, parsed, Checked.ok_bind, lookupIn, element, dif_pos inside, slots type inside, slot]
      rfl
  | @payload forest type payload last =>
      obtain ⟨tb, parsed, slots⟩ := @parseRtattr_layout bigEndian records behind max
      have inside : type < max + 1 := Nat.lt_succ_of_le (known type (.head []))
      have slot := lastOfType_encodes encodes behind type
      rw [last] at slot
      obtain ⟨rta, found, shows⟩ := slot
      cases shows with
      | payload length data =>
          rw [lookup, parsed, Checked.ok_bind, lookupIn, element, dif_pos inside, slots type inside,
            found, Checked.ok_bind]
          simp only [if_true, length, Checked.ok_bind, Int.toNat_natCast, data]
          rfl
  | @nested forest children type path answer last deeper found inductionHypothesis =>
      obtain ⟨tb, parsed, slots⟩ := @parseRtattr_layout bigEndian records behind max
      have inside : type < max + 1 := Nat.lt_succ_of_le (known type (.head path))
      have slot := lastOfType_encodes encodes behind type
      rw [last] at slot
      obtain ⟨rta, found, shows⟩ := slot
      cases shows with
      | nested encodesChildren length data =>
          rw [lookup, parsed, Checked.ok_bind, lookupIn, element, dif_pos inside, slots type inside,
            found, Checked.ok_bind]
          simp only [if_neg deeper, parseRtattrNested, length, Checked.ok_bind, data]
          exact inductionHypothesis encodesChildren (fun type later => known type (.tail _ later)) _

end Read

/-- Attributes nested to any depth are written with their calls and found at their paths. -/
theorem lookup_written {bigEndian : Bool} {size maxlen max : Nat} {n : CharArray size} {front : Text}
    (draft : Draft bigEndian n front) (within : maxlen ≤ size) (int : maxlen < 2147483648)
    (forest : Forest) (short : forest.Short) (room : 4 + front.length + forest.space ≤ maxlen)
    {path : List Nat} {answer : Option Text} (has : forest.Has path answer)
    (known : ∀ type ∈ path, type ≤ max) :
    ∃ after, forest.write bigEndian maxlen n = .ok after ∧
      readNum bigEndian after.bytes 0 4 = .ok (4 + front.length + forest.space) ∧
      lookup bigEndian max path (after.bytes.drop (4 + front.length)) forest.space = .ok answer := by
  obtain ⟨after, records, written, encodes, length, draftAfter⟩ :=
    forest.write_draft short within int draft room
  have total : 4 + (front ++ Framing.layout records).length = 4 + front.length + forest.space := by
    rw [List.length_append, length, Nat.add_assoc]
  have read := draftAfter.read (by omega)
  obtain ⟨behind, bytes⟩ := draftAfter.laidOut
  have memory : after.bytes.drop (4 + front.length) = Framing.layout records ++ behind := by
    rw [bytes, List.append_assoc, ← List.append_assoc]
    refine List.drop_left' ?_
    rw [List.length_append, storeNum_length]
  rw [total] at read
  refine ⟨after, written, read, ?_⟩
  rw [memory, ← length]
  exact lookup_encodes has encodes known behind

/-- The metrics of a route, nested in it, behind its gateway. -/
theorem lookup_written_metrics :
    ∃ after, (Forest.leaf ⟨5, [192, 0, 2, 1], by decide⟩
        (.nest 8 (.leaf ⟨2, [220, 5, 0, 0], by decide⟩ .nil) .nil)).write false 48 request = .ok after ∧
      lookup false 50 [8, 2] (after.bytes.drop 28) 20 = .ok (some [220, 5, 0, 0]) := by
  obtain ⟨after, written, -, found⟩ := @lookup_written false 48 48 50 request (List.replicate 24 0)
    ⟨⟨List.replicate 20 0, by decide⟩, by decide⟩ (by decide) (by decide)
    (.leaf ⟨5, [192, 0, 2, 1], by decide⟩ (.nest 8 (.leaf ⟨2, [220, 5, 0, 0], by decide⟩ .nil) .nil))
    (by simp only [Forest.Short]; decide) (by decide) [8, 2] (some [220, 5, 0, 0])
    (.nested rfl (by decide) (.payload rfl)) (by decide)
  exact ⟨after, written, found⟩

end Libamg.Netlink
