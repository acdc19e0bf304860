import Libamg.C.Buffer
import Libamg.C.Records
import Mathlib.Data.List.Induction

/-!
# Attributes of a netlink message

`parse_rtattr`, and `parse_rtattr_nested` for what an attribute holds. On bytes that nobody
has checked the table points to whole attributes among these bytes, the last one of each
type (`parseRtattr_chain`); only the message about a deficit can read behind the memory.
-/

namespace Libamg.Netlink

open C

/-- `struct rtattr`, with `RTA_OK` and `RTA_NEXT`. -/
def rtattr : Framing where
  width := 2
  header := 4
  counted := by decide
  positive := by decide

section Parse

variable (bigEndian : Bool)

/-- `rta->rta_len`. -/
def rtaLen (rta : Text) : Checked Nat := readNum bigEndian rta 0 2

/-- `rta->rta_type`. -/
def rtaType (rta : Text) : Checked Nat := readNum bigEndian rta 2 2

/-- The message about bytes that are left over. -/
def deficit (rta : Text) (len : Int) : Checked Unit :=
  if len ≠ 0 then do
    let _ ← rtaLen bigEndian rta
    return ()
  else return ()

/-- The body of the loop of `parse_rtattr`. -/
def storeByType {max : Nat} (tb : Vector (Option Text) (max + 1)) (rta : Text) :
    Checked (Turn (Vector (Option Text) (max + 1)) Empty) := do
  let type ← rtaType bigEndian rta
  if type ≤ max then
    let tb ← store tb type (some rta)
    return .next tb
  else return .next tb

/-- `parse_rtattr`: the table of the attributes. -/
def parseRtattr (max : Nat) (rta : Text) (len : Int) : Checked (Vector (Option Text) (max + 1)) := do
  let turn ← rtattr.walk bigEndian (storeByType bigEndian) (Vector.replicate (max + 1) none) rta len
  match turn with
  | .leave impossible => nomatch impossible
  | .next (tb, rta, len) =>
      deficit bigEndian rta len
      return tb

/-- `RTA_DATA`. -/
def rtaData (rta : Text) : Text := rta.drop 4

/-- `RTA_PAYLOAD`. -/
def rtaPayload (rta : Text) : Checked Int := do
  let len ← rtaLen bigEndian rta
  return len - 4

/-- `parse_rtattr_nested`. -/
def parseRtattrNested (max : Nat) (rta : Text) : Checked (Vector (Option Text) (max + 1)) := do
  let payload ← rtaPayload bigEndian rta
  parseRtattr bigEndian max (rtaData rta) payload

/-- The type of an attribute that is whole. -/
def typeOf (rta : Text) : Nat := loadNum bigEndian ((rta.drop 2).take 2)

/-- The last attribute of a type. -/
def lastOfType (rtas : List Text) (type : Nat) : Option Text :=
  (rtas.filter fun rta => typeOf bigEndian rta = type).getLast?

end Parse

section Table

variable {bigEndian : Bool} {max : Nat}

theorem rtaType_eq {rta : Text} (whole : 4 ≤ rta.length) :
    rtaType bigEndian rta = .ok (typeOf bigEndian rta) := readNum_inside whole

theorem rtaData_append {rta : Text} (whole : 4 ≤ rta.length) (behind : Text) :
    rtaData (rta ++ behind) = rtaData rta ++ behind := List.drop_append_of_le_length whole

theorem lastOfType_mem {rtas : List Text} {type : Nat} {rta : Text}
    (found : lastOfType bigEndian rtas type = some rta) : rta ∈ rtas :=
  (List.mem_filter.mp (List.mem_of_getLast? found)).1

theorem typeOf_append {rta : Text} (whole : 4 ≤ rta.length) (behind : Text) :
    typeOf bigEndian (rta ++ behind) = typeOf bigEndian rta := by
  have dropped : 2 ≤ (rta.drop 2).length := by
    rw [List.length_drop]
    omega
  rw [typeOf, typeOf, List.drop_append_of_le_length (by omega),
    List.take_append_of_le_length dropped]

theorem lastOfType_cons (rta : Text) (rtas : List Text) (type : Nat) :
    lastOfType bigEndian (rta :: rtas) type =
      (lastOfType bigEndian rtas type).or
        (if typeOf bigEndian rta = type then some rta else none) := by
  rw [lastOfType, lastOfType]
  by_cases same : typeOf bigEndian rta = type
  · rw [List.filter_cons_of_pos (by simpa using same), List.getLast?_cons, if_pos same]
    cases (rtas.filter fun rta => typeOf bigEndian rta = type).getLast? <;> rfl
  · rw [List.filter_cons_of_neg (by simpa using same), if_neg same, Option.or_none]

/-- The table after the visit of an attribute. -/
def setByType (bigEndian : Bool) (tb : Vector (Option Text) (max + 1)) (rta : Text) :
    Vector (Option Text) (max + 1) :=
  if known : typeOf bigEndian rta ≤ max then
    tb.set (typeOf bigEndian rta) (some rta) (Nat.lt_succ_of_le known)
  else tb

theorem storeByType_eq (tb : Vector (Option Text) (max + 1)) {rta : Text} (whole : 4 ≤ rta.length) :
    storeByType bigEndian tb rta = .ok (.next (setByType bigEndian tb rta)) := by
  rw [storeByType, rtaType_eq whole, Checked.ok_bind, setByType]
  split
  · rename_i known
    rw [store_inside (Nat.lt_succ_of_le known)]
    rfl
  · rfl

theorem setByType_get (tb : Vector (Option Text) (max + 1)) (rta : Text) {type : Nat}
    (known : type < max + 1) :
    (setByType bigEndian tb rta)[type] =
      if typeOf bigEndian rta = type then some rta else tb[type] := by
  unfold setByType
  split
  · rw [Vector.getElem_set]
  · rename_i unknown
    rw [if_neg (by omega)]

/-- Every slot holds the last attribute of its type. -/
theorem foldl_setByType_get (tb : Vector (Option Text) (max + 1)) (rtas : List Text) {type : Nat}
    (known : type < max + 1) :
    (rtas.foldl (setByType bigEndian) tb)[type] = (lastOfType bigEndian rtas type).or tb[type] := by
  induction rtas using List.reverseRecOn with
  | nil => rfl
  | append_singleton rtas last inductionHypothesis =>
      rw [List.foldl_append, List.foldl_cons, List.foldl_nil, setByType_get _ _ known,
        inductionHypothesis, lastOfType, lastOfType, List.filter_append]
      by_cases same : typeOf bigEndian last = type
      · rw [if_pos same, List.filter_cons_of_pos (by simpa using same), List.getLast?_append]
        rfl
      · rw [if_neg same, List.filter_cons_of_neg (by simpa using same), List.filter_nil,
          List.append_nil]

end Table

/-! ## Any bytes -/

/-- A whole attribute of a type lies at an offset of the first `len` bytes of memory, and
a pointer points to it. -/
structure PointsTo (bigEndian : Bool) (memory : Text) (len : Int) (type : Nat) (rta : Text) : Prop where
  type_eq : rtaType bigEndian rta = .ok type
  whole : ∃ offset length, rta = memory.drop offset ∧ offset % 4 = 0 ∧
    rtaLen bigEndian rta = .ok length ∧ 4 ≤ length ∧ ((offset + length : Nat) : Int) ≤ len

section Chain

variable {bigEndian : Bool} {memory rest : Text} {len after : Int} {rtas : List Text}

theorem recordAt_length_le (rta : Text) :
    (rtattr.recordAt bigEndian rta).length ≤ rta.length := List.length_take_le' _ _

/-- What a pointer of the chain points to. -/
theorem pointsTo_of_chain (chain : rtattr.Chain bigEndian memory len rtas rest after)
    (inside : len ≤ memory.length) {rta : Text} (listed : rta ∈ rtas) :
    PointsTo bigEndian memory len (typeOf bigEndian rta) rta := by
  obtain ⟨offset, dropped, aligned, header, counted, fits⟩ := chain.pointer inside listed
  have bound := @recordAt_length_le bigEndian rta
  have header : 4 ≤ (rtattr.recordAt bigEndian rta).length := header
  have counted : loadNum bigEndian (rta.take 2) = (rtattr.recordAt bigEndian rta).length := counted
  have read : rtaLen bigEndian rta = .ok (loadNum bigEndian (rta.take 2)) := by
    have inside : 0 + 2 ≤ rta.length := by omega
    rw [rtaLen, readNum_inside inside, List.drop_zero]
  refine ⟨rtaType_eq (by omega), offset, _, dropped, aligned, ?_, header, fits⟩
  rw [read, counted]

theorem deficit_eq (rta : Text) (len : Int) :
    deficit bigEndian rta len = if len ≠ 0 ∧ rta.length < 2 then .error .outOfBounds else .ok () := by
  unfold deficit
  by_cases nothing : len = 0
  · rw [if_neg (not_not.mpr nothing), if_neg fun both => both.1 nothing]
    rfl
  · rw [if_pos nothing]
    by_cases short : rta.length < 2
    · have behind : rta.length < 0 + 2 := by omega
      rw [if_pos ⟨nothing, short⟩, rtaLen, readNum_overrun behind]
      rfl
    · have inside : 0 + 2 ≤ rta.length := by omega
      rw [if_neg fun both => short both.2, rtaLen, readNum_inside inside]
      rfl

theorem parseRtattr_eq (chain : rtattr.Chain bigEndian memory len rtas rest after)
    (inside : len ≤ memory.length) (max : Nat) :
    parseRtattr bigEndian max memory len =
      if after ≠ 0 ∧ rest.length < 2 then .error .outOfBounds
      else .ok (rtas.foldl (setByType bigEndian) (Vector.replicate (max + 1) none)) := by
  have goesOn : ∀ tb : Vector (Option Text) (max + 1), ∀ rta ∈ rtas,
      storeByType bigEndian tb rta = .ok (.next (setByType bigEndian tb rta)) := by
    intro tb rta listed
    obtain ⟨-, -, -, header, -, -⟩ := chain.pointer inside listed
    exact storeByType_eq tb (Nat.le_trans header (recordAt_length_le rta))
  rw [parseRtattr, Framing.walk_chain chain, visitAll_next _ goesOn]
  simp only [Checked.ok_bind, deficit_eq]
  split <;> rfl

/-- `parse_rtattr` on bytes that nobody has checked. -/
theorem parseRtattr_chain (inside : len ≤ memory.length) (max : Nat) :
    ∃ rtas rest after, rtattr.Chain bigEndian memory len rtas rest after ∧
      (parseRtattr bigEndian max memory len = .error .outOfBounds ↔ after ≠ 0 ∧ rest.length < 2) ∧
      (¬ (after ≠ 0 ∧ rest.length < 2) → ∃ tb, parseRtattr bigEndian max memory len = .ok tb ∧
        ∀ type (known : type < max + 1), tb[type] = lastOfType bigEndian rtas type ∧
          ∀ rta, tb[type] = some rta → PointsTo bigEndian memory len type rta) := by
  obtain ⟨rtas, rest, after, chain⟩ := @Framing.exists_chain rtattr bigEndian memory len inside
  have parsed := parseRtattr_eq chain inside max
  refine ⟨rtas, rest, after, chain, ?_, ?_⟩
  · rw [parsed]
    split
    · exact iff_of_true rfl ‹_›
    · refine iff_of_false ?_ ‹_›
      rintro ⟨⟩
  · intro stays
    rw [if_neg stays] at parsed
    refine ⟨_, parsed, fun type known => ?_⟩
    have slot : (rtas.foldl (setByType bigEndian) (Vector.replicate (max + 1) none))[type] =
        lastOfType bigEndian rtas type := by
      rw [foldl_setByType_get _ _ known, Vector.getElem_replicate, Option.or_none]
    refine ⟨slot, fun rta found => ?_⟩
    rw [slot] at found
    obtain ⟨listed, same⟩ := List.mem_filter.mp (List.mem_of_getLast? found)
    have same : typeOf bigEndian rta = type := of_decide_eq_true same
    exact same ▸ pointsTo_of_chain chain inside listed

/-- A whole attribute and one that is cut off. -/
def cutOff : Text := [5, 0, 3, 0, 9, 0, 0, 0, 8, 0, 1, 0]

theorem parseRtattr_chain_cutOff :
    ∃ rtas rest after, rtattr.Chain false cutOff 12 rtas rest after ∧
      (parseRtattr false 3 cutOff 12 = .error .outOfBounds ↔ after ≠ 0 ∧ rest.length < 2) ∧
      (¬ (after ≠ 0 ∧ rest.length < 2) → ∃ tb, parseRtattr false 3 cutOff 12 = .ok tb ∧
        ∀ type (known : type < 3 + 1), tb[type] = lastOfType false rtas type ∧
          ∀ rta, tb[type] = some rta → PointsTo false cutOff 12 type rta) :=
  parseRtattr_chain (by decide) 3

/-- The bytes behind the header of a message are in memory. -/
theorem payload_inside {n : Text} {length header : Nat} (small : length < 4294967296)
    (short : header ≤ 2147483648) (inside : length ≤ n.length) :
    asInt ((length : Int) - header) ≤ (n.drop header).length := by
  have dropped : (n.drop header).length = n.length - header := List.length_drop
  by_cases negative : asInt ((length : Int) - header) < 0
  · omega
  · obtain ⟨left, -⟩ := asInt_sub small short negative
    omega

/-- The loop over the attributes ends in front of two bytes of memory, with five bytes behind
the message. -/
theorem rest_inside {n rest : Text} {length header : Nat} {rtas : List Text} {after : Int}
    (small : length < 4294967296) (short : header ≤ 2147483648) (inside : length + 5 ≤ n.length)
    (whole : header + 2 ≤ n.length)
    (chain : rtattr.Chain bigEndian (n.drop header) (asInt ((length : Int) - header)) rtas rest after) :
    2 ≤ rest.length := by
  have dropped : (n.drop header).length = n.length - header := List.length_drop
  by_cases negative : asInt ((length : Int) - header) < 0
  · cases chain with
    | done none => omega
    | record found others =>
        obtain ⟨-, fits, -⟩ := Framing.recordLength_some found
        omega
  · obtain ⟨left, long⟩ := asInt_sub small short negative
    obtain ⟨offset, restEq, total, ended⟩ := chain.rest_eq (by omega)
    rw [restEq, List.length_drop]
    omega

/-- The chain of records that are all there is. -/
theorem chain_layout (records : List (Framing.Record rtattr bigEndian)) (behind : Text) :
    rtattr.Chain bigEndian (Framing.layout records ++ behind) (Framing.layout records).length
      (Framing.pointersOf records behind) behind 0 := by
  have positive : (0 : Int) < rtattr.header := by decide
  have nothing : rtattr.Chain bigEndian behind 0 [] behind 0 :=
    .done (Framing.recordLength_short positive)
  have chain := @Framing.Chain.of_layout rtattr bigEndian records behind behind 0 0 [] nothing
    (Int.le_refl 0)
  rwa [List.append_nil, Int.add_zero] at chain

/-- The table of attributes that are laid out. -/
theorem parseRtattr_layout (records : List (Framing.Record rtattr bigEndian)) (behind : Text)
    (max : Nat) :
    ∃ tb, parseRtattr bigEndian max (Framing.layout records ++ behind) (Framing.layout records).length =
        .ok tb ∧
      ∀ type (known : type < max + 1),
        tb[type] = lastOfType bigEndian (Framing.pointersOf records behind) type := by
  have parsed := parseRtattr_eq (chain_layout records behind) (by
    rw [List.length_append]
    omega) max
  rw [if_neg fun both => both.1 rfl] at parsed
  refine ⟨_, parsed, fun type known => ?_⟩
  rw [foldl_setByType_get _ _ known, Vector.getElem_replicate, Option.or_none]

end Chain

end Libamg.Netlink
