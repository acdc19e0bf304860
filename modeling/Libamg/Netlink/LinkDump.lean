import Libamg.Netlink.LinkMap
import Libamg.Netlink.Receive

/-!
# The dump of links

`ll_remember_index` on the bytes of a message, and the dump that `ll_init_map` reads. After
a dump of messages as the kernel sends them, the functions of the map answer by the last
message about each link (`llInitMap_links`). On other bytes `ll_remember_index` leaves its
memory for one reason only, a name that is too long for its array, of a link that there is
room for (`llRememberIndex_returns_iff`).
-/

namespace Libamg.Netlink

open C Semantics

def rtmNewlink : Nat := 16
def iflaAddress : Nat := 1
def iflaIfname : Nat := 3

/-- The header of a message about a link, `NLMSG_LENGTH(sizeof(struct ifinfomsg))`. -/
def linkHeaderLength : Nat := 32

section Functions

variable (bigEndian : Bool)

/-- An address attribute: its `RTA_PAYLOAD` and the memory at its `RTA_DATA`. -/
def readAddress : Option Text → Checked (Option (Int × Text))
  | none => return none
  | some rta => do
      let payload ← rtaPayload bigEndian rta
      return some (payload, rtaData rta)

/-- What `ll_remember_index` takes from a message and its attributes. -/
def readLink (n name : Text) (address : Option Text) : Checked LinkInfo := do
  let index ← readNum bigEndian n 20 4
  let type ← readNum bigEndian n 18 2
  let flags ← readNum bigEndian n 24 4
  let address ← readAddress bigEndian address
  return ⟨UInt32.ofNat index, type, UInt32.ofNat flags, address, rtaData name⟩

/-- `ll_remember_index`; the length that it asks for counts a pointer, not a header. -/
def llRememberIndex (pointer iflaMax fuel : Nat) (malloc : Option LinkAllocator) :
    Filter LinkTable := fun _ n table => do
  let type ← nlmsgType bigEndian n
  if type ≠ rtmNewlink then return (0, table)
  else
    let len ← nlmsgLen bigEndian n
    if len < 16 + pointer then return (-1, table)
    else
      let tb ← parseRtattr bigEndian iflaMax (n.drop linkHeaderLength)
        (asInt ((len : Int) - linkHeaderLength))
      match ← element tb iflaIfname with
      | none => return (0, table)
      | some name => do
          let address ← element tb iflaAddress
          let link ← readLink bigEndian n name address
          let table ← remember fuel link malloc table
          return (0, table)

/-- `ll_init_map`, from the moment the request is sent. -/
def llInitMap (pointer iflaMax fuel : Nat) (malloc : Option LinkAllocator) (handle : Handle)
    (buf : Text) (table : LinkTable) (received : List Received) : Checked (Outcome LinkTable) := do
  let dumped ← dumpFilter bigEndian handle
    (llRememberIndex bigEndian pointer iflaMax fuel malloc) none buf table received
  match dumped with
  | .returned status table => if status < 0 then return .exited 1 table else return .returned 0 table
  | .exited status table => return .exited status table
  | .waiting table => return .waiting table

end Functions

/-! ## Any bytes -/

/-- An attribute as an address. -/
def addressOf (bigEndian : Bool) (rta : Text) : Int × Text :=
  ((loadNum bigEndian (rta.take 2) : Int) - 4, rtaData rta)

/-- What a message with these attributes says about a link. -/
def infoOf (bigEndian : Bool) (n name : Text) (address : Option Text) : LinkInfo where
  index := UInt32.ofNat (loadNum bigEndian ((n.drop 20).take 4))
  type := loadNum bigEndian ((n.drop 18).take 2)
  flags := UInt32.ofNat (loadNum bigEndian ((n.drop 24).take 4))
  address := address.map (addressOf bigEndian)
  name := rtaData name

section Any

variable {bigEndian : Bool} {pointer iflaMax fuel count : Nat} {table : LinkTable}
  {map : UInt32 → Option LinkView}

/-- The name that begins at an attribute's data fits into its array. -/
def NameFits (rta : Text) : Prop := 0 ∈ rtaData rta ∧ (cstr (rtaData rta)).length < 16

theorem NameFits.append {name : Text} (fits : NameFits name) (whole : 4 ≤ name.length) (behind : Text) :
    NameFits (name ++ behind) := by
  rw [NameFits, rtaData_append whole, cstr_append_behind fits.1]
  exact ⟨List.mem_append_left behind fits.1, fits.2⟩

/-- The length in front of an attribute counts bytes that are there. -/
def LengthsInside (bigEndian : Bool) (address : Option Text) : Prop :=
  ∀ rta ∈ address, 4 ≤ loadNum bigEndian (rta.take 2) ∧ loadNum bigEndian (rta.take 2) ≤ rta.length

theorem LengthsInside.append {address : Option Text} (inside : LengthsInside bigEndian address)
    (behind : Text) : LengthsInside bigEndian (address.map (· ++ behind)) := by
  intro rta longer
  obtain ⟨short, given, rfl⟩ := Option.map_eq_some_iff.mp longer
  obtain ⟨counted, bounded⟩ := inside short given
  rw [List.take_append_of_le_length (by omega), List.length_append]
  omega

/-- A link whose address is there takes its fields exactly if its name fits. -/
theorem fill_returns_iff (im : IdxMap) {link : LinkInfo} (address : AddressFits link.address) :
    (∃ after, fill im link = .ok after) ↔ 0 ∈ link.name ∧ (cstr link.name).length < 16 := by
  constructor
  · rintro ⟨after, filled⟩
    unfold fill at filled
    obtain ⟨begun, -, named⟩ := Checked.bind_eq_ok filled
    obtain ⟨name, copied, -⟩ := Checked.bind_eq_ok named
    unfold strcpyName at copied
    split at copied
    · rename_i terminated
      refine ⟨terminated, ?_⟩
      by_contra long
      have overrun : 16 < 0 + (cstr link.name ++ [0]).length := by
        rw [List.length_append, List.length_singleton]
        omega
      rw [CharArray.writeAt_overrun overrun] at copied
      cases copied
    · cases copied
  · rintro ⟨terminated, short⟩
    obtain ⟨after, filled, -⟩ := fill_eq im ⟨terminated, short, address⟩
    exact ⟨after, filled⟩

theorem readLink_eq {n : Text} (whole : linkHeaderLength ≤ n.length) (name : Text)
    {address : Option Text} (inside : LengthsInside bigEndian address) :
    readLink bigEndian n name address = .ok (infoOf bigEndian n name address) := by
  have whole : 32 ≤ n.length := whole
  have index := @readNum_inside bigEndian n 20 4 (by omega)
  have type := @readNum_inside bigEndian n 18 2 (by omega)
  have flags := @readNum_inside bigEndian n 24 4 (by omega)
  unfold readLink
  rw [index, type, flags]
  cases address with
  | none => rfl
  | some rta =>
      obtain ⟨header, bounded⟩ := inside rta rfl
      have two : 0 + 2 ≤ rta.length := by omega
      rw [readAddress, rtaPayload, rtaLen, readNum_inside two]
      rfl

theorem infoOf_addressFits (n name : Text) {address : Option Text}
    (inside : LengthsInside bigEndian address) :
    AddressFits (infoOf bigEndian n name address).address := by
  cases address with
  | none => exact fun given impossible => by cases impossible
  | some rta =>
      intro given isGiven
      obtain ⟨header, bounded⟩ := inside rta rfl
      cases isGiven
      rw [addressOf, rtaData, List.length_drop, copied]
      split <;> omega

/-- Remembering a link whose address is there stays in memory exactly if its name fits, or
there is no room for it. -/
theorem remember_returns_iff (represents : Represents count table map) (enough : count < fuel)
    (malloc : Option LinkAllocator) {link : LinkInfo} (address : AddressFits link.address) :
    (∃ after, remember fuel link malloc table = .ok after) ↔
      (HasRoom map malloc link.index → 0 ∈ link.name ∧ (cstr link.name).length < 16) := by
  by_cases room : HasRoom map malloc link.index
  · obtain ⟨im, keep, remembered, -⟩ := remember_fill represents enough link room
    rw [forall_prop_of_true room, ← fill_returns_iff im address, remembered]
    cases fill im link with
    | error fault =>
        refine iff_of_false ?_ ?_
        · rintro ⟨after, impossible⟩
          cases impossible
        · rintro ⟨after, impossible⟩
          cases impossible
    | ok new => exact iff_of_true ⟨keep new, rfl⟩ ⟨new, rfl⟩
  · exact iff_of_true ⟨table, remember_noRoom represents enough room⟩ fun given => absurd given room

/-- The index of the link that a message is about. -/
def linkOfMessage (bigEndian : Bool) (n : Text) : UInt32 :=
  UInt32.ofNat (loadNum bigEndian ((n.drop 20).take 4))

/-- Whatever a message is, `ll_remember_index` stays in memory unless the message has a name
that does not fit, for a link that is known or that `malloc` has memory for. -/
theorem llRememberIndex_returns_iff (known : iflaIfname ≤ iflaMax)
    (represents : Represents count table map) (enough : count < fuel) (malloc : Option LinkAllocator)
    (sender : Nat) {n : Text} {length : Nat} (counted : nlmsgLen bigEndian n = .ok length)
    (header : 16 ≤ length) (inside : length + 18 ≤ n.length) :
    ∃ rtas rest after, rtattr.Chain bigEndian (n.drop linkHeaderLength)
        (asInt ((length : Int) - linkHeaderLength)) rtas rest after ∧
      ((∃ result, llRememberIndex bigEndian pointer iflaMax fuel malloc sender n table = .ok result) ↔
        (typeOfMessage bigEndian n = rtmNewlink → 16 + pointer ≤ length →
          ∀ name, lastOfType bigEndian rtas iflaIfname = some name →
            HasRoom map malloc (linkOfMessage bigEndian n) → NameFits name)) := by
  have small : length < 4294967296 := readNum_lt counted
  have left : asInt ((length : Int) - linkHeaderLength) ≤ (n.drop linkHeaderLength).length :=
    payload_inside small (by decide) (by omega)
  obtain ⟨rtas, rest, after, chain⟩ := Framing.exists_chain (n.drop linkHeaderLength) _ left
  refine ⟨rtas, rest, after, chain, ?_⟩
  have type : nlmsgType bigEndian n = .ok (typeOfMessage bigEndian n) := readNum_inside (by omega)
  have whole : linkHeaderLength + 2 ≤ n.length := by
    have header : linkHeaderLength = 32 := rfl
    omega
  have behind : 2 ≤ rest.length := rest_inside small (by decide) (by omega) whole chain
  have stays : ¬ (after ≠ 0 ∧ rest.length < 2) := fun overrun => Nat.not_lt.mpr behind overrun.2
  have slot {type : Nat} (isKnown : type ≤ iflaMax) :
      element (rtas.foldl (setByType bigEndian) (Vector.replicate (iflaMax + 1) none)) type =
        .ok (lastOfType bigEndian rtas type) := by
    have within : type < iflaMax + 1 := by omega
    rw [element, dif_pos within, foldl_setByType_get _ _ within, Vector.getElem_replicate,
      Option.or_none]
  have addressKnown : iflaAddress ≤ iflaMax := Nat.le_trans (by decide) known
  unfold llRememberIndex
  simp only [type, counted, Checked.ok_bind, parseRtattr_eq chain left, if_neg stays, slot known,
    slot addressKnown]
  by_cases isLink : typeOfMessage bigEndian n = rtmNewlink
  · rw [if_neg (not_not.mpr isLink)]
    by_cases short : length < 16 + pointer
    · rw [if_pos short]
      exact iff_of_true ⟨_, rfl⟩ fun _ long => absurd long (by omega)
    · rw [if_neg short]
      cases found : lastOfType bigEndian rtas iflaIfname with
      | none => exact iff_of_true ⟨_, rfl⟩ fun _ _ name impossible => by cases impossible
      | some name =>
          have lengths : LengthsInside bigEndian (lastOfType bigEndian rtas iflaAddress) := by
            intro rta isLast
            obtain ⟨offset, rtaEq, -, header, counted, bounded⟩ :=
              chain.pointer left (lastOfType_mem isLast)
            have header : 4 ≤ (rtattr.recordAt bigEndian rta).length := header
            have counted : loadNum bigEndian (rta.take 2) = (rtattr.recordAt bigEndian rta).length :=
              counted
            have bound := @recordAt_length_le bigEndian rta
            omega
          have long : linkHeaderLength ≤ n.length := by omega
          simp only [Checked.ok_bind, readLink_eq long name lengths]
          have fits : _ ↔ (HasRoom map malloc (linkOfMessage bigEndian n) → NameFits name) :=
            remember_returns_iff represents enough malloc (infoOf_addressFits n name lengths)
          constructor
          · rintro ⟨result, returned⟩ - - name' isName'
            cases isName'
            obtain ⟨after, remembered, -⟩ := Checked.bind_eq_ok returned
            exact fits.mp ⟨after, remembered⟩
          · intro nameFits
            obtain ⟨after, remembered⟩ := fits.mpr (nameFits isLink (Nat.not_lt.mp short) name rfl)
            rw [remembered]
            exact ⟨_, rfl⟩
  · rw [if_pos isLink]
    exact iff_of_true ⟨_, rfl⟩ fun absurdLink => absurd absurdLink isLink

/-- A message about `lo`. -/
def loopback : Text :=
  [40, 0, 0, 0, 16, 0, 2, 0, 7, 0, 0, 0, 1, 0, 0, 0, 0, 0, 4, 3, 1, 0, 0, 0, 9, 0, 0, 0, 0, 0, 0, 0,
    7, 0, 3, 0, 108, 111, 0, 0]

theorem llRememberIndex_returns_iff_loopback :
    ∃ rtas rest after, rtattr.Chain false ((loopback ++ List.replicate 20 0).drop linkHeaderLength)
        (asInt ((40 : Nat) - linkHeaderLength)) rtas rest after ∧
      ((∃ result, llRememberIndex false 8 50 1 (some freeAllocator) 0 (loopback ++ List.replicate 20 0)
          emptyTable = .ok result) ↔
        (typeOfMessage false (loopback ++ List.replicate 20 0) = rtmNewlink → 16 + 8 ≤ 40 →
          ∀ name, lastOfType false rtas iflaIfname = some name →
            HasRoom (fun _ => none) (some freeAllocator)
              (linkOfMessage false (loopback ++ List.replicate 20 0)) → NameFits name)) :=
  llRememberIndex_returns_iff (by decide) emptyTable_represents (by decide) (some freeAllocator) 0 rfl
    (by decide) (by decide)

end Any

/-! ## Messages of the kernel -/

/-- The bytes of a message about a link are its header and attributes, and its names fit. -/
structure CarriesLink (bigEndian : Bool) (bytes : Text)
    (rtas : List (Framing.Record rtattr bigEndian)) : Prop where
  whole : linkHeaderLength ≤ bytes.length
  attributes : bytes.drop linkHeaderLength = Framing.layout rtas
  names : ∀ rta ∈ rtas, typeOf bigEndian rta.bytes = iflaIfname → NameFits rta.bytes

/-- A message of the kernel, with the attributes that it has if it is about a link. -/
structure LinkMessage (bigEndian : Bool) where
  message : Framing.Record nlmsg bigEndian
  rtas : List (Framing.Record rtattr bigEndian)
  carries : typeOfMessage bigEndian message.bytes = rtmNewlink →
    CarriesLink bigEndian message.bytes rtas
  int : message.bytes.length < 2147483648

section Messages

variable {bigEndian : Bool} {pointer iflaMax fuel count : Nat} {table : LinkTable}
  {map : UInt32 → Option LinkView} {malloc : Option LinkAllocator}

/-- What is learned from a message. -/
def LinkMessage.info (link : LinkMessage bigEndian) : Option LinkInfo :=
  if typeOfMessage bigEndian link.message.bytes = rtmNewlink then
    (lastOfType bigEndian (link.rtas.map Framing.Record.bytes) iflaIfname).map fun name =>
      infoOf bigEndian link.message.bytes name
        (lastOfType bigEndian (link.rtas.map Framing.Record.bytes) iflaAddress)
  else none

/-- The pointer to the last attribute of a type points to that attribute. -/
theorem lastOfType_pointersOf (rtas : List (Framing.Record rtattr bigEndian)) (behind : Text)
    (type : Nat) :
    ∃ tail, lastOfType bigEndian (Framing.pointersOf rtas behind) type =
      (lastOfType bigEndian (rtas.map Framing.Record.bytes) type).map (· ++ tail) := by
  induction rtas with
  | nil => exact ⟨[], rfl⟩
  | cons first rtas inductionHypothesis =>
      obtain ⟨tail, last⟩ := inductionHypothesis
      have whole : 4 ≤ first.bytes.length := first.complete
      rw [List.map_cons, Framing.pointersOf, lastOfType_cons, lastOfType_cons, Framing.layout_cons,
        List.append_assoc, typeOf_append whole, last]
      cases lastOfType bigEndian (rtas.map Framing.Record.bytes) type with
      | some rta => exact ⟨tail, rfl⟩
      | none =>
          refine ⟨(first.padding ++ Framing.layout rtas) ++ behind, ?_⟩
          rw [Option.map_none, Option.none_or, Option.none_or]
          split <;> rfl

/-- The attribute of a type is one of the message. -/
theorem lastOfType_record {rtas : List (Framing.Record rtattr bigEndian)} {type : Nat} {rta : Text}
    (last : lastOfType bigEndian (rtas.map Framing.Record.bytes) type = some rta) :
    ∃ record ∈ rtas, record.bytes = rta ∧ typeOf bigEndian rta = type := by
  obtain ⟨record, listed, same⟩ := List.mem_map.mp (lastOfType_mem last)
  have typed := (List.mem_filter.mp (List.mem_of_getLast? last)).2
  exact ⟨record, listed, same, of_decide_eq_true typed⟩

/-- What lies behind the attributes is not copied. -/
theorem infoOf_trim {n name behind tail other : Text} {address : Option Text}
    (whole : linkHeaderLength ≤ n.length) (nameWhole : 4 ≤ name.length) (nameFits : NameFits name)
    (inside : LengthsInside bigEndian address) :
    (infoOf bigEndian (n ++ behind) (name ++ tail) (address.map (· ++ other))).trim =
      (infoOf bigEndian n name address).trim := by
  have field {offset width : Nat} (inside : offset + width ≤ linkHeaderLength) :
      ((n ++ behind).drop offset).take width = (n.drop offset).take width := by
    have long : width ≤ (n.drop offset).length := by
      rw [List.length_drop]
      omega
    rw [List.drop_append_of_le_length (by omega), List.take_append_of_le_length long]
  have string : cstr (rtaData (name ++ tail)) = cstr (rtaData name) := by
    rw [rtaData_append nameWhole, cstr_append_behind nameFits.1]
  have addresses : (infoOf bigEndian (n ++ behind) (name ++ tail) (address.map (· ++ other))).trim.address =
      (infoOf bigEndian n name address).trim.address := by
    cases address with
    | none => rfl
    | some rta =>
        obtain ⟨header, bounded⟩ := inside rta rfl
        have rtaWhole : 4 ≤ rta.length := Nat.le_trans header bounded
        have two : (rta ++ other).take 2 = rta.take 2 := List.take_append_of_le_length (by omega)
        have data := rtaData_append rtaWhole other
        have here : copied ((loadNum bigEndian (rta.take 2) : Int) - 4) ≤ (rtaData rta).length :=
          infoOf_addressFits n name inside (addressOf bigEndian rta) rfl
        simp only [LinkInfo.trim, infoOf, Option.map_some, addressOf, two, data,
          List.take_append_of_le_length here]
  have numbers : (infoOf bigEndian (n ++ behind) (name ++ tail) (address.map (· ++ other))).trim =
      { (infoOf bigEndian n name address).trim with
        address := (infoOf bigEndian (n ++ behind) (name ++ tail)
          (address.map (· ++ other))).trim.address } := by
    simp only [LinkInfo.trim, infoOf, string, @field 20 4 (by decide), @field 18 2 (by decide),
      @field 24 4 (by decide)]
  rw [numbers, addresses]

/-- The last address of a message has its length in front. -/
theorem lengthsInside_record (rtas : List (Framing.Record rtattr bigEndian)) (type : Nat) :
    LengthsInside bigEndian (lastOfType bigEndian (rtas.map Framing.Record.bytes) type) := by
  intro rta last
  obtain ⟨record, -, same, -⟩ := lastOfType_record last
  have header : 4 ≤ record.bytes.length := record.complete
  have counted : loadNum bigEndian (record.bytes.take 2) = record.bytes.length := record.counted
  rw [← same, counted]
  exact ⟨header, Nat.le_refl _⟩

theorem LinkMessage.info_fits (link : LinkMessage bigEndian) : ∀ info ∈ link.info, info.Fits := by
  intro info known
  unfold LinkMessage.info at known
  split at known
  · rename_i isLink
    obtain ⟨name, last, rfl⟩ := Option.map_eq_some_iff.mp known
    obtain ⟨record, listed, rfl, typed⟩ := lastOfType_record last
    obtain ⟨terminated, short⟩ := (link.carries isLink).names record listed typed
    exact ⟨terminated, short, infoOf_addressFits _ _ (lengthsInside_record link.rtas iflaAddress)⟩
  · cases known

/-- What comes of a message that says this about a link. -/
def learn (fuel : Nat) (malloc : Option LinkAllocator) (table : LinkTable) :
    Option LinkInfo → Checked (Int × LinkTable)
  | none => return (0, table)
  | some info => do
      let table ← remember fuel info malloc table
      return (0, table)

/-- `ll_remember_index` learns what a message of the kernel says. -/
theorem llRememberIndex_message (known : iflaIfname ≤ iflaMax) (small : pointer ≤ 16)
    (link : LinkMessage bigEndian) (sender : Nat) (behind : Text) (table : LinkTable) :
    llRememberIndex bigEndian pointer iflaMax fuel malloc sender (link.message.bytes ++ behind) table =
      learn fuel malloc table link.info := by
  have complete : 16 ≤ link.message.bytes.length := link.message.complete
  have type : nlmsgType bigEndian (link.message.bytes ++ behind) =
      .ok (typeOfMessage bigEndian link.message.bytes) :=
    (readNum_message link.message behind (by decide)).trans (nlmsgType_message link.message)
  have len : nlmsgLen bigEndian (link.message.bytes ++ behind) = .ok link.message.bytes.length :=
    (readNum_message link.message behind (by decide)).trans (nlmsgLen_message link.message)
  unfold llRememberIndex
  simp only [type, len, Checked.ok_bind]
  rw [LinkMessage.info]
  by_cases isLink : typeOfMessage bigEndian link.message.bytes = rtmNewlink
  · obtain ⟨whole, attributes, names⟩ := link.carries isLink
    have int := link.int
    have header : linkHeaderLength = 32 := rfl
    have long : ¬ link.message.bytes.length < 16 + pointer := by omega
    have total : (Framing.layout link.rtas).length = link.message.bytes.length - linkHeaderLength := by
      rw [← attributes, List.length_drop]
    have left : asInt ((link.message.bytes.length : Int) - linkHeaderLength) =
        (Framing.layout link.rtas).length := by
      rw [asInt_eq (by omega) (by omega)]
      omega
    have memory : (link.message.bytes ++ behind).drop linkHeaderLength =
        Framing.layout link.rtas ++ behind := by
      rw [List.drop_append_of_le_length whole, attributes]
    obtain ⟨tb, parsed, slots⟩ := @parseRtattr_layout bigEndian link.rtas behind iflaMax
    have slot {type : Nat} (isKnown : type ≤ iflaMax) : element tb type =
        .ok (lastOfType bigEndian (Framing.pointersOf link.rtas behind) type) := by
      have within : type < iflaMax + 1 := by omega
      rw [element, dif_pos within, slots type within]
    have addressKnown : iflaAddress ≤ iflaMax := Nat.le_trans (by decide) known
    obtain ⟨tail, isName⟩ := lastOfType_pointersOf link.rtas behind iflaIfname
    obtain ⟨other, isAddress⟩ := lastOfType_pointersOf link.rtas behind iflaAddress
    rw [if_neg (not_not.mpr isLink), if_neg long, if_pos isLink, left, memory, parsed]
    simp only [Checked.ok_bind, slot known, slot addressKnown, isName, isAddress]
    cases last : lastOfType bigEndian (link.rtas.map Framing.Record.bytes) iflaIfname with
    | none => rfl
    | some name =>
        obtain ⟨record, listed, rfl, typed⟩ := lastOfType_record last
        have nameWhole : 4 ≤ record.bytes.length := record.complete
        have nameFits := names record listed typed
        have lengths := lengthsInside_record link.rtas iflaAddress
        have lengthsBehind : LengthsInside bigEndian
            ((lastOfType bigEndian (link.rtas.map Framing.Record.bytes) iflaAddress).map (· ++ other)) :=
          lengths.append other
        have wholeBehind : linkHeaderLength ≤ (link.message.bytes ++ behind).length := by
          rw [List.length_append]
          omega
        have nameFitsBehind := nameFits.append nameWhole tail
        have fits := link.info_fits (infoOf bigEndian link.message.bytes record.bytes
          (lastOfType bigEndian (link.rtas.map Framing.Record.bytes) iflaAddress)) (by
            rw [LinkMessage.info, if_pos isLink, last]
            rfl)
        have fitsBehind : LinkInfo.Fits (infoOf bigEndian (link.message.bytes ++ behind)
            (record.bytes ++ tail) _) :=
          ⟨nameFitsBehind.1, nameFitsBehind.2, infoOf_addressFits _ _ lengthsBehind⟩
        simp only [Option.map_some, readLink_eq wholeBehind _ lengthsBehind, Checked.ok_bind, learn]
        rw [← remember_trim fuel fitsBehind, ← remember_trim fuel fits,
          infoOf_trim whole nameWhole nameFits lengths]
  · rw [if_pos isLink, if_neg isLink]
    rfl

theorem llRememberIndex_local (known : iflaIfname ≤ iflaMax) (small : pointer ≤ 16)
    (link : LinkMessage bigEndian) (sender : Nat) :
    LocalAt (llRememberIndex bigEndian pointer iflaMax fuel malloc) sender link.message := by
  intro behind table
  have alone := @llRememberIndex_message _ _ _ fuel malloc known small link sender [] table
  rw [List.append_nil] at alone
  rw [llRememberIndex_message known small link sender behind table, alone]

/-- What the last of the messages about a link says. -/
def lastKnown (links : List (LinkMessage bigEndian)) (idx : UInt32) : Option LinkView :=
  ((links.filterMap LinkMessage.info).filter fun info => info.index = idx).getLast?.map LinkInfo.view

theorem lastKnown_cons (link : LinkMessage bigEndian) (links : List (LinkMessage bigEndian))
    (idx : UInt32) :
    lastKnown (link :: links) idx = (lastKnown links idx).or
      ((link.info.filter fun info => info.index = idx).map LinkInfo.view) := by
  rw [lastKnown, lastKnown, List.filterMap_cons]
  cases link.info with
  | none => rw [Option.filter_none, Option.map_none, Option.or_none]
  | some info =>
      simp only [List.filter_cons, Option.filter_some]
      by_cases same : info.index = idx
      · simp only [same, decide_true, if_true, List.getLast?_cons]
        cases ((links.filterMap LinkMessage.info).filter fun info => info.index = idx).getLast? <;> rfl
      · simp only [same, decide_false, Bool.false_eq_true, if_false, Option.map_none, Option.or_none]

/-- The loop over the messages of a dump leaves what they say last. -/
theorem visitAll_links (known : iflaIfname ≤ iflaMax) (small : pointer ≤ 16)
    (allocator : LinkAllocator) (links : List (LinkMessage bigEndian))
    (represents : Represents count table map) (enough : count + links.length ≤ fuel)
    (complete : Bool) :
    ∃ after, atEnd complete <$> visitAll (fun table (link : LinkMessage bigEndian) => afterFilter <$>
          llRememberIndex bigEndian pointer iflaMax fuel (some allocator) 0 link.message.bytes table)
        table links = .ok (.returned (if complete then 0 else -1) after) ∧
      Represents (count + links.length) after fun idx => (lastKnown links idx).or (map idx) := by
  induction links generalizing count table map with
  | nil => exact ⟨table, rfl, represents⟩
  | cons link links inductionHypothesis =>
      rw [List.length_cons] at enough ⊢
      have within : count < fuel := by omega
      have later : count + 1 + links.length ≤ fuel := by omega
      have total : count + (links.length + 1) = count + 1 + links.length := by omega
      have alone := @llRememberIndex_message _ _ _ fuel (some allocator) known small link 0 [] table
      rw [List.append_nil] at alone
      cases learned : link.info with
      | none =>
          rw [learned, learn] at alone
          obtain ⟨after, visited, representsAfter⟩ :=
            inductionHypothesis (represents.mono (Nat.le_succ count)) later
          refine ⟨after, ?_, ?_⟩
          · rw [visitAll_filtered alone]
            exact visited
          · rw [total]
            simp only [lastKnown_cons, learned, Option.filter_none, Option.map_none, Option.or_none]
            exact representsAfter
      | some info =>
          obtain ⟨next, stored, representsNext⟩ := remember_represents represents within
            (link.info_fits info learned) (some allocator)
          rw [learned, learn, stored] at alone
          obtain ⟨after, visited, representsAfter⟩ := inductionHypothesis representsNext later
          refine ⟨after, ?_, ?_⟩
          · rw [visitAll_filtered alone]
            exact visited
          · rw [total]
            convert representsAfter using 1
            funext idx
            rw [lastKnown_cons, learned, rememberView, if_pos (.inr rfl), Option.or_assoc]
            congr 1
            by_cases same : info.index = idx
            · subst same
              simp only [Function.update_self, Option.filter_some, decide_true, if_true, Option.map_some,
                Option.some_or]
            · rw [Function.update_of_ne (Ne.symm same)]
              simp only [Option.filter_some, same, decide_false, Bool.false_eq_true, if_false,
                Option.map_none, Option.none_or]

/-- After a dump of messages of the kernel that ends with `NLMSG_DONE`, the functions of the map
answer by the last message about each link, however the messages were spread over datagrams
that are no longer than the buffer. A dump that ends with an error ends the program. -/
theorem llInitMap_links (known : iflaIfname ≤ iflaMax) (small : pointer ≤ 16)
    (allocator : LinkAllocator) (handle : Handle) {buf : Text} (size : buf.length = dumpBuffer)
    (links : List (Nat × LinkMessage bigEndian)) (arrivals : List (Arrival bigEndian))
    (arrivalsFit : ∀ arrival ∈ arrivals, arrival.Fits dumpBuffer)
    (arrive : arrivals.flatMap Arrival.senders = links.map fun sent => (sent.1, sent.2.message))
    {complete : Bool} (ends : (dumped LinkMessage.message handle links).2 = some complete)
    (calls : List LinkCall) (fits : ∀ call ∈ calls, call.Fits)
    (enough : (dumped LinkMessage.message handle links).1.length + calls.length ≤ fuel) :
    ∃ table last,
      llInitMap bigEndian pointer iflaMax fuel (some allocator) handle buf emptyTable
          (arrivals.map Arrival.received) =
        .ok (if complete then .returned 0 table else .exited 1 table) ∧
      runChecked (linkStep fuel) table calls =
        .ok ((run viewStep (lastKnown (dumped LinkMessage.message handle links).1) calls).1, last) := by
  have filterLocal : ∀ sent ∈ arrivals.flatMap Arrival.senders,
      LocalAt (llRememberIndex bigEndian pointer iflaMax fuel (some allocator)) sent.1 sent.2 := by
    intro sent listed
    rw [arrive] at listed
    obtain ⟨link, -, rfl⟩ := List.mem_map.mp listed
    exact llRememberIndex_local known small link.2 link.1
  have within : 0 + (dumped LinkMessage.message handle links).1.length ≤ fuel := by omega
  obtain ⟨table, visited, represents⟩ := visitAll_links known small allocator
    (dumped LinkMessage.message handle links).1 emptyTable_represents within complete
  simp only [Option.or_none, Nat.zero_add] at represents
  obtain ⟨last, ran, -⟩ := linkRun_represents represents calls fits enough
  refine ⟨table, last, ?_, ran⟩
  rw [llInitMap, dumpFilter_messages buf emptyTable arrivals (size.symm ▸ arrivalsFit) filterLocal
      (fun _ impossible => by cases impossible),
    arrive, dumpMessages_dumped LinkMessage.message ends emptyTable, visited]
  cases complete <;> rfl

/-- The message about `lo`, in the form of the kernel. -/
def loopbackMessage : LinkMessage false where
  message :=
    { bytes := loopback
      padding := []
      complete := by decide
      counted := by decide
      padded := by decide }
  rtas :=
    [{ bytes := [7, 0, 3, 0, 108, 111, 0]
       padding := [0]
       complete := by decide
       counted := by decide
       padded := by decide }]
  carries := fun _ => ⟨by decide, by decide, fun rta listed _ => by
    cases List.mem_singleton.mp listed
    exact ⟨by decide, by decide⟩⟩
  int := by decide

theorem doneMessage_noLink (rtas : List (Framing.Record rtattr false)) :
    typeOfMessage false doneMessage.bytes = rtmNewlink → CarriesLink false doneMessage.bytes rtas := by
  intro isLink
  have other : typeOfMessage false doneMessage.bytes = nlmsgDone := rfl
  rw [other] at isLink
  cases isLink

/-- The end of the dump, as a message that is about no link. -/
def endOfLinks : LinkMessage false where
  message := doneMessage
  rtas := []
  carries := doneMessage_noLink []
  int := doneMessage_int

/-- What the map says of `lo` after it was dumped. -/
theorem llInitMap_links_loopback :
    ∃ table last,
      llInitMap false 8 50 4 (some freeAllocator) ⟨1, 7⟩ (List.replicate dumpBuffer 0) emptyTable
          ([.messages 0 [loopbackMessage.message, doneMessage] (by decide)].map Arrival.received) =
        .ok (.returned 0 table) ∧
      runChecked (linkStep 4) table [.indexToType 1] =
        .ok ((run viewStep (lastKnown [loopbackMessage]) [.indexToType 1]).1, last) :=
  @llInitMap_links false 8 50 4 (by decide) (by decide) freeAllocator ⟨1, 7⟩ _
    List.length_replicate [(0, loopbackMessage), (0, endOfLinks)]
    [.messages 0 [loopbackMessage.message, doneMessage] (by decide)]
    (forall_mem_of_all (by decide)) rfl true (by decide)
    [.indexToType 1] (fun call listed => by
      cases List.mem_singleton.mp listed
      trivial) (by decide)

end Messages

end Libamg.Netlink
