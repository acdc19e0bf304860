import Libamg.Net.RouteFilter
import Libamg.Netlink.Attributes
import Libamg.Netlink.Receive

/-!
# The default gateway, byte by byte

`_filter_default_gw` on the bytes that `rtnl_dump_filter` receives. For messages as the
kernel sends them it gives what the model over lists of attributes gives
(`dumpFilter_gateway`), and whatever bytes arrive, it does not leave the buffer of a dump
whose datagrams end five bytes before it does (`dumpFilter_gateway_returns`).
-/

namespace Libamg.Netlink

open C Net

def rtaDst : Nat := 1
def rtaGateway : Nat := 5
def rtaTable : Nat := 15

/-- The address at the front of a block. -/
def addrOf (memory : Text) : InAddr :=
  ⟨memory.getD 0 0, memory.getD 1 0, memory.getD 2 0, memory.getD 3 0⟩

/-- Read an `in_addr_t`. -/
def readAddr (memory : Text) : Checked InAddr :=
  if 4 ≤ memory.length then .ok (addrOf memory) else .error .outOfBounds

section Functions

variable (bigEndian : Bool) {max : Nat}

/-- A table attribute names another table than the main one. -/
def otherTable (tb : Vector (Option Text) (max + 1)) : Checked Bool := do
  match ← element tb rtaTable with
  | none => return false
  | some rta => do
      let table ← readNum bigEndian (rtaData rta) 0 4
      return decide (table ≠ 254)

/-- The tests of `_filter_default_gw` on the attributes, and the address afterwards. -/
def selectGateway (h : Text) (tb : Vector (Option Text) (max + 1)) (addr : InAddr) :
    Checked InAddr := do
  let family ← readNum bigEndian h 16 1
  if family ≠ afInet.toNat then return addr
  else if ← otherTable bigEndian tb then return addr
  else
    match ← element tb rtaDst with
    | some _ => return addr
    | none =>
        match ← element tb rtaGateway with
        | none => return addr
        | some rta => readAddr (rtaData rta)

/-- `_filter_default_gw`. -/
def filterDefaultGw (rtaMax : Nat) : Filter InAddr := fun _ h addr => do
  let nlmsgLen ← nlmsgLen bigEndian h
  let type ← nlmsgType bigEndian h
  if type ≠ rtmNewroute.toNat ∧ type ≠ rtmDelroute.toNat then return (-1, addr)
  else
    -- An `int` less `NLMSG_LENGTH(sizeof(*r))`.
    let len := asInt ((nlmsgLen : Int) - routeHeaderLength)
    if len < 0 then return (-1, addr)
    else
      let tb ← parseRtattr bigEndian rtaMax (h.drop routeHeaderLength) len
      let addr ← selectGateway bigEndian h tb addr
      return (0, addr)

end Functions

section Select

variable (bigEndian : Bool)

/-- The identifier in a table attribute. -/
def tableOf (rta : Text) : Nat := loadNum bigEndian ((rtaData rta).take 4)

/-- The address that a route with these attributes leaves. -/
def selected (family : Nat) (rtas : List Text) (addr : InAddr) : InAddr :=
  if family ≠ afInet.toNat then addr
  else if (lastOfType bigEndian rtas rtaTable).any fun rta => tableOf bigEndian rta ≠ 254 then addr
  else if (lastOfType bigEndian rtas rtaDst).isSome then addr
  else ((lastOfType bigEndian rtas rtaGateway).map fun rta => addrOf (rtaData rta)).getD addr

variable {bigEndian}

/-- With four bytes behind the header of every attribute the tests stay in memory. -/
theorem selectGateway_eq {max : Nat} {h : Text} {tb : Vector (Option Text) (max + 1)}
    {rtas : List Text} (known : rtaTable ≤ max) (header : 17 ≤ h.length)
    (slots : ∀ type (inside : type < max + 1), tb[type] = lastOfType bigEndian rtas type)
    (long : ∀ rta ∈ rtas, typeOf bigEndian rta = rtaTable ∨ typeOf bigEndian rta = rtaGateway →
      8 ≤ rta.length) (addr : InAddr) :
    selectGateway bigEndian h tb addr =
      .ok (selected bigEndian (loadNum bigEndian ((h.drop 16).take 1)) rtas addr) := by
  have slot {type : Nat} (inside : type ≤ rtaTable) :
      element tb type = .ok (lastOfType bigEndian rtas type) := by
    have within : type < max + 1 := by omega
    rw [element, dif_pos within, slots type within]
  have family := @readNum_inside bigEndian h 16 1 (by omega)
  have data {type : Nat} {rta : Text} (found : lastOfType bigEndian rtas type = some rta)
      (needed : type = rtaTable ∨ type = rtaGateway) : 4 ≤ (rtaData rta).length := by
    have typed : typeOf bigEndian rta = type :=
      of_decide_eq_true (List.mem_filter.mp (List.mem_of_getLast? found)).2
    have bound := long rta (lastOfType_mem found) (typed ▸ needed)
    rw [rtaData, List.length_drop]
    omega
  have other : otherTable bigEndian tb =
      .ok ((lastOfType bigEndian rtas rtaTable).any fun rta => tableOf bigEndian rta ≠ 254) := by
    rw [otherTable, slot (Nat.le_refl _), Checked.ok_bind]
    cases found : lastOfType bigEndian rtas rtaTable with
    | none => rfl
    | some rta =>
        have inside : 0 + 4 ≤ (rtaData rta).length := by
          have bound := data found (.inl rfl)
          omega
        simp only [readNum_inside inside, List.drop_zero]
        rfl
  unfold selectGateway
  rw [family, Checked.ok_bind, other, slot (by decide), slot (by decide), selected]
  split
  · rfl
  · rw [Checked.ok_bind]
    split
    · rfl
    · rw [Checked.ok_bind]
      cases lastOfType bigEndian rtas rtaDst with
      | some rta => rfl
      | none =>
          cases found : lastOfType bigEndian rtas rtaGateway with
          | none => rfl
          | some rta =>
              simp only [Checked.ok_bind, readAddr, if_pos (data found (.inr rfl))]
              rfl

end Select

/-! ## Any bytes -/

section Any

variable {bigEndian : Bool} {rtaMax : Nat}

/-- The filter needs five bytes behind a message: four for an attribute without a payload,
and one more for the message about a deficit. -/
theorem filterDefaultGw_safe (known : rtaTable ≤ rtaMax) :
    Safe bigEndian 5 (filterDefaultGw bigEndian rtaMax) := by
  intro sender h length addr counted header inside
  have small : length < 4294967296 := readNum_lt counted
  have type := @readNum_inside bigEndian h 4 2 (by omega)
  rw [filterDefaultGw, counted, nlmsgType, type]
  simp only [Checked.ok_bind]
  split
  · exact ⟨_, rfl⟩
  · split
    · exact ⟨_, rfl⟩
    · rename_i nonneg
      have dropped : (h.drop routeHeaderLength).length = h.length - 28 := List.length_drop
      obtain ⟨len, long⟩ : asInt ((length : Int) - routeHeaderLength) = ((length - 28 : Nat) : Int) ∧
          28 ≤ length := asInt_sub small (by decide) nonneg
      have within : asInt ((length : Int) - routeHeaderLength) ≤ (h.drop routeHeaderLength).length :=
        payload_inside small (by decide) (by omega)
      obtain ⟨rtas, rest, after, chain⟩ :=
        @Framing.exists_chain rtattr bigEndian (h.drop routeHeaderLength) _ within
      have whole : routeHeaderLength + 2 ≤ h.length := by
        have route : routeHeaderLength = 28 := rfl
        omega
      have behind : 2 ≤ rest.length := rest_inside small (by decide) inside whole chain
      have stays : ¬ (after ≠ 0 ∧ rest.length < 2) := fun overrun => Nat.not_lt.mpr behind overrun.2
      have wholeAttrs : ∀ rta ∈ rtas,
          typeOf bigEndian rta = rtaTable ∨ typeOf bigEndian rta = rtaGateway → 8 ≤ rta.length := by
        intro rta listed _
        obtain ⟨offset, rtaEq, -, complete, -, bounded⟩ := chain.pointer within listed
        have complete : 4 ≤ (rtattr.recordAt bigEndian rta).length := complete
        rw [rtaEq, List.length_drop, dropped]
        omega
      rw [parseRtattr_eq chain within, if_neg stays, Checked.ok_bind,
        selectGateway_eq known (by omega) (fun type inside => by
          rw [foldl_setByType_get _ _ inside, Vector.getElem_replicate, Option.or_none]) wholeAttrs]
      exact ⟨_, rfl⟩

/-- A dump of any bytes is read inside the buffer, if it has five bytes behind the datagrams. -/
theorem dumpFilter_gateway_returns (known : rtaTable ≤ rtaMax) (handle : Handle)
    (received : List Received) (buf : Text)
    (fits : ∀ sender bytes truncated, Received.datagram sender bytes truncated ∈ received →
      bytes.length + 5 ≤ buf.length) (addr : InAddr) :
    ∃ outcome, dumpFilter bigEndian handle (filterDefaultGw bigEndian rtaMax) none buf addr received =
      .ok outcome :=
  dumpFilter_returns (filterDefaultGw_safe known) (fun _ impossible => by cases impossible) received
    buf fits addr

/-- A route in the dump whose gateway, the last attribute, says it has four bytes more than the
message. -/
def cutRoute : Text :=
  [44, 0, 0, 0, 24, 0, 2, 0, 7, 0, 0, 0, 1, 0, 0, 0, 2, 0, 0, 0, 254, 4, 0, 1, 0, 0, 0, 0,
    8, 0, 4, 0, 2, 0, 0, 0, 12, 0, 5, 0, 10, 0, 0, 1]

theorem dumpFilter_gateway_returns_cut :
    ∃ outcome, dumpFilter false ⟨1, 7⟩ (filterDefaultGw false 50) none (List.replicate 64 0) .zero
      [.datagram 0 cutRoute false] = .ok outcome :=
  dumpFilter_gateway_returns (by decide) ⟨1, 7⟩ [.datagram 0 cutRoute false] (List.replicate 64 0)
    (fun sender bytes truncated listed => by
      cases List.mem_singleton.mp listed
      decide) .zero

end Any

/-! ## Messages of the kernel -/

section Routes

variable {bigEndian : Bool} {rtaMax : Nat}

/-- An attribute as the model over lists has it. -/
def decodeAttr (bigEndian : Bool) (rta : Text) : RtAttr :=
  if typeOf bigEndian rta = rtaTable then .table (Int32.ofNat (tableOf bigEndian rta))
  else if typeOf bigEndian rta = rtaDst then .dst
  else if typeOf bigEndian rta = rtaGateway then .gateway (addrOf (rtaData rta))
  else .other

/-- A message as the model over lists has it, with its attributes. -/
def decode (bigEndian : Bool) (bytes : Text) (rtas : List Text) : NlMessage where
  nlmsgType := UInt16.ofNat (loadNum bigEndian ((bytes.drop 4).take 2))
  nlmsgLen := bytes.length
  rtmFamily := bytes.getD 16 0
  rtmTable := bytes.getD 20 0
  attributes := rtas.map (decodeAttr bigEndian)

theorem filterMap_tableId (rtas : List Text) :
    (rtas.map (decodeAttr bigEndian)).filterMap RtAttr.tableId =
      (rtas.filter fun rta => typeOf bigEndian rta = rtaTable).map
        fun rta => Int32.ofNat (tableOf bigEndian rta) := by
  rw [List.filterMap_map, ← List.filterMap_eq_map', List.filterMap_filter]
  refine List.filterMap_congr fun rta _ => ?_
  rw [Function.comp_apply, decodeAttr]
  split_ifs <;> simp_all [RtAttr.tableId]

theorem filterMap_gatewayAddress (rtas : List Text) :
    (rtas.map (decodeAttr bigEndian)).filterMap RtAttr.gatewayAddress =
      (rtas.filter fun rta => typeOf bigEndian rta = rtaGateway).map
        fun rta => addrOf (rtaData rta) := by
  rw [List.filterMap_map, ← List.filterMap_eq_map', List.filterMap_filter]
  refine List.filterMap_congr fun rta _ => ?_
  rw [Function.comp_apply, decodeAttr]
  split_ifs <;> simp_all [RtAttr.gatewayAddress, rtaTable, rtaGateway, rtaDst]

theorem dst_mem (rtas : List Text) :
    RtAttr.dst ∈ rtas.map (decodeAttr bigEndian) ↔
      (lastOfType bigEndian rtas rtaDst).isSome = true := by
  have decoded (rta : Text) : decodeAttr bigEndian rta = .dst ↔ typeOf bigEndian rta = rtaDst := by
    rw [decodeAttr]
    split_ifs <;> simp_all [rtaTable, rtaDst]
  rw [List.mem_map, lastOfType, List.getLast?_isSome, ne_eq, List.filter_eq_nil_iff]
  constructor
  · rintro ⟨rta, listed, isDst⟩ none
    exact none rta listed (decide_eq_true ((decoded rta).mp isDst))
  · intro some
    by_contra none
    refine some fun rta listed typed => none ⟨rta, listed, ?_⟩
    exact (decoded rta).mpr (of_decide_eq_true typed)

theorem int32_eq_main {id : Nat} (small : id < 4294967296) :
    Int32.ofNat id = rtTableMain ↔ id = 254 := by
  constructor
  · intro same
    have numbers := congrArg (fun value : Int32 => value.toUInt32.toNat) same
    have left : (Int32.ofNat id).toUInt32.toNat = id := by
      simp
      omega
    have right : rtTableMain.toUInt32.toNat = 254 := by decide
    rw [← left, numbers, right]
  · rintro rfl
    rfl

theorem tableOf_lt (rta : Text) : tableOf bigEndian rta < 4294967296 := by
  have bound := loadNum_lt bigEndian ((rtaData rta).take 4)
  have length : ((rtaData rta).take 4).length ≤ 4 := List.length_take_le _ _
  have power : 256 ^ ((rtaData rta).take 4).length ≤ 256 ^ 4 := Nat.pow_le_pow_right (by decide) length
  exact Nat.lt_of_lt_of_le bound power

/-- The filter over lists selects the same address. -/
theorem filterDefaultGw_decode {bytes : Text} {rtas : List Text}
    (route : (decode bigEndian bytes rtas).IsRoute) (addr : InAddr) :
    Net.filterDefaultGw (decode bigEndian bytes rtas) addr =
      (0, selected bigEndian (bytes.getD 16 0).toNat rtas addr) := by
  obtain ⟨table, dst, gateway⟩ := parseRtattr_spec (rtas.map (decodeAttr bigEndian))
  rw [filterMap_tableId, List.getLast?_map] at table
  rw [filterMap_gatewayAddress, List.getLast?_map] at gateway
  rw [dst_mem] at dst
  have family : (decode bigEndian bytes rtas).rtmFamily = afInet ↔
      ¬ (bytes.getD 16 0).toNat ≠ afInet.toNat := by
    rw [ne_eq, not_not, UInt8.toNat_inj]
    rfl
  have main : ((Net.parseRtattr (rtas.map (decodeAttr bigEndian))).table = none ∨
      (Net.parseRtattr (rtas.map (decodeAttr bigEndian))).table = some rtTableMain) ↔
      ¬ ((lastOfType bigEndian rtas rtaTable).any fun rta => tableOf bigEndian rta ≠ 254) = true := by
    rw [table, lastOfType]
    cases (rtas.filter fun rta => typeOf bigEndian rta = rtaTable).getLast? with
    | none => simp
    | some rta => simp [int32_eq_main (tableOf_lt rta)]
  have noDst : (Net.parseRtattr (rtas.map (decodeAttr bigEndian))).dst = false ↔
      ¬ (lastOfType bigEndian rtas rtaDst).isSome = true := by
    rw [← dst, Bool.not_eq_true]
  have taken : (decode bigEndian bytes rtas).Taken ↔
      ¬ (bytes.getD 16 0).toNat ≠ afInet.toNat ∧
      ¬ ((lastOfType bigEndian rtas rtaTable).any fun rta => tableOf bigEndian rta ≠ 254) = true ∧
      ¬ (lastOfType bigEndian rtas rtaDst).isSome = true := by
    rw [← family, ← main, ← noDst]
    rfl
  have found : (Net.parseRtattr (decode bigEndian bytes rtas).attributes).gateway =
      (lastOfType bigEndian rtas rtaGateway).map fun rta => addrOf (rtaData rta) := gateway
  rw [NlMessage.filterDefaultGw_route route, NlMessage.takenGateway, found, selected]
  split_ifs with isTaken other otherTable dst
  all_goals simp_all

/-- The bytes of a route are its header and attributes, and an attribute of a table or a
gateway has its four bytes. -/
structure Carries (bigEndian : Bool) (bytes : Text) (rtas : List (Framing.Record rtattr bigEndian)) :
    Prop where
  attributes : bytes.drop routeHeaderLength = Framing.layout rtas
  payloads : ∀ rta ∈ rtas, typeOf bigEndian rta.bytes = rtaTable ∨
    typeOf bigEndian rta.bytes = rtaGateway → 8 ≤ rta.bytes.length

/-- The message is about a route, and not shorter than one. -/
def IsRouteMessage (bigEndian : Bool) (bytes : Text) : Prop :=
  (typeOfMessage bigEndian bytes = rtmNewroute.toNat ∨
    typeOfMessage bigEndian bytes = rtmDelroute.toNat) ∧ routeHeaderLength ≤ bytes.length

/-- A message of the kernel: if it is a route, it is made of attributes. -/
structure RouteMessage (bigEndian : Bool) where
  message : Framing.Record nlmsg bigEndian
  rtas : List (Framing.Record rtattr bigEndian)
  carries : IsRouteMessage bigEndian message.bytes → Carries bigEndian message.bytes rtas
  int : message.bytes.length < 2147483648

/-- The message as the model over lists has it. -/
def RouteMessage.decoded (route : RouteMessage bigEndian) : NlMessage :=
  decode bigEndian route.message.bytes (route.rtas.map Framing.Record.bytes)

theorem decodeAttr_append {rta : Text} (whole : 4 ≤ rta.length)
    (payload : typeOf bigEndian rta = rtaTable ∨ typeOf bigEndian rta = rtaGateway → 8 ≤ rta.length)
    (behind : Text) : decodeAttr bigEndian (rta ++ behind) = decodeAttr bigEndian rta := by
  rw [decodeAttr, decodeAttr, typeOf_append whole]
  have data := rtaData_append whole behind
  by_cases long : 8 ≤ rta.length
  · obtain ⟨first, second, third, fourth, rest, shape⟩ : ∃ first second third fourth rest,
        rtaData rta = first :: second :: third :: fourth :: rest := by
      have length : (rtaData rta).length = rta.length - 4 := List.length_drop
      match rtaData rta, length with
      | first :: second :: third :: fourth :: rest, _ => exact ⟨first, second, third, fourth, rest, rfl⟩
      | [], length => simp at length; omega
      | [_], length => simp at length; omega
      | [_, _], length => simp at length; omega
      | [_, _, _], length => simp at length; omega
    rw [tableOf, tableOf, data, shape]
    rfl
  · have noTable : typeOf bigEndian rta ≠ rtaTable := fun typed => long (payload (.inl typed))
    have noGateway : typeOf bigEndian rta ≠ rtaGateway := fun typed => long (payload (.inr typed))
    rw [if_neg noTable, if_neg noTable, if_neg noGateway, if_neg noGateway]

theorem map_decodeAttr_pointersOf {rtas : List (Framing.Record rtattr bigEndian)}
    (payloads : ∀ rta ∈ rtas, typeOf bigEndian rta.bytes = rtaTable ∨
      typeOf bigEndian rta.bytes = rtaGateway → 8 ≤ rta.bytes.length) (behind : Text) :
    (Framing.pointersOf rtas behind).map (decodeAttr bigEndian) =
      (rtas.map Framing.Record.bytes).map (decodeAttr bigEndian) := by
  induction rtas with
  | nil => rfl
  | cons rta rtas inductionHypothesis =>
      have whole : 4 ≤ rta.bytes.length := rta.complete
      rw [Framing.pointersOf, List.map_cons, List.map_cons, List.map_cons, Framing.layout_cons,
        List.append_assoc, decodeAttr_append whole (payloads rta (.head rtas)),
        inductionHypothesis fun rta later => payloads rta (.tail _ later)]

/-- The pointers have the attributes' four bytes behind their headers as well. -/
theorem pointersOf_long {rtas : List (Framing.Record rtattr bigEndian)}
    (payloads : ∀ rta ∈ rtas, typeOf bigEndian rta.bytes = rtaTable ∨
      typeOf bigEndian rta.bytes = rtaGateway → 8 ≤ rta.bytes.length) (behind : Text) :
    ∀ rta ∈ Framing.pointersOf rtas behind,
      typeOf bigEndian rta = rtaTable ∨ typeOf bigEndian rta = rtaGateway → 8 ≤ rta.length := by
  induction rtas with
  | nil => exact fun rta listed => by cases listed
  | cons first rtas inductionHypothesis =>
      intro rta listed typed
      have whole : 4 ≤ first.bytes.length := first.complete
      cases listed with
      | head =>
          rw [Framing.layout_cons, List.append_assoc, typeOf_append whole] at typed
          have long := payloads first (.head rtas) typed
          rw [Framing.layout_cons, List.append_assoc, List.length_append]
          omega
      | tail _ later =>
          exact inductionHypothesis (fun rta later => payloads rta (.tail _ later)) rta later typed

theorem isRoute_decoded (route : RouteMessage bigEndian) :
    route.decoded.IsRoute ↔ IsRouteMessage bigEndian route.message.bytes := by
  have complete : 16 ≤ route.message.bytes.length := route.message.complete
  have small : typeOfMessage bigEndian route.message.bytes < 65536 := by
    have bound := loadNum_lt bigEndian ((route.message.bytes.drop 4).take 2)
    have length : ((route.message.bytes.drop 4).take 2).length = 2 := by
      rw [List.length_take, List.length_drop]
      omega
    rwa [length] at bound
  have typed (type : UInt16) : UInt16.ofNat (typeOfMessage bigEndian route.message.bytes) = type ↔
      typeOfMessage bigEndian route.message.bytes = type.toNat := by
    rw [← UInt16.toNat_inj, UInt16.toNat_ofNat', Nat.mod_eq_of_lt small]
  exact and_congr_left' (or_congr (typed rtmNewroute) (typed rtmDelroute))

/-- The filter on the bytes of a message does what it does over lists. -/
theorem filterDefaultGw_message (known : rtaTable ≤ rtaMax) (route : RouteMessage bigEndian)
    (sender : Nat) (behind : Text) (addr : InAddr) :
    filterDefaultGw bigEndian rtaMax sender (route.message.bytes ++ behind) addr =
      .ok ((Net.filterDefaultGw route.decoded addr).1.toInt,
        (Net.filterDefaultGw route.decoded addr).2) := by
  have complete : 16 ≤ route.message.bytes.length := route.message.complete
  have int := route.int
  have len : nlmsgLen bigEndian (route.message.bytes ++ behind) = .ok route.message.bytes.length := by
    rw [← nlmsgLen_message route.message]
    exact readNum_message route.message behind (by decide)
  have type : nlmsgType bigEndian (route.message.bytes ++ behind) =
      .ok (typeOfMessage bigEndian route.message.bytes) := by
    have inside : 4 + 2 ≤ route.message.bytes.length := by omega
    have read := @readNum_message bigEndian route.message behind 4 2 (by decide)
    rw [nlmsgType, read, readNum_inside inside]
    rfl
  rw [filterDefaultGw, len, type]
  simp only [Checked.ok_bind]
  by_cases isRoute : IsRouteMessage bigEndian route.message.bytes
  · obtain ⟨attributes, payloads⟩ := route.carries isRoute
    obtain ⟨typed, header⟩ := isRoute
    have long : 28 ≤ route.message.bytes.length := header
    have known' : ¬ (typeOfMessage bigEndian route.message.bytes ≠ rtmNewroute.toNat ∧
        typeOfMessage bigEndian route.message.bytes ≠ rtmDelroute.toNat) := by
      rintro ⟨notNew, notDel⟩
      exact typed.elim notNew notDel
    have total : (Framing.layout route.rtas).length = route.message.bytes.length - 28 := by
      rw [← attributes, List.length_drop]
      rfl
    have left : asInt ((route.message.bytes.length : Int) - routeHeaderLength) =
        (Framing.layout route.rtas).length := by
      have header : ((routeHeaderLength : Nat) : Int) = 28 := rfl
      rw [total, asInt_eq (by omega) (by omega)]
      omega
    have memory : (route.message.bytes ++ behind).drop routeHeaderLength =
        Framing.layout route.rtas ++ behind := by
      rw [List.drop_append_of_le_length header, attributes]
    obtain ⟨tb, parsed, slots⟩ := @parseRtattr_layout bigEndian route.rtas behind rtaMax
    have family : loadNum bigEndian (((route.message.bytes ++ behind).drop 16).take 1) =
        (route.message.bytes.getD 16 0).toNat := by
      have inside : 16 < route.message.bytes.length := by omega
      have before : 16 < (route.message.bytes ++ behind).length := by
        rw [List.length_append]
        omega
      rw [List.drop_eq_getElem_cons before, List.take_succ_cons, List.take_zero, loadNum_singleton,
        List.getElem_append_left inside, List.getD_eq_getElem?_getD, List.getElem?_eq_getElem inside,
        Option.getD_some]
    have decoded : route.decoded =
        decode bigEndian route.message.bytes (Framing.pointersOf route.rtas behind) := by
      rw [RouteMessage.decoded, decode, decode, map_decodeAttr_pointersOf payloads]
    have isRouteDecoded := (isRoute_decoded route).mpr ⟨typed, long⟩
    rw [decoded] at isRouteDecoded
    have nonneg : ¬ ((Framing.layout route.rtas).length : Int) < 0 := by omega
    rw [if_neg known', left, if_neg nonneg, memory, parsed, Checked.ok_bind,
      selectGateway_eq known (by rw [List.length_append]; omega) slots (pointersOf_long payloads behind),
      family, decoded, filterDefaultGw_decode isRouteDecoded]
    rfl
  · rw [NlMessage.filterDefaultGw_not_route (mt (isRoute_decoded route).mp isRoute)]
    split
    · rfl
    · rename_i typed
      have short : route.message.bytes.length < 28 := by
        by_contra long
        refine isRoute ⟨?_, Nat.not_lt.mp long⟩
        by_contra neither
        exact typed (not_or.mp neither)
      have negative : asInt ((route.message.bytes.length : Int) - routeHeaderLength) < 0 := by
        have header : ((routeHeaderLength : Nat) : Int) = 28 := rfl
        rw [asInt_eq (by omega) (by omega)]
        omega
      rw [if_pos negative]
      rfl

theorem filterDefaultGw_local (known : rtaTable ≤ rtaMax) (route : RouteMessage bigEndian)
    (sender : Nat) : LocalAt (filterDefaultGw bigEndian rtaMax) sender route.message := by
  intro behind addr
  have alone := filterDefaultGw_message known route sender [] addr
  rw [List.append_nil] at alone
  rw [filterDefaultGw_message known route sender behind addr, alone]

/-- The loop over the messages of a dump does what the loop over lists does. -/
theorem visitAll_routes (known : rtaTable ≤ rtaMax) (routes : List (RouteMessage bigEndian))
    (complete : Bool) (addr : InAddr) :
    atEnd complete <$> visitAll (fun addr (route : RouteMessage bigEndian) =>
        afterFilter <$> filterDefaultGw bigEndian rtaMax 0 route.message.bytes addr) addr routes =
      .ok (.returned (Net.rtnlDumpFilter complete (routes.map RouteMessage.decoded) addr).1.toInt
        (Net.rtnlDumpFilter complete (routes.map RouteMessage.decoded) addr).2) := by
  induction routes generalizing addr with
  | nil => cases complete <;> rfl
  | cons route routes inductionHypothesis =>
      have filtered := filterDefaultGw_message known route 0 [] addr
      rw [List.append_nil] at filtered
      have signs : (Net.filterDefaultGw route.decoded addr).1 < 0 ↔
          (Net.filterDefaultGw route.decoded addr).1.toInt < 0 := Int32.lt_iff_toInt_lt
      rw [visitAll_filtered filtered, List.map_cons, rtnlDumpFilter]
      by_cases failed : (Net.filterDefaultGw route.decoded addr).1 < 0
      · simp only [if_pos failed, if_pos (signs.mp failed)]
        rfl
      · simp only [if_neg failed, if_neg (mt signs.mpr failed)]
        exact inductionHypothesis _

/-- A dump of messages of the kernel that ends is read as the model over lists reads it,
however its messages are spread over datagrams that are no longer than the buffer. -/
theorem dumpFilter_gateway (known : rtaTable ≤ rtaMax) (handle : Handle) {buf : Text}
    (size : buf.length = dumpBuffer) (routes : List (Nat × RouteMessage bigEndian))
    (arrivals : List (Arrival bigEndian)) (fits : ∀ arrival ∈ arrivals, arrival.Fits dumpBuffer)
    (arrive : arrivals.flatMap Arrival.senders = routes.map fun sent => (sent.1, sent.2.message))
    {complete : Bool} (ends : (dumped RouteMessage.message handle routes).2 = some complete)
    (addr : InAddr) :
    dumpFilter bigEndian handle (filterDefaultGw bigEndian rtaMax) none buf addr
        (arrivals.map Arrival.received) =
      .ok (.returned
        (Net.rtnlDumpFilter complete
          ((dumped RouteMessage.message handle routes).1.map RouteMessage.decoded) addr).1.toInt
        (Net.rtnlDumpFilter complete
          ((dumped RouteMessage.message handle routes).1.map RouteMessage.decoded) addr).2) := by
  have filterLocal : ∀ sent ∈ arrivals.flatMap Arrival.senders,
      LocalAt (filterDefaultGw bigEndian rtaMax) sent.1 sent.2 := by
    intro sent listed
    rw [arrive] at listed
    obtain ⟨route, -, rfl⟩ := List.mem_map.mp listed
    exact filterDefaultGw_local known route.2 route.1
  rw [dumpFilter_messages buf addr arrivals (size.symm ▸ fits) filterLocal
      (fun _ impossible => by cases impossible),
    arrive, dumpMessages_dumped RouteMessage.message ends addr, visitAll_routes known]

/-- A default route over a gateway. -/
def gatewayRoute : RouteMessage false where
  message :=
    { bytes := [36, 0, 0, 0, 24, 0, 2, 0, 7, 0, 0, 0, 1, 0, 0, 0, 2, 0, 0, 0, 254, 4, 0, 1, 0, 0, 0, 0,
        8, 0, 5, 0, 10, 0, 0, 1]
      padding := []
      complete := by decide
      counted := by decide
      padded := by decide }
  rtas :=
    [{ bytes := [8, 0, 5, 0, 10, 0, 0, 1]
       padding := []
       complete := by decide
       counted := by decide
       padded := by decide }]
  carries := fun _ => ⟨by decide, forall_mem_of_all (by decide)⟩
  int := by decide

/-- The end of the dump, as a message that is no route. -/
def endOfRoutes : RouteMessage false where
  message := doneMessage
  rtas := []
  carries := fun isRoute => absurd isRoute.2 (by decide)
  int := doneMessage_int

/-- The route and the end of the dump, each in a datagram. -/
theorem dumpFilter_gateway_route :
    dumpFilter false ⟨1, 7⟩ (filterDefaultGw false 50) none (List.replicate dumpBuffer 0) .zero
        ([.messages 0 [gatewayRoute.message] (by decide), .messages 0 [doneMessage] (by decide)].map
          Arrival.received) = .ok (.returned 0 ⟨10, 0, 0, 1⟩) :=
  (@dumpFilter_gateway false 50 (by decide) ⟨1, 7⟩ _ List.length_replicate
    [(0, gatewayRoute), (0, endOfRoutes)]
    [.messages 0 [gatewayRoute.message] (by decide), .messages 0 [doneMessage] (by decide)]
    (forall_mem_of_all (by decide)) rfl true (by decide) .zero).trans rfl

end Routes

end Libamg.Netlink
