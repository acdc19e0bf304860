import Libamg.C.Memory

/-!
# Addresses of an interface

`libamg_get_interface_ipv6_addr` looks through the list of `getifaddrs` for a record of
28 bytes, and copies it through a `struct sockaddr`, which has 16. The address begins at
the byte 8 of the record, so the last eight bytes of it are what was on the stack.
-/

namespace Libamg.Net

open C

def afInet6 : UInt16 := 10

/-- A socket address of some family: `sa_family`, which takes two bytes, and the bytes
behind it. There are 14 of them in every family and 26 in a `struct sockaddr_in6`. -/
structure SockAddr where
  family : UInt16
  data : Text
  whole : (if family = afInet6 then 26 else 14) ≤ data.length

/-- An entry of the list; `addr` is `none` for a NULL `ifa_addr`. -/
structure IfAddrs where
  name : Text
  addr : Option SockAddr

/-- `struct sockaddr_in6`: the family and the bytes behind it. -/
structure SockAddrIn6 where
  family : UInt16
  data : CharArray 26

/-- `sin6_addr`, behind the family, the port and the flow information. -/
def sin6Addr (data : Text) : Text := (data.drop 6).take 16

theorem sin6Addr_length {data : Text} (whole : 26 ≤ data.length) : (sin6Addr data).length = 16 := by
  rw [sin6Addr, List.length_take, List.length_drop]
  omega

/-- `saddr.sin6_addr`. -/
def SockAddrIn6.addr (saddr : SockAddrIn6) : CharArray 16 :=
  ⟨sin6Addr saddr.data.bytes, sin6Addr_length (Nat.le_of_eq saddr.data.size_eq.symm)⟩

/-- `memcpy(addr, ifa->ifa_addr, sizeof(struct sockaddr))`: the family and 14 bytes. -/
def SockAddrIn6.copy (saddr : SockAddrIn6) (source : SockAddr) : SockAddrIn6 where
  family := source.family
  data := saddr.data.overwrite (source.data.take 14)

/-- `_do_getifaddrs` on the list that it gets: the returned status and `*addr` afterwards. -/
def doGetifaddrs (iface : Text) (family : UInt16) :
    List IfAddrs → SockAddrIn6 → Checked (Int32 × SockAddrIn6)
  | [], addr => .ok (-1, addr)
  | ifa :: list, addr =>
      if ifa.name ≠ iface then doGetifaddrs iface family list addr
      else
        match ifa.addr with
        | none => .error .nullPointer
        | some source =>
            if source.family ≠ family then doGetifaddrs iface family list addr
            else .ok (0, addr.copy source)

/-- `libamg_get_interface_ipv6_addr`: the returned status and `*addr` afterwards. `saddr`
is what the stack holds in the place of the variable, which is not initialised. -/
def getInterfaceIpv6Addr (list : List IfAddrs) (iface : Text) (saddr : SockAddrIn6) :
    Checked (Int32 × CharArray 16) := do
  let addr := CharArray.zero 16
  let (status, saddr) ← doGetifaddrs iface afInet6 list saddr
  if status < 0 then return (-1, addr)
  return (0, saddr.addr)

/-! ## What is looked for -/

/-- The address of an entry, if it is one of the interface and of the family. -/
def IfAddrs.addressOf (iface : Text) (family : UInt16) (ifa : IfAddrs) : Option SockAddr :=
  if ifa.name = iface then ifa.addr.filter (·.family = family) else none

/-- The addresses of an interface that are of a family, in the order of the list. -/
def addressesOf (iface : Text) (family : UInt16) (list : List IfAddrs) : List SockAddr :=
  list.filterMap (·.addressOf iface family)

/-- Every entry has an address. -/
def AllAddressed (list : List IfAddrs) : Prop := ∀ ifa ∈ list, ifa.addr ≠ none

/-- The first address that is looked for is stored, or there is none, the status is -1 and
the result is zero. -/
def StoresFirst (iface : Text) (list : List IfAddrs) (result : Checked (Int32 × CharArray 16)) :
    Prop :=
  match (addressesOf iface afInet6 list).head? with
  | none => result = .ok (-1, .zero 16)
  | some source => ∃ addr, result = .ok (0, addr) ∧ addr.bytes = sin6Addr source.data

/-- The stack holds the end of the first address, if there is one. -/
def StackAgrees (iface : Text) (list : List IfAddrs) (saddr : SockAddrIn6) : Prop :=
  ∀ source ∈ (addressesOf iface afInet6 list).head?,
    saddr.addr.bytes.drop 8 = (sin6Addr source.data).drop 8

theorem doGetifaddrs_cons (iface : Text) (family : UInt16) {ifa : IfAddrs} (list : List IfAddrs)
    (saddr : SockAddrIn6) (addressed : ifa.addr ≠ none) :
    doGetifaddrs iface family (ifa :: list) saddr =
      match ifa.addressOf iface family with
      | none => doGetifaddrs iface family list saddr
      | some source => .ok (0, saddr.copy source) := by
  obtain ⟨source, known⟩ := Option.ne_none_iff_exists'.mp addressed
  rw [doGetifaddrs, IfAddrs.addressOf, known, Option.filter_some]
  by_cases named : ifa.name = iface
  · by_cases matching : source.family = family
    · simp only [named, matching, ne_eq, not_true_eq_false, decide_true, if_true, if_false]
    · simp only [named, matching, ne_eq, not_true_eq_false, not_false_eq_true, decide_false,
        Bool.false_eq_true, if_true, if_false]
  · simp only [named, ne_eq, not_false_eq_true, if_true, if_false]

/-- The search finds the first address. -/
theorem doGetifaddrs_eq (iface : Text) (family : UInt16) {list : List IfAddrs} (saddr : SockAddrIn6)
    (addressed : AllAddressed list) :
    doGetifaddrs iface family list saddr =
      match (addressesOf iface family list).head? with
      | none => .ok (-1, saddr)
      | some source => .ok (0, saddr.copy source) := by
  induction list with
  | nil => rfl
  | cons ifa list inductionHypothesis =>
      have rest := inductionHypothesis fun other member => addressed other (List.mem_cons_of_mem _ member)
      rw [doGetifaddrs_cons iface family list saddr (addressed ifa List.mem_cons_self), addressesOf]
      cases found : ifa.addressOf iface family with
      | none =>
          rw [List.filterMap_cons_none found]
          exact rest
      | some source => rw [List.filterMap_cons_some found, List.head?_cons]

/-! ## What is copied -/

/-- The first half of the address comes from the list, the second one from the stack. -/
theorem copy_addr (saddr : SockAddrIn6) (source : SockAddr) :
    (saddr.copy source).addr.bytes =
      (sin6Addr source.data).take 8 ++ saddr.addr.bytes.drop 8 := by
  have short : 14 ≤ source.data.length := by
    refine Nat.le_trans ?_ source.whole
    split <;> decide
  have copied : (source.data.take 14).length = 14 := List.length_take_of_le short
  have whole : (saddr.data.overwrite (source.data.take 14)).bytes =
      source.data.take 14 ++ saddr.data.bytes.drop 14 := by
    rw [CharArray.overwrite_bytes (by omega), copied]
  have front : ((source.data.take 14).drop 6).length = 8 := by rw [List.length_drop, copied]
  calc (saddr.copy source).addr.bytes
      = ((source.data.take 14 ++ saddr.data.bytes.drop 14).drop 6).take 16 :=
        congrArg sin6Addr whole
    _ = ((source.data.take 14).drop 6 ++ saddr.data.bytes.drop 14).take 16 := by
        rw [List.drop_append_of_le_length (by omega)]
    _ = (source.data.take 14).drop 6 ++ (saddr.data.bytes.drop 14).take 8 := by
        rw [List.take_append, front, List.take_of_length_le (by omega)]
    _ = (sin6Addr source.data).take 8 ++ (sin6Addr saddr.data.bytes).drop 8 := by
        rw [sin6Addr, sin6Addr, List.drop_take, List.take_take, List.drop_take, List.drop_drop]
        rfl

theorem getInterfaceIpv6Addr_eq (iface : Text) {list : List IfAddrs} (saddr : SockAddrIn6)
    (addressed : AllAddressed list) :
    getInterfaceIpv6Addr list iface saddr =
      match (addressesOf iface afInet6 list).head? with
      | none => .ok (-1, .zero 16)
      | some source => .ok (0, (saddr.copy source).addr) := by
  rw [getInterfaceIpv6Addr, doGetifaddrs_eq iface afInet6 saddr addressed]
  cases (addressesOf iface afInet6 list).head? <;> rfl

/-- The address is stored exactly if the stack happens to hold its end. -/
theorem storesFirst_iff (iface : Text) {list : List IfAddrs} (saddr : SockAddrIn6)
    (addressed : AllAddressed list) :
    StoresFirst iface list (getInterfaceIpv6Addr list iface saddr) ↔
      StackAgrees iface list saddr := by
  rw [StoresFirst, StackAgrees, getInterfaceIpv6Addr_eq iface saddr addressed]
  cases (addressesOf iface afInet6 list).head? with
  | none => simp
  | some source =>
      have cut := copy_addr saddr source
      have parts := List.take_append_drop 8 (sin6Addr source.data)
      simp only [Option.mem_some_iff, forall_eq']
      constructor
      · rintro ⟨addr, returned, stored⟩
        cases returned
        exact List.append_cancel_left (cut.symm.trans (stored.trans parts.symm))
      · intro agrees
        exact ⟨_, rfl, by rw [cut, agrees, parts]⟩

/-- A loopback address between one of another family and one of another interface. -/
def loopback : List IfAddrs :=
  [⟨lit "lo", some ⟨2, [0, 0, 127, 0, 0, 1, 0, 0, 0, 0, 0, 0, 0, 0], by decide⟩⟩,
    ⟨lit "lo", some ⟨10, List.replicate 21 0 ++ [1, 0, 0, 0, 0], by decide⟩⟩,
    ⟨lit "eth0", some ⟨10, List.replicate 26 0, by decide⟩⟩]

theorem storesFirst_iff_witness :
    StoresFirst (lit "lo") loopback
        (getInterfaceIpv6Addr loopback (lit "lo") ⟨0, .zero 26⟩) ↔
      StackAgrees (lit "lo") loopback ⟨0, .zero 26⟩ :=
  storesFirst_iff (lit "lo") ⟨0, .zero 26⟩ (by simp [AllAddressed, loopback])

/-- With a cleared stack the address of the loopback interface, which ends in a one, comes
out as zero. -/
theorem loopback_truncated :
    ¬ StoresFirst (lit "lo") loopback
      (getInterfaceIpv6Addr loopback (lit "lo") ⟨0, .zero 26⟩) := by
  rintro ⟨addr, returned, stored⟩
  have zero : getInterfaceIpv6Addr loopback (lit "lo") ⟨0, .zero 26⟩ = .ok (0, .zero 16) := rfl
  rw [zero] at returned
  cases returned
  exact absurd stored (by decide)

end Libamg.Net
