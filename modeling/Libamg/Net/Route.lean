import Libamg.Net.Address

/-!
# The gateway in a dump of the routes

`libamg_get_default_gw_ipaddr` of `if.c`. libnetlink and the kernel stand behind a
`RouteDump`: where it fails, and which messages it hands to the filter.
`rtnlDumpFilter_address` is the address that a dump leaves, and `status_nonneg` the status
of nearly all of them.
-/

namespace Libamg.Net

open C

def afInet : Byte := 2
def rtTableMain : Int32 := 254
def rtmNewroute : UInt16 := 24
def rtmDelroute : UInt16 := 25

/-- `NLMSG_LENGTH(sizeof(struct rtmsg))`. -/
def routeHeaderLength : Nat := 28

/-- An attribute of a route with its payload. -/
inductive RtAttr where
  | table (id : Int32)
  | dst
  | gateway (address : InAddr)
  | other

/-- The slots of `tb` that the filter looks at. -/
structure RtAttrs where
  table : Option Int32
  dst : Bool
  gateway : Option InAddr

/-- Store an attribute in its slot, over one of the same type. -/
def RtAttrs.store (tb : RtAttrs) : RtAttr → RtAttrs
  | .table id => { tb with table := some id }
  | .dst => { tb with dst := true }
  | .gateway address => { tb with gateway := some address }
  | .other => tb

/-- `parse_rtattr`. -/
def parseRtattr (attributes : List RtAttr) : RtAttrs :=
  attributes.foldl RtAttrs.store { table := none, dst := false, gateway := none }

/-- A netlink message, read as a route. -/
structure NlMessage where
  nlmsgType : UInt16
  nlmsgLen : Nat
  rtmFamily : Byte
  rtmTable : Byte
  attributes : List RtAttr

/-- `_filter_default_gw`: the returned status and the address afterwards. -/
def filterDefaultGw (message : NlMessage) (addr : InAddr) : Int32 × InAddr :=
  if message.nlmsgType ≠ rtmNewroute ∧ message.nlmsgType ≠ rtmDelroute then (-1, addr)
  else if message.nlmsgLen < routeHeaderLength then (-1, addr)
  else
    let tb := parseRtattr message.attributes
    if message.rtmFamily ≠ afInet then (0, addr)
    else if tb.table ≠ none ∧ tb.table ≠ some rtTableMain then (0, addr)
    else if tb.dst then (0, addr)
    else (0, tb.gateway.getD addr)

/-- A value of `errno`, which is never negative. -/
abbrev Errno := { errno : Int32 // 0 ≤ errno }

/-- What comes of asking the kernel for its routes. `errno` is the value it has when
`libamg_get_default_gw_ipaddr` returns it. -/
inductive RouteDump where
  | openFails
  | requestFails (errno : Errno)
  /-- The messages that arrive, and whether the end of the dump does. -/
  | replies (messages : List NlMessage) (complete : Bool) (errno : Errno)

/-- `rtnl_dump_filter` with the filter for the default gateway. -/
def rtnlDumpFilter (complete : Bool) : List NlMessage → InAddr → Int32 × InAddr
  | [], addr => (if complete then 0 else -1, addr)
  | message :: messages, addr =>
      let (status, addr) := filterDefaultGw message addr
      if status < 0 then (status, addr) else rtnlDumpFilter complete messages addr

/-- `libamg_get_default_gw_ipaddr`: the returned status and the address afterwards. -/
def getDefaultGwIpaddr : RouteDump → Int32 × InAddr
  | .openFails => (-1, .zero)
  | .requestFails errno => (errno, .zero)
  | .replies messages complete errno =>
      let (status, ip) := rtnlDumpFilter complete messages .zero
      if status < 0 then (errno, ip) else (0, ip)

/-! ## Routes -/

namespace NlMessage

/-- The message is about a route, of the length that such a message has at least. -/
def IsRoute (message : NlMessage) : Prop :=
  (message.nlmsgType = rtmNewroute ∨ message.nlmsgType = rtmDelroute) ∧
    routeHeaderLength ≤ message.nlmsgLen

instance (message : NlMessage) : Decidable message.IsRoute :=
  inferInstanceAs (Decidable ((_ ∨ _) ∧ _))

/-- The table of a route: `rtm_table`, unless an attribute takes its place. -/
def table (message : NlMessage) : Int32 :=
  (parseRtattr message.attributes).table.getD (Int32.ofNat message.rtmTable.toNat)

/-- An IPv4 default route of the main table. -/
def IsDefaultRoute (message : NlMessage) : Prop :=
  message.nlmsgType = rtmNewroute ∧ message.rtmFamily = afInet ∧ message.table = rtTableMain ∧
    (parseRtattr message.attributes).dst = false

/-- The filter takes the message for one: of the table it looks at the attribute only, and
a route that is deleted is as good as a new one. -/
def Taken (message : NlMessage) : Prop :=
  message.rtmFamily = afInet ∧
    ((parseRtattr message.attributes).table = none ∨
      (parseRtattr message.attributes).table = some rtTableMain) ∧
    (parseRtattr message.attributes).dst = false

instance (message : NlMessage) : Decidable message.IsDefaultRoute :=
  inferInstanceAs (Decidable (_ ∧ _ ∧ _ ∧ _))

instance (message : NlMessage) : Decidable message.Taken :=
  inferInstanceAs (Decidable (_ ∧ _ ∧ _))

/-- The gateway of a route that is taken. -/
def takenGateway (message : NlMessage) : Option InAddr :=
  if message.Taken then (parseRtattr message.attributes).gateway else none

/-- The gateway of a default route. -/
def defaultGateway (message : NlMessage) : Option InAddr :=
  if message.IsDefaultRoute then (parseRtattr message.attributes).gateway else none

theorem filterDefaultGw_route {message : NlMessage} (route : message.IsRoute) (addr : InAddr) :
    filterDefaultGw message addr = (0, message.takenGateway.getD addr) := by
  have known : ¬ (message.nlmsgType ≠ rtmNewroute ∧ message.nlmsgType ≠ rtmDelroute) := by
    rintro ⟨notNew, notDel⟩
    exact route.1.elim notNew notDel
  have long : ¬ message.nlmsgLen < routeHeaderLength := Nat.not_lt.mpr route.2
  rw [filterDefaultGw, if_neg known, if_neg long, takenGateway]
  by_cases family : message.rtmFamily = afInet
  · rw [if_neg (not_not.mpr family)]
    by_cases foreign : (parseRtattr message.attributes).table ≠ none ∧
        (parseRtattr message.attributes).table ≠ some rtTableMain
    · have skipped : ¬ message.Taken := fun taken => taken.2.1.elim foreign.1 foreign.2
      rw [if_pos foreign, if_neg skipped]
      rfl
    · have main : (parseRtattr message.attributes).table = none ∨
          (parseRtattr message.attributes).table = some rtTableMain := by
        by_contra neither
        exact foreign (not_or.mp neither)
      rw [if_neg foreign]
      by_cases dst : (parseRtattr message.attributes).dst = true
      · have skipped : ¬ message.Taken := fun taken => Bool.noConfusion (taken.2.2.symm.trans dst)
        rw [if_pos dst, if_neg skipped]
        rfl
      · have taken : message.Taken := ⟨family, main, Bool.not_eq_true _ ▸ dst⟩
        rw [if_neg dst, if_pos taken]
  · have skipped : ¬ message.Taken := fun taken => family taken.1
    rw [if_pos family, if_neg skipped]
    rfl

theorem filterDefaultGw_not_route {message : NlMessage} (other : ¬ message.IsRoute)
    (addr : InAddr) : filterDefaultGw message addr = (-1, addr) := by
  unfold filterDefaultGw
  split
  · rfl
  · rename_i known
    split
    · rfl
    · rename_i long
      refine absurd ⟨?_, Nat.not_lt.mp long⟩ other
      by_contra neither
      exact known (not_or.mp neither)

end NlMessage

/-! ## Dumps -/

/-- The gateways of the routes that the filter takes. -/
def takenGateways (messages : List NlMessage) : List InAddr :=
  messages.filterMap NlMessage.takenGateway

/-- The gateways of the IPv4 default routes of the main table. -/
def defaultGateways (messages : List NlMessage) : List InAddr :=
  messages.filterMap NlMessage.defaultGateway

theorem notFailed : ¬ (0 : Int32) < 0 := by decide

/-- The last gateway stays. -/
theorem rtnlDumpFilter_routes (complete : Bool) {messages : List NlMessage}
    (routes : ∀ message ∈ messages, message.IsRoute) (addr : InAddr) :
    rtnlDumpFilter complete messages addr =
      (if complete then 0 else -1, (takenGateways messages).getLastD addr) := by
  induction messages generalizing addr with
  | nil => rfl
  | cons message messages inductionHypothesis =>
      obtain ⟨route, others⟩ := List.forall_mem_cons.mp routes
      rw [rtnlDumpFilter, NlMessage.filterDefaultGw_route route]
      simp only [if_neg notFailed, inductionHypothesis others]
      cases taken : message.takenGateway with
      | none => rw [takenGateways, takenGateways, List.filterMap_cons_none taken, Option.getD_none]
      | some gateway =>
          rw [takenGateways, takenGateways, List.filterMap_cons_some taken, Option.getD_some,
            List.getLastD_cons]

/-- A message that is no route ends the dump in an error. -/
theorem rtnlDumpFilter_not_routes (complete : Bool) {messages : List NlMessage}
    (others : ¬ ∀ message ∈ messages, message.IsRoute) (addr : InAddr) :
    (rtnlDumpFilter complete messages addr).1 = -1 := by
  induction messages generalizing addr with
  | nil => exact absurd (fun _ impossible => by cases impossible) others
  | cons message messages inductionHypothesis =>
      rw [rtnlDumpFilter]
      by_cases route : message.IsRoute
      · have later : ¬ ∀ message ∈ messages, message.IsRoute :=
          fun all => others (List.forall_mem_cons.mpr ⟨route, all⟩)
        rw [NlMessage.filterDefaultGw_route route]
        simp only [if_neg notFailed]
        exact inductionHypothesis later _
      · have failed : (-1 : Int32) < 0 := by decide
        rw [NlMessage.filterDefaultGw_not_route route]
        simp only [if_pos failed]

/-- Whatever becomes of the dump, the last gateway before the first message that is no
route stays. -/
theorem rtnlDumpFilter_address (complete : Bool) (messages : List NlMessage) (addr : InAddr) :
    (rtnlDumpFilter complete messages addr).2 =
      (takenGateways (messages.takeWhile (·.IsRoute))).getLastD addr := by
  induction messages generalizing addr with
  | nil => rfl
  | cons message messages inductionHypothesis =>
      rw [rtnlDumpFilter]
      by_cases route : message.IsRoute
      · have kept : (message :: messages).takeWhile (·.IsRoute) =
            message :: messages.takeWhile (·.IsRoute) :=
          List.takeWhile_cons_of_pos (decide_eq_true route)
        rw [NlMessage.filterDefaultGw_route route, kept]
        simp only [if_neg notFailed, inductionHypothesis]
        cases taken : message.takenGateway with
        | none => rw [takenGateways, takenGateways, List.filterMap_cons_none taken, Option.getD_none]
        | some gateway =>
            rw [takenGateways, takenGateways, List.filterMap_cons_some taken, Option.getD_some,
              List.getLastD_cons]
      · have failed : (-1 : Int32) < 0 := by decide
        have stops : (message :: messages).takeWhile (·.IsRoute) = [] :=
          List.takeWhile_cons_of_neg fun holds => route (of_decide_eq_true holds)
        rw [NlMessage.filterDefaultGw_not_route route, stops]
        simp only [if_pos failed]
        rfl

/-- The socket is opened, the request sent, and messages about routes arrive up to the end
of the dump. -/
def RouteDump.Lists (dump : RouteDump) (messages : List NlMessage) : Prop :=
  (∃ errno, dump = .replies messages true errno) ∧ ∀ message ∈ messages, message.IsRoute

/-- These are the dumps that `rtnl_dump_filter` reports as a success. -/
theorem RouteDump.lists_iff (messages : List NlMessage) (complete : Bool) (errno : Errno) :
    (RouteDump.replies messages complete errno).Lists messages ↔
      (rtnlDumpFilter complete messages .zero).1 = 0 := by
  by_cases routes : ∀ message ∈ messages, message.IsRoute
  · rw [rtnlDumpFilter_routes complete routes]
    cases complete with
    | false =>
        have failed : (-1 : Int32) ≠ 0 := by decide
        exact iff_of_false (fun ⟨⟨_, impossible⟩, _⟩ => by cases impossible) failed
    | true => exact iff_of_true ⟨⟨errno, rfl⟩, routes⟩ rfl
  · rw [rtnlDumpFilter_not_routes complete routes]
    exact iff_of_false (fun lists => routes lists.2) (by decide)

/-- Of all the ways to fail, only a socket that is not opened gives a negative status. -/
theorem status_nonneg {dump : RouteDump} (opened : dump ≠ .openFails) :
    0 ≤ (getDefaultGwIpaddr dump).1 := by
  cases dump with
  | openFails => exact absurd rfl opened
  | requestFails errno => exact errno.2
  | replies messages complete errno =>
      rw [getDefaultGwIpaddr]
      by_cases negative : (rtnlDumpFilter complete messages .zero).1 < 0
      · simp only [if_pos negative]
        exact errno.2
      · simp only [if_neg negative]
        decide

end Libamg.Net
