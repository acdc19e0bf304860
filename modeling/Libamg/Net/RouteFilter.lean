import Libamg.Net.Route

/-!
# The route filter

`_filter_default_gw` folded over the messages of a dump, in terms of the attributes that
a message carries: the gateway of the last default route stays. `RouteDump.asks_iff` is
what `libamg_get_default_gw_ipaddr` leaves in its argument, in the same terms.
-/

namespace Libamg.Net

/-- The identifier in a table attribute. -/
def RtAttr.tableId : RtAttr → Option Int32
  | .table id => some id
  | _ => none

/-- The address in a gateway attribute. -/
def RtAttr.gatewayAddress : RtAttr → Option InAddr
  | .gateway address => some address
  | _ => none

/-- Applying what the items give, one after the other, leaves what the last one gives. -/
theorem foldl_getD {α β : Type} (items : List α) (gives : α → Option β) (state : β) :
    items.foldl (fun state item => (gives item).getD state) state =
      (items.filterMap gives).getLastD state := by
  induction items generalizing state with
  | nil => rfl
  | cons item items inductionHypothesis =>
      rw [List.foldl_cons, inductionHypothesis]
      cases given : gives item with
      | none => rw [List.filterMap_cons_none given, Option.getD_none]
      | some value =>
          rw [List.filterMap_cons_some given, Option.getD_some, List.getLastD_cons]

/-- A slot of `tb` holds the last attribute of its type, if there is one. -/
theorem parseRtattr_spec (attributes : List RtAttr) :
    (parseRtattr attributes).table = (attributes.filterMap RtAttr.tableId).getLast? ∧
      ((parseRtattr attributes).dst = true ↔ RtAttr.dst ∈ attributes) ∧
      (parseRtattr attributes).gateway = (attributes.filterMap RtAttr.gatewayAddress).getLast? := by
  rw [parseRtattr]
  induction attributes using List.reverseRecOn with
  | nil => exact ⟨rfl, by simp, rfl⟩
  | append_singleton attributes last inductionHypothesis =>
      obtain ⟨table, dst, gateway⟩ := inductionHypothesis
      rw [List.foldl_append, List.foldl_cons, List.foldl_nil, List.filterMap_append,
        List.filterMap_append, List.mem_append, List.mem_singleton]
      cases last with
      | table id => exact ⟨by simp [RtAttrs.store, RtAttr.tableId], by simpa [RtAttrs.store] using dst,
          by simpa [RtAttrs.store, RtAttr.gatewayAddress] using gateway⟩
      | dst => exact ⟨by simpa [RtAttrs.store, RtAttr.tableId] using table, by simp [RtAttrs.store],
          by simpa [RtAttrs.store, RtAttr.gatewayAddress] using gateway⟩
      | gateway address => exact ⟨by simpa [RtAttrs.store, RtAttr.tableId] using table,
          by simpa [RtAttrs.store] using dst, by simp [RtAttrs.store, RtAttr.gatewayAddress]⟩
      | other => exact ⟨by simpa [RtAttrs.store, RtAttr.tableId] using table,
          by simpa [RtAttrs.store] using dst,
          by simpa [RtAttrs.store, RtAttr.gatewayAddress] using gateway⟩

namespace NlMessage

/-- A message about a new route, of the length that one has at least. -/
def IsNewRoute (message : NlMessage) : Prop :=
  message.nlmsgType = rtmNewroute ∧ routeHeaderLength ≤ message.nlmsgLen

instance (message : NlMessage) : Decidable message.IsNewRoute :=
  inferInstanceAs (Decidable (_ ∧ _))

/-- The message is about an IPv4 route without a destination, with this gateway, and its
table attribute is absent or the main table. -/
structure Announces (message : NlMessage) (gateway : InAddr) : Prop where
  family : message.rtmFamily = afInet
  noDst : RtAttr.dst ∉ message.attributes
  hasGateway : (message.attributes.filterMap RtAttr.gatewayAddress).getLast? = some gateway
  mainTable : ∀ id ∈ (message.attributes.filterMap RtAttr.tableId).getLast?, id = rtTableMain

theorem takenGateway_iff (message : NlMessage) (gateway : InAddr) :
    message.takenGateway = some gateway ↔ message.Announces gateway := by
  obtain ⟨table, dst, gatewaySlot⟩ := parseRtattr_spec message.attributes
  have main : (parseRtattr message.attributes).table = none ∨
      (parseRtattr message.attributes).table = some rtTableMain ↔
      ∀ id ∈ (message.attributes.filterMap RtAttr.tableId).getLast?, id = rtTableMain := by
    rw [table]
    cases (message.attributes.filterMap RtAttr.tableId).getLast? with
    | none => simp
    | some id => simp
  have noDst : (parseRtattr message.attributes).dst = false ↔ RtAttr.dst ∉ message.attributes := by
    rw [← dst, Bool.not_eq_true]
  rw [takenGateway, Option.ite_none_right_eq_some, Taken, main, noDst, gatewaySlot]
  constructor
  · rintro ⟨⟨family, mainTable, absent⟩, found⟩
    exact ⟨family, absent, found, mainTable⟩
  · rintro ⟨family, absent, found, mainTable⟩
    exact ⟨⟨family, mainTable, absent⟩, found⟩

end NlMessage

/-- No message announces a gateway. -/
def Silent (messages : List NlMessage) : Prop :=
  ∀ message ∈ messages, ∀ gateway, ¬ message.Announces gateway

theorem takenGateways_eq_nil_iff (messages : List NlMessage) :
    takenGateways messages = [] ↔ Silent messages := by
  rw [takenGateways, List.filterMap_eq_nil_iff]
  refine forall₂_congr fun message _ => ?_
  simp only [Option.eq_none_iff_forall_ne_some, ne_eq, NlMessage.takenGateway_iff]

theorem takenGateways_last {message : NlMessage} {gateway : InAddr}
    (announces : message.Announces gateway) (before : List NlMessage) {after : List NlMessage}
    (silent : Silent after) (addr : InAddr) :
    (takenGateways (before ++ message :: after)).getLastD addr = gateway := by
  have nothing := (takenGateways_eq_nil_iff after).mpr silent
  have taken := (message.takenGateway_iff gateway).mpr announces
  unfold takenGateways at nothing ⊢
  rw [List.filterMap_append, List.filterMap_cons_some taken, nothing, List.getLastD_concat]

/-- The gateway of the last message that announces one, or zero if there is none. -/
inductive LastAnnounced (messages : List NlMessage) : InAddr → Prop
  | none (silent : Silent messages) : LastAnnounced messages .zero
  | last (before : List NlMessage) (message : NlMessage) (after : List NlMessage)
      (gateway : InAddr) (shape : messages = before ++ message :: after)
      (announces : message.Announces gateway) (silent : Silent after) :
      LastAnnounced messages gateway

theorem lastAnnounced_iff (messages : List NlMessage) (gateway : InAddr) :
    LastAnnounced messages gateway ↔ (takenGateways messages).getLastD .zero = gateway := by
  constructor
  · rintro (silent | ⟨before, message, after, _, rfl, announces, silent⟩)
    · rw [(takenGateways_eq_nil_iff messages).mpr silent, List.getLastD_nil]
    · exact takenGateways_last announces before silent .zero
  · rintro rfl
    induction messages using List.reverseRecOn with
    | nil => exact .none fun _ impossible => by cases impossible
    | append_singleton messages message inductionHypothesis =>
        cases taken : message.takenGateway with
        | some gateway =>
            have announces := (message.takenGateway_iff gateway).mp taken
            have nothing : Silent [] := fun _ impossible => by cases impossible
            rw [takenGateways_last announces messages nothing]
            exact .last messages message [] gateway rfl announces nothing
        | none =>
            have quiet : Silent [message] := by
              rw [← takenGateways_eq_nil_iff, takenGateways, List.filterMap_cons_none taken,
                List.filterMap_nil]
            have same : takenGateways (messages ++ [message]) = takenGateways messages := by
              rw [takenGateways, List.filterMap_append, List.filterMap_cons_none taken,
                List.filterMap_nil, List.append_nil, takenGateways]
            rw [same]
            generalize (takenGateways messages).getLastD .zero = address at inductionHypothesis ⊢
            cases inductionHypothesis with
            | none silent =>
                exact .none fun other member => (List.mem_append.mp member).elim (silent other)
                  (quiet other)
            | last before other after gateway shape announces silent =>
                refine .last before other (after ++ [message]) _ (by simp [shape]) announces ?_
                exact fun later member => (List.mem_append.mp member).elim (silent later)
                  (quiet later)

/-- The address that the call goes on with: what the messages before the first one that is
no route come to, also when the dump fails behind them. -/
def RouteDump.Asks (gateway : InAddr) : RouteDump → Prop
  | .openFails => False
  | .requestFails _ => gateway = .zero
  | .replies messages _ _ => LastAnnounced (messages.takeWhile (·.IsRoute)) gateway

theorem RouteDump.asks_iff {dump : RouteDump} (opened : dump ≠ .openFails) (gateway : InAddr) :
    dump.Asks gateway ↔ (getDefaultGwIpaddr dump).2 = gateway := by
  cases dump with
  | openFails => exact absurd rfl opened
  | requestFails errno => exact eq_comm
  | replies messages complete errno =>
      have kept : (getDefaultGwIpaddr (.replies messages complete errno)).2 =
          (rtnlDumpFilter complete messages .zero).2 := by
        rw [getDefaultGwIpaddr]
        dsimp only
        split_ifs <;> rfl
      rw [Asks, lastAnnounced_iff, ← rtnlDumpFilter_address complete, kept]

/-- The filter folded over a dump, from a cleared address. -/
def foldFilter (messages : List NlMessage) : InAddr :=
  messages.foldl (fun addr message => (filterDefaultGw message addr).2) .zero

/-- What the messages should come to: none of them ends the dump, and the gateway of the
last that announces one is left, or zero if there is none. -/
structure LeavesLast (messages : List NlMessage) : Prop where
  succeeds : ∀ message ∈ messages, ∀ addr, (filterDefaultGw message addr).1 = 0
  dumped : ∀ complete, rtnlDumpFilter complete messages .zero =
    (if complete then 0 else -1, foldFilter messages)
  last : ∀ before message after gateway, messages = before ++ message :: after →
    message.Announces gateway → (∀ later ∈ after, ∀ other, ¬ later.Announces other) →
    foldFilter messages = gateway
  zero : (∀ message ∈ messages, ∀ gateway, ¬ message.Announces gateway) →
    foldFilter messages = .zero

theorem foldFilter_eq {messages : List NlMessage} (routes : ∀ message ∈ messages, message.IsRoute) :
    foldFilter messages = (takenGateways messages).getLastD .zero := by
  rw [takenGateways, ← foldl_getD, foldFilter]
  refine List.foldl_ext _ _ _ fun addr message member => ?_
  rw [NlMessage.filterDefaultGw_route (routes message member)]

theorem leavesLast {messages : List NlMessage}
    (newRoutes : ∀ message ∈ messages, message.IsNewRoute) : LeavesLast messages := by
  have routes : ∀ message ∈ messages, message.IsRoute := fun message member =>
    ⟨.inl (newRoutes message member).1, (newRoutes message member).2⟩
  refine ⟨?_, ?_, ?_, ?_⟩
  · intro message member addr
    rw [NlMessage.filterDefaultGw_route (routes message member)]
  · intro complete
    rw [rtnlDumpFilter_routes complete routes, foldFilter_eq routes]
  · rintro before message after gateway rfl announces others
    rw [foldFilter_eq routes]
    exact takenGateways_last announces before others .zero
  · intro none
    rw [foldFilter_eq routes, (takenGateways_eq_nil_iff messages).mpr none, List.getLastD_nil]

/-- A default route, one of another table behind it, and one without a gateway. -/
def routeMessages : List NlMessage :=
  [⟨rtmNewroute, 52, afInet, 254, [.table 254, .other, .gateway ⟨10, 0, 0, 1⟩]⟩,
    ⟨rtmNewroute, 52, afInet, 255, [.gateway ⟨10, 0, 0, 2⟩, .table 255]⟩,
    ⟨rtmNewroute, 36, afInet, 254, [.other]⟩]

theorem leavesLast_witness : LeavesLast routeMessages ∧ foldFilter routeMessages = ⟨10, 0, 0, 1⟩ :=
  ⟨leavesLast (by decide), by decide⟩

end Libamg.Net
