import Libamg.Net.Arp
import Libamg.Net.RouteFilter

/-!
# The hardware address of the default gateway

`libamg_get_default_gw_hwaddr` goes through three steps and takes only negative numbers
for failures. A dump that fails reports `errno`, and a table without the gateway reports
success, so `reportsGateway_iff` needs more than that the call returns 0.
-/

namespace Libamg.Net

open C

def mainIf : Text := lit "eth0"

/-- `libamg_arp_resolv`, given what `libamg_ping` returns for an address and an interface. -/
def arpResolv (ping : Text → Text → Int32) (ipaddr : InAddr) : Int32 :=
  ping (inetNtop ipaddr) mainIf

/-- `libamg_get_default_gw_hwaddr`: the returned status and `hwaddr` afterwards. -/
def getDefaultGwHwaddr (dump : RouteDump) (ping : Text → Text → Int32) (arpFile : Option Text) :
    Checked (Int32 × CharArray 6) := do
  let hwaddr := CharArray.zero 6
  let (status, gwIpAddr) := getDefaultGwIpaddr dump
  if status < 0 then return (-1, hwaddr)
  if arpResolv ping gwIpAddr < 0 then return (-1, hwaddr)
  let (status, hwaddr) ← arpGetHwaddr arpFile gwIpAddr hwaddr
  if status < 0 then return (-1, hwaddr)
  return (0, hwaddr)

/-- What the call meets: the routes, the ping and the ARP table, if it can be opened. -/
structure Network where
  dump : RouteDump
  ping : Text → Text → Int32
  arp : Option (List ArpEntry)

namespace Network

variable {net : Network}

/-- The call on a network. -/
def call (net : Network) : Checked (Int32 × CharArray 6) :=
  getDefaultGwHwaddr net.dump net.ping (net.arp.map arpText)

/-- The dump lists a default route whose gateway is in the table with this address. -/
def HasGateway (net : Network) (hwaddr : CharArray 6) : Prop :=
  ∃ messages table, net.dump.Lists messages ∧ net.arp = some table ∧
    ∃ entry ∈ table, entry.ip ∈ defaultGateways messages ∧ entry.hwaddr = hwaddr

/-- The call returns -1, or 0 and the address of a default gateway. -/
def ReportsGateway (net : Network) : Prop :=
  ∃ status hwaddr, net.call = .ok (status, hwaddr) ∧
    (status = -1 ∨ status = 0 ∧ net.HasGateway hwaddr)

/-- The steps that fail with a negative number: the socket, the ping of the gateway that the
messages come to, and the table. -/
def StepFails (net : Network) : Prop :=
  net.dump = .openFails ∨
    (∃ gateway, net.dump.Asks gateway ∧ net.ping (inetNtop gateway) mainIf < 0) ∨ net.arp = none

theorem call_of_unopened (unopened : net.dump = .openFails) : net.call = .ok (-1, .zero 6) := by
  unfold call getDefaultGwHwaddr
  rw [unopened]
  rfl

theorem call_of_unresolved {gateway : InAddr} (asks : net.dump.Asks gateway)
    (unresolved : net.ping (inetNtop gateway) mainIf < 0) : net.call = .ok (-1, .zero 6) := by
  by_cases unopened : net.dump = .openFails
  · exact call_of_unopened unopened
  · have address := (RouteDump.asks_iff unopened gateway).mp asks
    unfold call getDefaultGwHwaddr
    simp only [if_neg (Int32.not_lt.mpr (status_nonneg unopened)), address]
    exact if_pos unresolved

theorem call_of_resolved {gateway : InAddr} (opened : net.dump ≠ .openFails)
    (asks : net.dump.Asks gateway) (resolved : ¬ net.ping (inetNtop gateway) mainIf < 0) :
    net.call = match net.arp with
      | none => .ok (-1, .zero 6)
      | some table => .ok (0, lookUp gateway table) := by
  have address := (RouteDump.asks_iff opened gateway).mp asks
  unfold call getDefaultGwHwaddr
  simp only [if_neg (Int32.not_lt.mpr (status_nonneg opened)), address]
  refine (if_neg resolved).trans ?_
  cases net.arp with
  | none => rfl
  | some table =>
      change arpGetHwaddr (some (arpText table)) gateway (.zero 6) >>= _ = _
      rw [arpGetHwaddr_table]
      rfl

theorem call_of_stepFails (fails : net.StepFails) : net.call = .ok (-1, .zero 6) := by
  rcases fails with unopened | ⟨gateway, asks, unresolved⟩ | closed
  · exact call_of_unopened unopened
  · exact call_of_unresolved asks unresolved
  · by_cases unopened : net.dump = .openFails
    · exact call_of_unopened unopened
    · have asks := (RouteDump.asks_iff unopened _).mpr rfl
      by_cases unresolved : net.ping (inetNtop (getDefaultGwIpaddr net.dump).2) mainIf < 0
      · exact call_of_unresolved asks unresolved
      · rw [call_of_resolved unopened asks unresolved, closed]

/-- If none of these steps fails, the table is read, whatever has become of the dump. -/
theorem call_of_not_stepFails (goesOn : ¬ net.StepFails) :
    ∃ gateway table, net.dump.Asks gateway ∧ net.arp = some table ∧
      net.call = .ok (0, lookUp gateway table) := by
  obtain ⟨opened, resolved, notNone⟩ : net.dump ≠ .openFails ∧
      (¬ ∃ gateway, net.dump.Asks gateway ∧ net.ping (inetNtop gateway) mainIf < 0) ∧
      net.arp ≠ none := by simpa only [StepFails, not_or] using goesOn
  obtain ⟨table, some⟩ := Option.ne_none_iff_exists'.mp notNone
  have asks := (RouteDump.asks_iff opened _).mpr rfl
  refine ⟨_, table, asks, some, ?_⟩
  rw [call_of_resolved opened asks fun negative => resolved ⟨_, asks, negative⟩, some]

/-- The dump lists a default route whose gateway has an entry. The last entry that the loop
takes for one of the address it is asked for has the same hardware address, or it takes
none, and the entry has six zeros. -/
def GatewayInTable (net : Network) : Prop :=
  ∃ messages table gateway, net.dump.Lists messages ∧ net.arp = some table ∧
    net.dump.Asks gateway ∧ ∃ entry ∈ table, entry.ip ∈ defaultGateways messages ∧
      ((∃ last ∈ (table.filter (·.Answers gateway)).getLast?, last.hwaddr = entry.hwaddr) ∨
        (∀ other ∈ table, ¬ other.Answers gateway) ∧ entry.hwaddr = .zero 6)

theorem hasGateway_lookUp {gateway : InAddr} {table : List ArpEntry}
    (opened : net.dump ≠ .openFails) (asks : net.dump.Asks gateway) (some : net.arp = some table) :
    net.HasGateway (lookUp gateway table) ↔ net.GatewayInTable := by
  constructor
  · rintro ⟨messages, other, lists, same, entry, listed, isGateway, found⟩
    rw [some] at same
    cases same
    exact ⟨messages, table, gateway, lists, some, asks, entry, listed, isGateway,
      lookUp_iff.mp found.symm⟩
  · rintro ⟨messages, other, address, lists, same, asked, entry, listed, isGateway, found⟩
    rw [some] at same
    cases same
    rw [RouteDump.asks_iff opened] at asks asked
    rw [← asks, asked]
    exact ⟨messages, table, lists, some, entry, listed, isGateway, (lookUp_iff.mpr found).symm⟩

/-- The address of a default gateway is what the call reports exactly if a step fails
that is noticed, or everything is there. -/
theorem reportsGateway_iff (net : Network) :
    net.ReportsGateway ↔ net.StepFails ∨ net.GatewayInTable := by
  by_cases fails : net.StepFails
  · exact iff_of_true ⟨-1, .zero 6, call_of_stepFails fails, .inl rfl⟩ (.inl fails)
  · have opened : net.dump ≠ .openFails := fun unopened => fails (.inl unopened)
    obtain ⟨gateway, table, asks, some, result⟩ := call_of_not_stepFails fails
    rw [or_iff_right fails, ← hasGateway_lookUp opened asks some]
    constructor
    · rintro ⟨status, hwaddr, returned, negative | ⟨-, isGateway⟩⟩
      · rw [result, negative] at returned
        cases returned
      · rw [result] at returned
        cases returned
        exact isGateway
    · exact fun isGateway => ⟨0, _, result, .inr ⟨rfl, isGateway⟩⟩

/-- A dump whose request is refused, an answered ping and an empty table. -/
def refused : Network where
  dump := .requestFails ⟨1, by decide⟩
  ping := fun _ _ => 1
  arp := some []

/-- The failure is taken for success, and six zeros for an address. -/
theorem refused_reports_zero : refused.call = .ok (0, .zero 6) ∧ ¬ refused.ReportsGateway := by
  have resolved : ¬ refused.ping (inetNtop .zero) mainIf < 0 := by decide
  have asks : refused.dump.Asks .zero := rfl
  have result : refused.call = .ok (0, .zero 6) := call_of_resolved nofun asks resolved
  refine ⟨result, ?_⟩
  rintro ⟨status, hwaddr, returned, negative | ⟨-, messages, table, ⟨⟨errno, dumped⟩, -⟩, -⟩⟩
  · rw [result, negative] at returned
    cases returned
  · cases dumped

end Network
end Libamg.Net
