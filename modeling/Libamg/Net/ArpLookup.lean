import Libamg.Net.Arp

/-!
# Entries of the ARP table

When `libamg_arp_get_hwaddr` finds the hardware address of an entry for an address. Its
loop keeps what the last accepted line says, and what comes behind the loop does not ask
whether there was one.
-/

namespace Libamg.Net

open C

/-- The entry is for the address. -/
def ArpEntry.IsFor (ip : InAddr) (entry : ArpEntry) : Prop := entry.ip = ip

/-- What a call that leaves `result` should have done: it has found the address of an entry
for `ip`, or has failed and left `hwaddr` alone. -/
structure LooksUp (ip : InAddr) (table : List ArpEntry) (hwaddr : CharArray 6)
    (result : Checked (Int32 × CharArray 6)) : Prop where
  finds : (∃ entry ∈ table, entry.IsFor ip) →
    ∃ entry ∈ table, entry.IsFor ip ∧ result = .ok (0, entry.hwaddr)
  fails : (∀ entry ∈ table, ¬ entry.IsFor ip) → result = .ok (-1, hwaddr)

/-- The last entry that the test of the loop accepts has the hardware address of an entry
for `ip`. -/
def LastAnswers (ip : InAddr) (table : List ArpEntry) : Prop :=
  ∃ last ∈ (table.filter (·.Answers ip)).getLast?, ∃ entry ∈ table,
    entry.IsFor ip ∧ last.hwaddr = entry.hwaddr

/-- The last accepted entry gives the result. -/
theorem arpGetHwaddr_last {ip : InAddr} {table : List ArpEntry} {last : ArpEntry}
    (accepted : last ∈ (table.filter (·.Answers ip)).getLast?) (hwaddr : CharArray 6) :
    arpGetHwaddr (some (arpText table)) ip hwaddr = .ok (0, last.hwaddr) := by
  obtain ⟨before, shape⟩ := List.getLast?_eq_some_iff.mp accepted
  rw [arpGetHwaddr_arpText, shape, List.map_append, List.map_singleton, List.getLastD_concat]

/-- An entry for the address is accepted, so there is a last one. -/
theorem exists_last {ip : InAddr} {table : List ArpEntry}
    (found : ∃ entry ∈ table, entry.IsFor ip) :
    ∃ last, last ∈ (table.filter (·.Answers ip)).getLast? := by
  obtain ⟨entry, listed, isFor⟩ := found
  have accepted : entry ∈ table.filter (·.Answers ip) := by
    rw [List.mem_filter, decide_eq_true_eq]
    exact ⟨listed, .inl isFor⟩
  exact ⟨_, List.getLast?_eq_some_getLast (List.ne_nil_of_mem accepted)⟩

/-- The call does what it should exactly if there is an entry for the address and none
behind it is mistaken for one. -/
theorem looksUp_iff (ip : InAddr) (table : List ArpEntry) (hwaddr : CharArray 6) :
    LooksUp ip table hwaddr (arpGetHwaddr (some (arpText table)) ip hwaddr) ↔
      LastAnswers ip table := by
  constructor
  · intro looksUp
    by_cases found : ∃ entry ∈ table, entry.IsFor ip
    · obtain ⟨last, accepted⟩ := exists_last found
      obtain ⟨entry, listed, isFor, returned⟩ := looksUp.finds found
      rw [arpGetHwaddr_last accepted] at returned
      exact ⟨last, accepted, entry, listed, isFor, (Prod.mk.inj (Except.ok.inj returned)).2⟩
    · -- The status is 0 all the same.
      have returned := looksUp.fails fun entry listed isFor => found ⟨entry, listed, isFor⟩
      rw [arpGetHwaddr_arpText] at returned
      exact absurd (Prod.mk.inj (Except.ok.inj returned)).1 (by decide)
  · rintro ⟨last, accepted, entry, listed, isFor, same⟩
    have returned := arpGetHwaddr_last accepted hwaddr
    rw [same] at returned
    exact ⟨fun _ => ⟨entry, listed, isFor, returned⟩, fun none => absurd isFor (none entry listed)⟩

/-- It does so whenever there is an entry for the address and no device has the address
in its name. -/
theorem lastAnswers_of_devices {ip : InAddr} {table : List ArpEntry}
    (found : ∃ entry ∈ table, entry.IsFor ip)
    (devices : ∀ entry ∈ table, ¬ inetNtop ip <:+: entry.device) : LastAnswers ip table := by
  obtain ⟨last, accepted⟩ := exists_last found
  obtain ⟨listed, answers⟩ := List.mem_filter.mp (List.mem_of_getLast? accepted)
  rcases of_decide_eq_true answers with isFor | ⟨-, inDevice⟩
  · exact ⟨last, accepted, last, listed, isFor, rfl⟩
  · exact absurd inDevice (devices last listed)

theorem eth0_isDevice : IsDevice (lit "eth0") := ⟨⟨by decide, forall_mem_of_all (by decide)⟩, by decide, by decide⟩

def gatewayEntry : ArpEntry where
  ip := ⟨10, 0, 0, 1⟩
  hwType := 1
  flags := 2
  hwaddr := ⟨[0, 17, 34, 51, 68, 85], rfl⟩
  device := lit "eth0"
  isDevice := eth0_isDevice

example : gatewayEntry.line =
    lit "10.0.0.1         0x1         0x2         00:11:22:33:44:55     *        eth0" := by
  decide

/-- A host whose address begins like the gateway's is behind it in the table. -/
example : LastAnswers ⟨10, 0, 0, 1⟩ [gatewayEntry, { gatewayEntry with ip := ⟨10, 0, 0, 12⟩ }] :=
  lastAnswers_of_devices ⟨gatewayEntry, List.mem_cons_self, rfl⟩ (by decide)

/-- Nothing is found in an empty table, and this is reported as a success. -/
theorem emptyTable_succeeds : ¬ LooksUp ⟨10, 0, 0, 1⟩ [] (.zero 6)
    (arpGetHwaddr (some (arpText [])) ⟨10, 0, 0, 1⟩ (.zero 6)) := by
  intro looksUp
  have returned := looksUp.fails (by simp)
  rw [arpGetHwaddr_arpText] at returned
  exact absurd (Prod.mk.inj (Except.ok.inj returned)).1 (by decide)

end Libamg.Net
