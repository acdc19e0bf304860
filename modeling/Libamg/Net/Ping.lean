import Libamg.Net.Address

/-!
# Ping

`libamg_ping` sends one echo request through a raw socket and looks through what comes
back. A raw socket gets the ICMP messages for the whole host, and the loop asks for a reply
but not whose it is.
-/

namespace Libamg.Net

open C

/-- `DEFDATALEN + MAXIPLEN + MAXICMPLEN`, the size of `packet`. -/
def packetSize : Nat := 192

def icmpEchoReply : Byte := 0
def icmpEcho : Byte := 8

/-- `IFF_RUNNING`. -/
def iffRunning : UInt32 := 0x40

/-- `libamg_dev_get_link_running`, given what `_dev_get_flags` reads, if it does not fail. -/
def devGetLinkRunning (flags : Option UInt32) : Int32 :=
  match flags with
  | none => -1
  | some flags => (flags &&& iffRunning).toInt32

/-! ## The request -/

/-- The sum of the words of a buffer, low byte first, the last byte alone if need be. -/
def wordSum : Text → Nat
  | [] => 0
  | [last] => last.toNat
  | low :: high :: rest => low.toNat + 256 * high.toNat + wordSum rest

/-- `_in_cksum`. The sum is far from the end of `int` for a buffer of this size. -/
def inCksum (buffer : Text) : UInt16 :=
  let sum := wordSum buffer
  let sum := sum / 0x10000 + sum % 0x10000
  ~~~ UInt16.ofNat (sum + sum / 0x10000)

/-- The buffer with the echo request in it: the type, the code and the checksum. -/
def echoRequest : CharArray packetSize :=
  let packet := (CharArray.zero packetSize).overwrite [icmpEcho]
  let cksum := (inCksum packet.bytes).toNat
  packet.overwrite [icmpEcho, 0, UInt8.ofNat (cksum % 256), UInt8.ofNat (cksum / 256)]

/-! ## The replies -/

/-- A datagram as the socket delivers it, with its IP header, and the address in `from`. -/
structure Datagram where
  source : InAddr
  content : Text
  fits : content.length ≤ packetSize

/-- `iphdr->ihl << 2`, from the first byte of the header. -/
def headerLength (front : Byte) : Nat := (front &&& 0x0f).toNat * 4

/-- A byte that the function looks at: the datagram and the position in it. -/
structure Inspection where
  datagram : Datagram
  position : Nat

/-- The receive loop: `ret`, and the bytes looked at. What a call of `recvfrom` gets is
`none` for an error, and nothing is left to get behind the end of the list. -/
def receiveLoop : Nat → List (Option Datagram) → CharArray packetSize →
    Checked (Int32 × List Inspection)
  | 0, _, _ => .ok (0, [])
  | i + 1, [], packet => receiveLoop i [] packet
  | i + 1, none :: received, packet => receiveLoop i received packet
  | i + 1, some datagram :: received, packet => do
      let packet := packet.overwrite datagram.content
      if datagram.content.length ≥ 76 then
        let front ← packet.byteAt 0
        let icmpType ← packet.byteAt (headerLength front)
        let inspected := [⟨datagram, 0⟩, ⟨datagram, headerLength front⟩]
        if icmpType = icmpEchoReply then return (1, inspected)
        let (ret, others) ← receiveLoop i received packet
        return (ret, inspected ++ others)
      else receiveLoop i received packet

/-- What becomes of the socket: `bind` fails, a call of `fcntl` fails, or there are
replies to receive. -/
inductive RawSocket where
  | unbound
  | blocking
  | ready (received : List (Option Datagram))

def RawSocket.received : RawSocket → List (Option Datagram)
  | .unbound => []
  | .blocking => []
  | .ready received => received

inductive PingEnd where
  | returns (status : Int32)
  | exits (status : Int32)
deriving DecidableEq

/-- How a call ends, the datagram that it sends, and the received bytes that it looks at. -/
structure PingRun where
  ending : PingEnd
  sent : Option (InAddr × Text)
  inspected : List Inspection

/-- `libamg_ping`, with the flags of the interface. -/
def ping (ipaddr : InAddr) (flags : Option UInt32) (socket : RawSocket) : Checked PingRun :=
  if devGetLinkRunning flags ≤ 0 then .ok ⟨.returns (-1), none, []⟩
  else
    let sent := some (ipaddr, echoRequest.bytes.take 64)
    match socket with
    | .unbound => .ok ⟨.exits 2, none, []⟩
    | .blocking => .ok ⟨.returns (-1), sent, []⟩
    | .ready received => do
        let (ret, inspected) ← receiveLoop 30 received echoRequest
        return ⟨.returns ret, sent, inspected⟩

/-! ## What a reply is -/

namespace Datagram

/-- The first byte behind the IP header. -/
def icmpType (datagram : Datagram) : Option Byte := do
  let front ← datagram.content[0]?
  datagram.content[headerLength front]?

/-- An ICMP echo reply of at least 76 bytes. -/
def IsEchoReply (datagram : Datagram) : Prop :=
  76 ≤ datagram.content.length ∧ datagram.icmpType = some icmpEchoReply

instance (datagram : Datagram) : Decidable datagram.IsEchoReply :=
  inferInstanceAs (Decidable (_ ∧ _))

end Datagram

/-- One of the datagrams is an echo reply. -/
def Replied (received : List (Option Datagram)) : Prop :=
  ∃ datagram, some datagram ∈ received ∧ datagram.IsEchoReply

/-- One of them is an echo reply from the address. -/
def RepliedFrom (ipaddr : InAddr) (received : List (Option Datagram)) : Prop :=
  ∃ datagram, some datagram ∈ received ∧ datagram.IsEchoReply ∧ datagram.source = ipaddr

/-- The bytes looked at lie within received datagrams. -/
def Inside (received : List (Option Datagram)) (inspected : List Inspection) : Prop :=
  ∀ byte ∈ inspected, some byte.datagram ∈ received ∧ byte.position < byte.datagram.content.length

/-- Success is reported exactly for a reply from the address, and no byte outside the
received datagrams is looked at. -/
def Reports (ipaddr : InAddr) (received : List (Option Datagram)) (outcome : Checked PingRun) :
    Prop :=
  ∃ run, outcome = .ok run ∧ (run.ending = .returns 1 ↔ RepliedFrom ipaddr received) ∧
    Inside received run.inspected

/-! ## The receive loop -/

theorem headerLength_le (front : Byte) : headerLength front ≤ 60 := by
  have nibble : (front &&& 0x0f).toNat ≤ 15 := by
    rw [UInt8.toNat_and]
    exact Nat.and_le_right
  rw [headerLength]
  omega

/-- A datagram of 76 bytes has a first byte and one behind the header. -/
theorem Datagram.exists_type {datagram : Datagram} (long : 76 ≤ datagram.content.length) :
    ∃ front icmpType, datagram.content[0]? = some front ∧
      datagram.content[headerLength front]? = some icmpType ∧
      datagram.icmpType = some icmpType := by
  obtain ⟨front, first⟩ : ∃ front, datagram.content[0]? = some front :=
    ⟨_, List.getElem?_eq_getElem (by omega)⟩
  have bound := headerLength_le front
  obtain ⟨icmpType, behind⟩ : ∃ icmpType, datagram.content[headerLength front]? = some icmpType :=
    ⟨_, List.getElem?_eq_getElem (by omega)⟩
  refine ⟨front, icmpType, first, behind, ?_⟩
  rw [Datagram.icmpType, first]
  exact behind

theorem not_replied_nil : ¬ Replied [] := by
  rintro ⟨datagram, member, -⟩
  cases member

theorem replied_cons {received : List (Option Datagram)} {datagram : Datagram} :
    Replied (some datagram :: received) ↔ datagram.IsEchoReply ∨ Replied received := by
  simp only [Replied, List.mem_cons, Option.some.injEq, or_and_right, exists_or, exists_eq_left]

theorem replied_none {received : List (Option Datagram)} :
    Replied (none :: received) ↔ Replied received := by
  simp only [Replied, List.mem_cons, reduceCtorEq, false_or]

theorem Inside.cons {received : List (Option Datagram)} {inspected : List Inspection}
    (receipt : Option Datagram) (inside : Inside received inspected) :
    Inside (receipt :: received) inspected := fun byte member =>
  ⟨List.mem_cons_of_mem _ (inside byte member).1, (inside byte member).2⟩

theorem Inside.append {received : List (Option Datagram)} {first second : List Inspection}
    (inFirst : Inside received first) (inSecond : Inside received second) :
    Inside received (first ++ second) := by
  intro byte member
  rcases List.mem_append.mp member with mine | later
  · exact inFirst byte mine
  · exact inSecond byte later

/-- One turn of the loop on a datagram of 76 bytes. It looks at the datagram only, and
ends the loop if that is an echo reply. -/
theorem receiveLoop_long {datagram : Datagram} (long : 76 ≤ datagram.content.length) :
    ∃ inspected, (∀ received, Inside (some datagram :: received) inspected) ∧
      ∀ attempts received packet, receiveLoop (attempts + 1) (some datagram :: received) packet =
        if datagram.icmpType = some icmpEchoReply then .ok (1, inspected)
        else receiveLoop attempts received (packet.overwrite datagram.content) >>= fun outcome =>
          .ok (outcome.1, inspected ++ outcome.2) := by
  obtain ⟨front, icmpType, first, behind, isType⟩ := Datagram.exists_type long
  have bound := headerLength_le front
  refine ⟨[⟨datagram, 0⟩, ⟨datagram, headerLength front⟩], ?_, ?_⟩
  · intro received byte member
    rcases List.mem_pair.mp member with rfl | rfl
    · exact ⟨List.mem_cons_self, Nat.lt_of_lt_of_le (Nat.zero_lt_succ 75) long⟩
    · exact ⟨List.mem_cons_self, Nat.lt_of_lt_of_le (Nat.lt_of_le_of_lt bound (by decide)) long⟩
  · intro attempts received packet
    rw [receiveLoop, isType]
    simp only [ge_iff_le, if_pos long, packet.byteAt_overwrite datagram.fits first,
      packet.byteAt_overwrite datagram.fits behind, Checked.ok_bind, Option.some.injEq]
    rfl

/-- With an attempt for each of them, the loop finds out whether a reply is among the
datagrams. -/
theorem receiveLoop_spec {attempts : Nat} {received : List (Option Datagram)}
    (packet : CharArray packetSize) (enough : received.length ≤ attempts) :
    ∃ ret inspected, receiveLoop attempts received packet = .ok (ret, inspected) ∧
      (ret = 1 ↔ Replied received) ∧ Inside received inspected := by
  induction attempts generalizing received packet with
  | zero =>
      obtain rfl : received = [] := List.length_eq_zero_iff.mp (Nat.le_zero.mp enough)
      exact ⟨0, [], rfl, iff_of_false (by decide) not_replied_nil, by simp [Inside]⟩
  | succ attempts inductionHypothesis =>
      match received with
      | [] => exact inductionHypothesis packet (Nat.zero_le _)
      | none :: received =>
          have fewer := Nat.le_of_succ_le_succ enough
          obtain ⟨ret, inspected, run, found, inside⟩ := inductionHypothesis packet fewer
          exact ⟨ret, inspected, run, found.trans replied_none.symm, inside.cons none⟩
      | some datagram :: received =>
          have fewer := Nat.le_of_succ_le_succ enough
          obtain ⟨ret, inspected, run, found, inside⟩ :=
            inductionHypothesis (packet.overwrite datagram.content) fewer
          rw [replied_cons]
          by_cases long : 76 ≤ datagram.content.length
          · obtain ⟨headers, within, turn⟩ := receiveLoop_long long
            rw [turn]
            by_cases reply : datagram.icmpType = some icmpEchoReply
            · exact ⟨1, headers, if_pos reply, iff_of_true rfl (.inl ⟨long, reply⟩), within received⟩
            · refine ⟨ret, headers ++ inspected, ?_, ?_, ?_⟩
              · rw [if_neg reply, run]
                rfl
              · rw [or_iff_right fun isReply => reply isReply.2, found]
              · exact (within received).append (inside.cons (some datagram))
          · rw [receiveLoop, or_iff_right fun isReply => long isReply.1]
            simp only [ge_iff_le, if_neg long]
            exact ⟨ret, inspected, run, found, inside.cons (some datagram)⟩

theorem devGetLinkRunning_pos {flags : UInt32} (running : flags &&& iffRunning ≠ 0) :
    ¬ devGetLinkRunning (some flags) ≤ 0 := by
  have upper : (flags &&& iffRunning).toNat ≤ 64 := by
    rw [UInt32.toNat_and]
    exact Nat.and_le_right
  have nonzero : (flags &&& iffRunning).toNat ≠ 0 := fun zero => running (UInt32.toNat_inj.mp zero)
  have value : (flags &&& iffRunning).toInt32.toInt = (flags &&& iffRunning).toNat :=
    BitVec.toInt_eq_toNat_of_lt (by change 2 * (flags &&& iffRunning).toNat < 2 ^ 32; omega)
  rw [devGetLinkRunning, Int32.le_iff_toInt_le, value]
  change ¬ ((flags &&& iffRunning).toNat : Int) ≤ 0
  omega

theorem RepliedFrom.replied {ipaddr : InAddr} {received : List (Option Datagram)} :
    RepliedFrom ipaddr received → Replied received :=
  fun ⟨datagram, member, reply, _⟩ => ⟨datagram, member, reply⟩

/-- On an interface that runs, a call says whether it got a reply. -/
theorem ping_spec (ipaddr : InAddr) {flags : UInt32} {socket : RawSocket}
    (running : flags &&& iffRunning ≠ 0) (attempts : socket.received.length ≤ 30) :
    ∃ run, ping ipaddr (some flags) socket = .ok run ∧
      (run.ending = .returns 1 ↔ Replied socket.received) ∧
      Inside socket.received run.inspected := by
  have nothing : Inside [] [] := by simp [Inside]
  unfold ping
  simp only [if_neg (devGetLinkRunning_pos running)]
  cases socket with
  | unbound => exact ⟨_, rfl, iff_of_false PingEnd.noConfusion not_replied_nil, nothing⟩
  | blocking =>
      have fails : PingEnd.returns (-1) ≠ .returns 1 := by decide
      exact ⟨_, rfl, iff_of_false fails not_replied_nil, nothing⟩
  | ready received =>
      obtain ⟨ret, inspected, loop, found, inside⟩ := receiveLoop_spec echoRequest attempts
      have returned : PingEnd.returns ret = .returns 1 ↔ ret = 1 :=
        ⟨PingEnd.returns.inj, congrArg PingEnd.returns⟩
      refine ⟨⟨.returns ret, some (ipaddr, echoRequest.bytes.take 64), inspected⟩, ?_,
        returned.trans found, inside⟩
      change receiveLoop 30 received echoRequest = _ at loop
      dsimp only
      rw [loop]
      rfl

/-- The outcome is right exactly if a reply from the address is there whenever a reply is. -/
theorem reports_iff (ipaddr : InAddr) {flags : UInt32} {socket : RawSocket}
    (running : flags &&& iffRunning ≠ 0) (attempts : socket.received.length ≤ 30) :
    Reports ipaddr socket.received (ping ipaddr (some flags) socket) ↔
      (Replied socket.received → RepliedFrom ipaddr socket.received) := by
  obtain ⟨run, called, success, inside⟩ := ping_spec ipaddr running attempts
  constructor
  · rintro ⟨other, same, right, -⟩ replied
    rw [called] at same
    cases same
    exact right.mp (success.mpr replied)
  · intro fromAddress
    exact ⟨run, called, success.trans ⟨fromAddress, RepliedFrom.replied⟩, inside⟩

/-- An echo reply without options or data in it. -/
def foreignReply : Datagram where
  source := ⟨10, 0, 0, 2⟩
  content := 0x45 :: List.replicate 75 0
  fits := by decide

theorem reports_iff_witness :
    Reports ⟨10, 0, 0, 2⟩ [none, some foreignReply]
        (ping ⟨10, 0, 0, 2⟩ (some 0x43) (.ready [none, some foreignReply])) ↔
      (Replied [none, some foreignReply] →
        RepliedFrom ⟨10, 0, 0, 2⟩ [none, some foreignReply]) :=
  reports_iff ⟨10, 0, 0, 2⟩ (by decide) (by decide)

/-- The reply of another host is taken for one of the address. -/
theorem foreignReply_succeeds :
    ¬ Reports ⟨10, 0, 0, 1⟩ [some foreignReply]
      (ping ⟨10, 0, 0, 1⟩ (some 0x43) (.ready [some foreignReply])) := by
  rintro ⟨run, called, right, -⟩
  have success : (ping ⟨10, 0, 0, 1⟩ (some 0x43) (.ready [some foreignReply])).toOption.map
      PingRun.ending = some (.returns 1) := by decide
  rw [called] at success
  obtain ⟨datagram, member, -, source⟩ := right.mp (Option.some.inj success)
  rw [Option.some.inj (List.mem_singleton.mp member)] at source
  cases source

end Libamg.Net
