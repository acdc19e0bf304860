import Libamg.C.Buffer
import Libamg.Netlink.DumpFilter

/-!
# Receiving

`rtnl_dump_filter`, `rtnl_listen` and `rtnl_talk` share the loop around `recvmsg`. The two
latter have a loop of their own over the messages of a datagram: its test compares an `int`
with a `size_t`, and so it goes on where the padding of the last message takes the bytes left
below zero. On messages that end on a boundary, in datagrams that the buffer has room for,
it does not matter how they are spread over these: what comes of a dump depends on its
messages alone (`dumpFilter_packing`), `rtnl_listen` handles each of them once
(`rtnlListen_handles`), and `rtnl_talk` comes to what the first reply to its request says
(`rtnlTalk_firstReply`).
-/

namespace Libamg.Netlink

open C

/-- What an `int` calculation keeps. -/
@[irreducible] def toSigned (value : Int) : Int :=
  if value % 4294967296 < 2147483648 then value % 4294967296 else value % 4294967296 - 4294967296

/-- How the loop over the messages of a datagram ends. -/
inductive Ended (σ ρ : Type) where
  | leave (result : ρ)
  | malformed (state : σ)
  | done (state : σ) (status : Int)

theorem toSigned_of_lt {value : Int} (nonneg : 0 ≤ value) (small : value < 2147483648) :
    toSigned value = value := by
  rw [toSigned]
  omega

theorem toSigned_le (value : Int) : toSigned value < 2147483648 ∧ -2147483648 ≤ toSigned value := by
  rw [toSigned]
  omega

/-- A message that passes the test and is not negative is at least a header. -/
theorem header_le {len : Int} (nonneg : 0 ≤ toSigned len) (room : 0 ≤ toSigned (toSigned len - 16)) :
    16 ≤ toSigned len := by
  have bound := toSigned_le len
  generalize toSigned len = signed at *
  rw [toSigned] at room
  omega

/-- What the loop over the messages finds at a pointer. -/
inductive Test where
  | done
  | malformed
  | message (len : Int)

section Functions

variable (bigEndian : Bool) {σ ρ : Type}

/-- The tests of that loop: `status >= sizeof(*h)`, for which a negative `status` is a large
number, and the one for malformed messages. -/
def testMessage (h : Text) (status : Int) : Checked Test :=
  if 0 ≤ status ∧ status < 16 then .ok .done
  else do
    let length ← nlmsgLen bigEndian h
    return if toSigned (toSigned length - 16) < 0 ∨ status < toSigned length then .malformed
      else .message (toSigned length)

theorem testMessage_message {h : Text} {status len : Int}
    (found : testMessage bigEndian h status = .ok (.message len)) (nonneg : 0 ≤ len) :
    16 ≤ len ∧ len ≤ status := by
  unfold testMessage at found
  split at found
  · cases found
  · obtain ⟨length, -, returned⟩ := Checked.bind_eq_ok found
    by_cases failed : toSigned (toSigned length - 16) < 0 ∨ status < toSigned length
    · rw [if_pos failed] at returned
      cases returned
    · rw [if_neg failed] at returned
      cases returned
      have room := not_or.mp failed
      exact ⟨header_le nonneg (Int.not_lt.mp room.1), Int.not_lt.mp room.2⟩

/-- The loop over the messages of a datagram in `rtnl_listen` and `rtnl_talk`. -/
def eachMessage (visit : σ → Text → Checked (Turn σ ρ)) (state : σ) (h : Text) (status : Int) :
    Checked (Ended σ ρ) :=
  match _found : testMessage bigEndian h status with
  | .error fault => .error fault
  | .ok .done => .ok (.done state status)
  | .ok .malformed => .ok (.malformed state)
  | .ok (.message len) => visit state h >>= fun
      | .leave result => .ok (.leave result)
      | .next state =>
          -- The tests let lengths from 2^31 on pass, which lead out of the buffer.
          if len < 0 then .error .outOfBounds
          else eachMessage visit state (h.drop (align4 len.toNat)) (status - align4 len.toNat)
termination_by status.toNat
decreasing_by
  have padded := le_align4 len.toNat
  have bounds := testMessage_message bigEndian _found (by omega)
  omega

/-- What follows the loop over the messages. -/
def afterMessages (truncated : Bool) (left : Int) (state : σ) : Turn σ (Outcome σ) :=
  if truncated then .next state
  else if left ≠ 0 then .leave (.exited 1 state)
  else .next state

/-- What `rtnl_listen` and `rtnl_talk` do with a datagram. -/
def inDatagram (visit : Nat → σ → Text → Checked (Turn σ (Int × σ))) (sender : Nat) (buf : Text)
    (status : Nat) (truncated : Bool) (state : σ) : Checked (Turn σ (Outcome σ)) := do
  let ended ← eachMessage bigEndian (visit sender) state buf status
  match ended with
  | .leave (status, state) => return .leave (.returned status state)
  | .malformed state => return .leave (if truncated then .returned (-1) state else .exited 1 state)
  | .done state left => return afterMessages truncated left state

/-- What `rtnl_dump_filter` does with a datagram. -/
def dumpDatagram (handle : Handle) (filter : Filter σ) (junk : Option (Filter σ)) (sender : Nat)
    (buf : Text) (status : Nat) (truncated : Bool) (state : σ) : Checked (Turn σ (Outcome σ)) := do
  let turn ← nlmsg.walk bigEndian (visitMessage bigEndian handle filter junk sender) state buf status
  match turn with
  | .leave (status, state) => return .leave (.returned status state)
  | .next (state, _, left) => return afterMessages truncated left state

/-- The loop around `recvmsg` that the three functions share: what comes of it, and what is
still to be received. -/
def receiveAll (datagram : Nat → Text → Nat → Bool → σ → Checked (Turn σ (Outcome σ))) :
    Text → σ → List Received → Checked (Outcome σ × List Received)
  | _, state, [] => return (.waiting state, [])
  | buf, state, .failed errno :: later =>
      if errno = eintr ∨ errno = eagain then receiveAll datagram buf state later
      else return (.returned (-1) state, later)
  | buf, state, .datagram sender bytes truncated :: later =>
      let status := min bytes.length buf.length
      if status = 0 then return (.returned (-1) state, later)
      else do
        let truncated := truncated || buf.length < bytes.length
        let buf := receiveInto buf bytes
        let turn ← datagram sender buf status truncated state
        match turn with
        | .leave outcome => return (outcome, later)
        | .next state => receiveAll datagram buf state later

/-- Where the buffer has room for a datagram, this is received whole. -/
theorem receiveAll_datagram (datagram : Nat → Text → Nat → Bool → σ → Checked (Turn σ (Outcome σ)))
    {buf bytes : Text} (room : bytes.length ≤ buf.length) (state : σ) (sender : Nat)
    (truncated : Bool) (later : List Received) :
    receiveAll datagram buf state (.datagram sender bytes truncated :: later) =
      if bytes.length = 0 then .ok (.returned (-1) state, later)
      else
        datagram sender (receiveInto buf bytes) bytes.length truncated state >>= fun
          | .leave outcome => .ok (outcome, later)
          | .next state => receiveAll datagram (receiveInto buf bytes) state later := by
  rw [receiveAll, Nat.min_eq_left room, truncated_of_le room]
  rfl

/-- `rtnl_listen`. -/
def rtnlListen (handler : Filter σ) : Text → σ → List Received →
    Checked (Outcome σ × List Received) :=
  receiveAll (inDatagram bigEndian fun sender state h => afterFilter <$> handler sender h state)

variable {size : Nat}

/-- `memcpy(answer, h, h->nlmsg_len)`, where an answer is asked for. -/
def copyAnswer (answer : Option (CharArray size)) (h : Text) : Checked (Option (CharArray size)) :=
  match answer with
  | none => return none
  | some answer => do
      let len ← nlmsgLen bigEndian h
      if h.length < len then .error .outOfBounds
      else return some (← answer.writeAt 0 (h.take len))

/-- The message does not answer the request. -/
def noReply (peer localPid seq sender : Nat) (h : Text) : Checked Bool :=
  if sender ≠ peer then return true
  else do
    let pid ← nlmsgPid bigEndian h
    if pid ≠ localPid then return true
    else
      let found ← nlmsgSeq bigEndian h
      return found ≠ seq

/-- The body of the loop of `rtnl_talk`. -/
def visitReply (peer localPid seq : Nat) (junk : Option (Filter σ)) (sender : Nat)
    (state : Option (CharArray size) × σ) (h : Text) :
    Checked (Turn (Option (CharArray size) × σ) (Int × Option (CharArray size) × σ)) := do
  if ← noReply bigEndian peer localPid seq sender h then
    match junk with
    | none => return .next state
    | some junk =>
        let (err, kept) ← junk sender h state.2
        return afterFilter (err, (state.1, kept))
  else
    let type ← nlmsgType bigEndian h
    if type = nlmsgError then
      let len ← nlmsgLen bigEndian h
      if toSigned (toSigned len - 16) < 20 then return .leave (-1, state)
      else
        let error ← readNum bigEndian h 16 4
        if error ≠ 0 then return .leave (-1, state)
        else
          let answer ← copyAnswer bigEndian state.1 h
          return .leave (0, (answer, state.2))
    else if state.1.isSome then
      let answer ← copyAnswer bigEndian state.1 h
      return .leave (0, (answer, state.2))
    else return .next state

/-- `rtnl_talk`, from the moment the request is sent and its buffer is zeroed. -/
def rtnlTalk (peer localPid seq : Nat) (junk : Option (Filter σ)) :
    Option (CharArray size) × σ → List Received →
      Checked (Outcome (Option (CharArray size) × σ) × List Received) :=
  receiveAll (inDatagram bigEndian (visitReply bigEndian peer localPid seq junk))
    (List.replicate dumpBuffer 0)

end Functions

/-- `rtnl_dump_filter` is such a loop. -/
theorem dumpFilter_eq_receiveAll {bigEndian : Bool} {σ : Type} (handle : Handle) (filter : Filter σ)
    (junk : Option (Filter σ)) (buf : Text) (state : σ) (received : List Received) :
    dumpFilter bigEndian handle filter junk buf state received =
      Prod.fst <$> receiveAll (dumpDatagram bigEndian handle filter junk) buf state received := by
  induction received generalizing buf state with
  | nil => rfl
  | cons first later inductionHypothesis =>
      cases first with
      | failed errno =>
          rw [dumpFilter, receiveAll]
          split
          · exact inductionHypothesis buf state
          · rfl
      | datagram sender bytes truncated =>
          rw [dumpFilter, receiveAll]
          split
          · rfl
          · simp only [dumpDatagram]
            cases nlmsg.walk bigEndian (visitMessage bigEndian handle filter junk sender) state
                (receiveInto buf bytes) (min bytes.length buf.length : Nat) with
            | error fault => rfl
            | ok turn =>
                cases turn with
                | leave result => rfl
                | next ended =>
                    obtain ⟨state, rest, left⟩ := ended
                    simp only [Checked.ok_bind, afterMessages]
                    split
                    · exact inductionHypothesis _ state
                    · split
                      · rfl
                      · exact inductionHypothesis _ state

/-! ## Messages that were laid out -/

section Messages

variable {bigEndian : Bool} {σ ρ : Type}

theorem testMessage_record {message : Framing.Record nlmsg bigEndian} {behind : Text} {status : Int}
    (short : message.bytes.length < 2147483648) (fits : (message.bytes.length : Int) ≤ status) :
    testMessage bigEndian (message.bytes ++ behind) status = .ok (.message message.bytes.length) := by
  have complete : 16 ≤ message.bytes.length := message.complete
  have length : nlmsgLen bigEndian (message.bytes ++ behind) = .ok message.bytes.length :=
    (readNum_message message behind (by decide)).trans (nlmsgLen_message message)
  have signed : toSigned message.bytes.length = message.bytes.length :=
    toSigned_of_lt (by omega) (by omega)
  have room : toSigned ((message.bytes.length : Int) - 16) = message.bytes.length - 16 :=
    toSigned_of_lt (by omega) (by omega)
  have passed : ¬ ((message.bytes.length : Int) - 16 < 0 ∨ status < message.bytes.length) := by omega
  have begun : ¬ (0 ≤ status ∧ status < 16) := by omega
  rw [testMessage, if_neg begun, length, Checked.ok_bind, signed, room, if_neg passed]
  rfl

/-- What the loop over messages ends with where these fill the datagram. -/
def endOfMessages : Turn σ ρ → Ended σ ρ
  | .leave result => .leave result
  | .next state => .done state 0

/-- Where the datagram is exactly messages, the loop visits these and leaves nothing. -/
theorem eachMessage_layout (visit : σ → Text → Checked (Turn σ ρ)) (state : σ)
    {messages : List (Framing.Record nlmsg bigEndian)} (behind : Text)
    (short : ∀ message ∈ messages, message.bytes.length < 2147483648) :
    eachMessage bigEndian visit state (Framing.layout messages ++ behind)
        (Framing.layout messages).length =
      endOfMessages <$> visitAll visit state (Framing.pointersOf messages behind) := by
  induction messages generalizing state with
  | nil =>
      have nothing : testMessage bigEndian behind 0 = .ok .done := if_pos (by decide)
      unfold eachMessage
      split <;> rename_i found
      · exact absurd (nothing.symm.trans found) (by simp)
      · rfl
      · exact absurd (nothing.symm.trans found) (by simp)
      · exact absurd (nothing.symm.trans found) (by simp)
  | cons message messages inductionHypothesis =>
      have length := Framing.layout_cons_length message messages
      have padded := le_align4 message.bytes.length
      have test : testMessage bigEndian (Framing.layout (message :: messages) ++ behind)
          (Framing.layout (message :: messages)).length = .ok (.message message.bytes.length) := by
        rw [length, Framing.layout_cons, List.append_assoc]
        exact testMessage_record (short message (.head messages)) (by omega)
      have dropped : (Framing.layout (message :: messages) ++ behind).drop
          (align4 message.bytes.length) = Framing.layout messages ++ behind := by
        rw [Framing.layout_cons, ← List.append_assoc, List.append_assoc, ← message.padded,
          ← List.length_append, List.drop_left]
      have left : ((Framing.layout (message :: messages)).length : Int) -
          align4 message.bytes.length = (Framing.layout messages).length := by
        omega
      rw [Framing.pointersOf, visitAll]
      unfold eachMessage
      split <;> rename_i found
      · exact absurd (test.symm.trans found) (by simp)
      · exact absurd (test.symm.trans found) (by simp)
      · exact absurd (test.symm.trans found) (by simp)
      · cases test.symm.trans found
        cases visit state (Framing.layout (message :: messages) ++ behind) with
        | error fault => rfl
        | ok turn =>
            cases turn with
            | leave result => rfl
            | next state =>
                have nonneg : ¬ ((message.bytes.length : Int) < 0) := by omega
                simp only [Checked.ok_bind, if_neg nonneg, Int.toNat_natCast, dropped, left]
                exact inductionHypothesis state fun message later => short message (.tail _ later)

/-- What a loop over the messages of a datagram means for the one around it. -/
def returnedBy : Turn σ (Int × σ) → Turn σ (Outcome σ)
  | .leave (status, state) => .leave (.returned status state)
  | .next state => .next state

/-- The loop over what arrives, without the bytes: what comes of it, and what is left. -/
def converse (each : Nat → σ → Framing.Record nlmsg bigEndian → Checked (Turn σ (Int × σ))) :
    σ → List (Arrival bigEndian) → Checked (Outcome σ × List (Arrival bigEndian))
  | state, [] => return (.waiting state, [])
  | state, .interrupted _ _ :: later => converse each state later
  | state, .messages sender sent _ :: later => do
      let turn ← visitAll (each sender) state sent
      match turn with
      | .leave (status, state) => return (.returned status state, later)
      | .next state => converse each state later

/-- What comes of visits to messages that end or go on waiting. -/
def outcomeOf : Turn σ (Int × σ) → Outcome σ
  | .leave (status, state) => .returned status state
  | .next state => .waiting state

variable {each : Nat → σ → Framing.Record nlmsg bigEndian → Checked (Turn σ (Int × σ))}

/-- It does not matter which messages share a datagram. -/
theorem converse_visitAll (state : σ) (arrivals : List (Arrival bigEndian)) :
    Prod.fst <$> converse each state arrivals =
      outcomeOf <$> visitAll (fun state sent => each sent.1 state sent.2) state
        (arrivals.flatMap Arrival.senders) := by
  induction arrivals generalizing state with
  | nil => rfl
  | cons arrival arrivals inductionHypothesis =>
      rw [List.flatMap_cons]
      cases arrival with
      | interrupted errno again => exact inductionHypothesis state
      | messages sender sent some =>
          rw [converse, Arrival.senders, visitAll_append, visitAll_map]
          cases visitAll (each sender) state sent with
          | error fault => rfl
          | ok turn =>
              cases turn with
              | leave result => rfl
              | next state => exact inductionHypothesis state

/-- The bytes of messages are read as these messages. -/
def ReadsAs (datagram : Nat → Text → Nat → Bool → σ → Checked (Turn σ (Outcome σ)))
    (each : Nat → σ → Framing.Record nlmsg bigEndian → Checked (Turn σ (Int × σ)))
    (sender : Nat) (sent : List (Framing.Record nlmsg bigEndian)) : Prop :=
  ∀ behind state, datagram sender (Framing.layout sent ++ behind) (Framing.layout sent).length false
    state = returnedBy <$> visitAll (each sender) state sent

/-- The loop around `recvmsg` over the bytes of messages is the loop over the messages. -/
theorem receiveAll_converse
    {datagram : Nat → Text → Nat → Bool → σ → Checked (Turn σ (Outcome σ))} (buf : Text)
    (state : σ) {arrivals : List (Arrival bigEndian)}
    (fits : ∀ arrival ∈ arrivals, arrival.Fits buf.length)
    (reads : ∀ sender sent some, .messages sender sent some ∈ arrivals →
      ReadsAs datagram each sender sent) :
    receiveAll datagram buf state (arrivals.map Arrival.received) =
      Prod.map id (List.map Arrival.received) <$> converse each state arrivals := by
  induction arrivals generalizing buf state with
  | nil => rfl
  | cons arrival arrivals inductionHypothesis =>
      have others (after : Text) (same : after.length = buf.length) (state : σ) :=
        inductionHypothesis after state (fun arrival later => same ▸ fits arrival (.tail _ later))
          fun sender sent some later => reads sender sent some (.tail _ later)
      rw [List.map_cons]
      cases arrival with
      | interrupted errno again =>
          rw [Arrival.received, receiveAll, if_pos again, others buf rfl]
          rfl
      | messages sender sent some =>
          have room : (Framing.layout sent).length ≤ buf.length := fits _ (.head arrivals)
          rw [Arrival.received, receiveAll_datagram datagram room, if_neg (layout_ne_nil some)]
          simp only [receiveInto_of_le room, reads sender sent some (.head arrivals) _ state]
          rw [converse]
          cases visitAll (each sender) state sent with
          | error fault => rfl
          | ok turn =>
              cases turn with
              | leave result => rfl
              | next state =>
                  refine others _ ?_ state
                  rw [← receiveInto_of_le room, length_receiveInto]

theorem inDatagram_readsAs {visit : Nat → σ → Text → Checked (Turn σ (Int × σ))} {sender : Nat}
    {sent : List (Framing.Record nlmsg bigEndian)}
    (short : ∀ message ∈ sent, message.bytes.length < 2147483648)
    (reads : ∀ state, ∀ message ∈ sent, ∀ behind,
      visit sender state (message.bytes ++ behind) = each sender state message) :
    ReadsAs (inDatagram bigEndian visit) each sender sent := by
  intro behind state
  rw [inDatagram, eachMessage_layout _ state behind short, Framing.visitAll_pointersOf state reads]
  cases visitAll (each sender) state sent with
  | error fault => rfl
  | ok turn => cases turn <;> rfl

end Messages

/-! ## Dumps -/

section Dumps

variable {bigEndian : Bool} {σ : Type} {handle : Handle} {filter : Filter σ}
  {junk : Option (Filter σ)}

theorem dumpDatagram_readsAs {sender : Nat} {sent : List (Framing.Record nlmsg bigEndian)}
    (filterLocal : ∀ message ∈ sent, LocalAt filter sender message)
    (junkLocal : ∀ given ∈ junk, ∀ message ∈ sent, LocalAt given sender message) :
    ReadsAs (dumpDatagram bigEndian handle filter junk)
      (fun sender state message => visitMessage bigEndian handle filter junk sender state message.bytes)
      sender sent := by
  intro behind state
  have reads : ∀ state, ∀ message ∈ sent, ∀ behind,
      visitMessage bigEndian handle filter junk sender state (message.bytes ++ behind) =
        visitMessage bigEndian handle filter junk sender state message.bytes :=
    fun state message listed behind => visitMessage_local (filterLocal message listed)
      (fun given isJunk => junkLocal given isJunk message listed) state behind
  rw [dumpDatagram, Framing.walk_layout, Framing.visitAll_pointersOf state reads]
  cases visitAll (fun state (message : Framing.Record nlmsg bigEndian) =>
      visitMessage bigEndian handle filter junk sender state message.bytes) state sent with
  | error fault => rfl
  | ok turn => cases turn <;> rfl

/-- A dump is the loop over its messages: as long as the buffer has room for the datagrams, it
does not matter which messages share one, what the buffer has behind them, and how often
receiving is interrupted. -/
theorem dumpFilter_messages (buf : Text) (state : σ) (arrivals : List (Arrival bigEndian))
    (fits : ∀ arrival ∈ arrivals, arrival.Fits buf.length)
    (filterLocal : ∀ sent ∈ arrivals.flatMap Arrival.senders, LocalAt filter sent.1 sent.2)
    (junkLocal : ∀ given ∈ junk, ∀ sent ∈ arrivals.flatMap Arrival.senders,
      LocalAt given sent.1 sent.2) :
    dumpFilter bigEndian handle filter junk buf state (arrivals.map Arrival.received) =
      dumpMessages handle filter junk state (arrivals.flatMap Arrival.senders) := by
  have sentBy {sender : Nat} {messages : List (Framing.Record nlmsg bigEndian)} {some : messages ≠ []}
      (arrived : .messages sender messages some ∈ arrivals) {message : Framing.Record nlmsg bigEndian}
      (listed : message ∈ messages) : (sender, message) ∈ arrivals.flatMap Arrival.senders :=
    List.mem_flatMap.mpr ⟨_, arrived, List.mem_map_of_mem listed⟩
  have visits := @converse_visitAll bigEndian σ
    (fun sender state message => visitMessage bigEndian handle filter junk sender state message.bytes)
    state arrivals
  have loop : dumpMessages handle filter junk state (arrivals.flatMap Arrival.senders) =
      outcomeOf <$> visitAll (fun state (sent : Nat × Framing.Record nlmsg bigEndian) =>
        visitMessage bigEndian handle filter junk sent.1 state sent.2.bytes) state
        (arrivals.flatMap Arrival.senders) := by
    rw [dumpMessages]
    cases visitAll (fun state (sent : Nat × Framing.Record nlmsg bigEndian) =>
        visitMessage bigEndian handle filter junk sent.1 state sent.2.bytes) state
        (arrivals.flatMap Arrival.senders) with
    | error fault => rfl
    | ok turn => cases turn <;> rfl
  rw [loop, ← visits, dumpFilter_eq_receiveAll, receiveAll_converse buf state fits
    fun sender messages some arrived => dumpDatagram_readsAs
      (fun message listed => filterLocal _ (sentBy arrived listed))
      (fun given isJunk message listed => junkLocal given isJunk _ (sentBy arrived listed))]
  cases converse (fun sender state (message : Framing.Record nlmsg bigEndian) =>
    visitMessage bigEndian handle filter junk sender state message.bytes) state arrivals <;> rfl

/-- What comes of a dump depends on its messages alone, as long as no datagram is longer than
the buffer: not on which of them share a datagram, on what was in the buffer before, or on
how often receiving is interrupted. -/
theorem dumpFilter_packing {first second : List (Arrival bigEndian)}
    (firstFits : ∀ arrival ∈ first, arrival.Fits dumpBuffer)
    (secondFits : ∀ arrival ∈ second, arrival.Fits dumpBuffer)
    (sameMessages : first.flatMap Arrival.senders = second.flatMap Arrival.senders)
    (filterLocal : ∀ sent ∈ first.flatMap Arrival.senders, LocalAt filter sent.1 sent.2)
    (junkLocal : ∀ given ∈ junk, ∀ sent ∈ first.flatMap Arrival.senders, LocalAt given sent.1 sent.2)
    {buf other : Text} (size : buf.length = dumpBuffer) (otherSize : other.length = dumpBuffer)
    (state : σ) :
    dumpFilter bigEndian handle filter junk buf state (first.map Arrival.received) =
      dumpFilter bigEndian handle filter junk other state (second.map Arrival.received) := by
  rw [← size] at firstFits
  rw [← otherSize] at secondFits
  rw [dumpFilter_messages buf state first firstFits filterLocal junkLocal]
  rw [sameMessages] at filterLocal junkLocal ⊢
  exact (dumpFilter_messages other state second secondFits filterLocal junkLocal).symm

/-- A message of the dump that `doneMessage` ends, of a header alone. -/
def headerMessage : Framing.Record nlmsg false where
  bytes := [16, 0, 0, 0, 24, 0, 2, 0, 7, 0, 0, 0, 1, 0, 0, 0]
  padding := []
  complete := by decide
  counted := by decide
  padded := by decide

/-- Two messages and the end of the dump in a datagram, and in one each. -/
theorem dumpFilter_packing_done :
    dumpFilter false ⟨1, 7⟩ (fun _ _ count => .ok (0, count + 1)) none (List.replicate dumpBuffer 0)
        (0 : Nat)
        ([.messages 0 [headerMessage, headerMessage, doneMessage] (by decide)].map
          Arrival.received) =
      dumpFilter false ⟨1, 7⟩ (fun _ _ count => .ok (0, count + 1)) none
        (List.replicate dumpBuffer 9) (0 : Nat)
        ([.messages 0 [headerMessage] (by decide), .interrupted eintr (.inl rfl),
          .messages 0 [headerMessage] (by decide), .messages 0 [doneMessage] (by decide)].map
          Arrival.received) :=
  @dumpFilter_packing false Nat ⟨1, 7⟩ (fun _ _ count => .ok (0, count + 1)) none
    [.messages 0 [headerMessage, headerMessage, doneMessage] (by decide)]
    [.messages 0 [headerMessage] (by decide), .interrupted eintr (.inl rfl),
      .messages 0 [headerMessage] (by decide), .messages 0 [doneMessage] (by decide)]
    (forall_mem_of_all (by decide)) (forall_mem_of_all (by decide)) rfl (fun _ _ _ _ => rfl)
    (fun _ impossible => by cases impossible) _ _ List.length_replicate List.length_replicate 0

end Dumps

/-! ## Listening -/

section Listening

variable {bigEndian : Bool} {σ : Type}

/-- Messages in datagrams of at most that size are no longer. -/
theorem Arrival.Fits.short {arrivals : List (Arrival bigEndian)} {size : Nat}
    (fits : ∀ arrival ∈ arrivals, arrival.Fits size) (small : size < 2147483648) :
    ∀ sent ∈ arrivals.flatMap Arrival.senders, sent.2.bytes.length < 2147483648 := by
  intro sent listed
  obtain ⟨arrival, arrived, inArrival⟩ := List.mem_flatMap.mp listed
  cases arrival with
  | interrupted errno again => cases inArrival
  | messages sender messages some =>
      obtain ⟨message, inMessages, rfl⟩ := List.mem_map.mp inArrival
      have room : (Framing.layout messages).length ≤ size := fits _ arrived
      have within := Framing.length_le_layout inMessages
      exact Nat.lt_of_le_of_lt (Nat.le_trans within room) small

/-- `rtnl_listen` gives every message that arrives to its handler, once and in order, until the
handler fails, as long as no datagram is longer than its buffer. -/
theorem rtnlListen_handles {handler : Filter σ} {arrivals : List (Arrival bigEndian)}
    (fits : ∀ arrival ∈ arrivals, arrival.Fits listenBuffer)
    (handlerLocal : ∀ sent ∈ arrivals.flatMap Arrival.senders, LocalAt handler sent.1 sent.2)
    {buf : Text} (size : buf.length = listenBuffer) (state : σ) :
    Prod.fst <$> rtnlListen bigEndian handler buf state (arrivals.map Arrival.received) =
      outcomeOf <$> visitAll (fun state (sent : Nat × Framing.Record nlmsg bigEndian) =>
        afterFilter <$> handler sent.1 sent.2.bytes state) state (arrivals.flatMap Arrival.senders) := by
  have short := Arrival.Fits.short fits (by decide)
  have visits := @converse_visitAll bigEndian σ
    (fun sender state message => afterFilter <$> handler sender message.bytes state) state arrivals
  rw [← visits, rtnlListen, receiveAll_converse buf state (size.symm ▸ fits)]
  · cases converse (fun sender state (message : Framing.Record nlmsg bigEndian) =>
      afterFilter <$> handler sender message.bytes state) state arrivals <;> rfl
  · intro sender sent some listed
    have sentBy {message : Framing.Record nlmsg bigEndian} (inSent : message ∈ sent) :
        (sender, message) ∈ arrivals.flatMap Arrival.senders :=
      List.mem_flatMap.mpr ⟨_, listed, List.mem_map_of_mem inSent⟩
    refine inDatagram_readsAs (fun message inSent => short _ (sentBy inSent))
      fun state message inSent behind => ?_
    rw [handlerLocal _ (sentBy inSent) behind state]

theorem rtnlListen_handles_done :
    Prod.fst <$> rtnlListen false (fun _ _ count => .ok (0, count + 1)) (List.replicate listenBuffer 0)
        (0 : Nat)
        ([.messages 5 [doneMessage] (by decide), .messages 0 [doneMessage] (by decide)].map
          Arrival.received) =
      .ok (.waiting 2) :=
  @rtnlListen_handles false Nat (fun _ _ count => .ok (0, count + 1))
    [.messages 5 [doneMessage] (by decide), .messages 0 [doneMessage] (by decide)]
    (forall_mem_of_all (by decide)) (fun _ _ _ _ => rfl) _ List.length_replicate 0

end Listening

/-! ## Replies -/

section Replies

variable {bigEndian : Bool} {σ : Type} {size : Nat} {peer localPid seq : Nat}

/-- The message answers the request. -/
def isReply (bigEndian : Bool) (peer localPid seq sender : Nat) (h : Text) : Bool :=
  sender = peer && loadNum bigEndian ((h.drop 12).take 4) = localPid &&
    loadNum bigEndian ((h.drop 8).take 4) = seq

/-- A reply ends the talk if it is an error or a report of success, or if an answer is wanted. -/
def endsTalk (bigEndian : Bool) (answer : Option (CharArray size)) (bytes : Text) : Bool :=
  typeOfMessage bigEndian bytes = nlmsgError || answer.isSome

/-- The error of a message. -/
def errorOf (bigEndian : Bool) (bytes : Text) : Nat := loadNum bigEndian ((bytes.drop 16).take 4)

/-- The answer with a message copied over it, where one is asked for. -/
def answered : Option (CharArray size) → Text → Checked (Option (CharArray size))
  | none, _ => .ok none
  | some answer, bytes => some <$> answer.writeAt 0 bytes

/-- What a reply comes to that ends the talk: the status, and the answer that was asked for. -/
def verdict (bigEndian : Bool) (answer : Option (CharArray size)) (bytes : Text) :
    Checked (Int × Option (CharArray size)) :=
  if typeOfMessage bigEndian bytes = nlmsgError ∧ (bytes.length < 36 ∨ errorOf bigEndian bytes ≠ 0) then
    .ok (-1, answer)
  else (fun copied => (0, copied)) <$> answered answer bytes

theorem noReply_eq {sender : Nat} {h : Text} (header : 16 ≤ h.length) :
    noReply bigEndian peer localPid seq sender h =
      .ok (!isReply bigEndian peer localPid seq sender h) := by
  have pid := @readNum_inside bigEndian h 12 4 (by omega)
  have found := @readNum_inside bigEndian h 8 4 (by omega)
  rw [noReply, nlmsgPid, nlmsgSeq, pid, found, isReply]
  by_cases sent : sender = peer
  · by_cases addressed : loadNum bigEndian ((h.drop 12).take 4) = localPid
    · simp [sent, addressed]
    · simp [sent, addressed]
      rfl
  · simp [sent]
    rfl

/-- Fields of the header do not depend on what lies behind the message. -/
theorem isReply_append {h : Text} (header : 16 ≤ h.length) (sender : Nat) (behind : Text) :
    isReply bigEndian peer localPid seq sender (h ++ behind) =
      isReply bigEndian peer localPid seq sender h := by
  have pid : 4 ≤ (h.drop 12).length := by
    rw [List.length_drop]
    omega
  have found : 4 ≤ (h.drop 8).length := by
    rw [List.length_drop]
    omega
  rw [isReply, isReply, List.drop_append_of_le_length (by omega),
    List.drop_append_of_le_length (by omega), List.take_append_of_le_length pid,
    List.take_append_of_le_length found]

theorem copyAnswer_message (answer : Option (CharArray size))
    (message : Framing.Record nlmsg bigEndian) (behind : Text) :
    copyAnswer bigEndian answer (message.bytes ++ behind) = answered answer message.bytes := by
  cases answer with
  | none => rfl
  | some answer =>
      have length : nlmsgLen bigEndian (message.bytes ++ behind) = .ok message.bytes.length :=
        (readNum_message message behind (by decide)).trans (nlmsgLen_message message)
      have inside : ¬ (message.bytes ++ behind).length < message.bytes.length := by
        rw [List.length_append]
        omega
      rw [copyAnswer, length, Checked.ok_bind, if_neg inside, List.take_left]
      exact (map_eq_pure_bind some (answer.writeAt 0 message.bytes)).symm

/-- Where the length of an error is too short for its number. -/
theorem cutOff_iff {length : Nat} (complete : 16 ≤ length) (short : length < 2147483648) :
    toSigned (toSigned length - 16) < 20 ↔ length < 36 := by
  have signed : toSigned length = length := toSigned_of_lt (by omega) (by omega)
  have room : toSigned ((length : Int) - 16) = length - 16 := toSigned_of_lt (by omega) (by omega)
  rw [signed, room]
  omega

/-- What a turn of the loop of `rtnl_talk` is without `junk`. -/
theorem visitReply_message (sender : Nat) (state : Option (CharArray size) × σ)
    (message : Framing.Record nlmsg bigEndian) (behind : Text)
    (short : message.bytes.length < 2147483648) :
    visitReply bigEndian peer localPid seq none sender state (message.bytes ++ behind) =
      if isReply bigEndian peer localPid seq sender message.bytes &&
          endsTalk bigEndian state.1 message.bytes then
        (fun result => .leave (result.1, (result.2, state.2))) <$> verdict bigEndian state.1 message.bytes
      else .ok (.next state) := by
  have complete : 16 ≤ message.bytes.length := message.complete
  have header : 16 ≤ (message.bytes ++ behind).length := by
    rw [List.length_append]
    omega
  have type : nlmsgType bigEndian (message.bytes ++ behind) =
      .ok (typeOfMessage bigEndian message.bytes) :=
    (readNum_message message behind (by decide)).trans (nlmsgType_message message)
  have length : nlmsgLen bigEndian (message.bytes ++ behind) = .ok message.bytes.length :=
    (readNum_message message behind (by decide)).trans (nlmsgLen_message message)
  have test := cutOff_iff complete short
  unfold visitReply
  rw [noReply_eq header, isReply_append complete, type, length, copyAnswer_message]
  cases isReply bigEndian peer localPid seq sender message.bytes with
  | false =>
      rw [Checked.ok_bind, if_pos Bool.not_false, Bool.false_and, if_neg Bool.false_ne_true]
      rfl
  | true =>
      rw [Checked.ok_bind, if_neg (ne_of_eq_of_ne Bool.not_true Bool.false_ne_true), Bool.true_and,
        Checked.ok_bind, Checked.ok_bind]
      by_cases isError : typeOfMessage bigEndian message.bytes = nlmsgError
      · have ends : endsTalk bigEndian state.1 message.bytes = true := by simp [endsTalk, isError]
        rw [if_pos isError, if_pos ends]
        by_cases cutOff : message.bytes.length < 36
        · rw [if_pos (test.mpr cutOff), verdict, if_pos ⟨isError, .inl cutOff⟩]
          rfl
        · have whole : 16 + 4 ≤ message.bytes.length := by omega
          have error : readNum bigEndian (message.bytes ++ behind) 16 4 =
              .ok (errorOf bigEndian message.bytes) :=
            (readNum_append (by omega) behind).trans (readNum_inside whole)
          rw [if_neg (mt test.mp cutOff), error, Checked.ok_bind]
          by_cases failed : errorOf bigEndian message.bytes ≠ 0
          · rw [if_pos failed, verdict, if_pos ⟨isError, .inr failed⟩]
            rfl
          · rw [if_neg failed, verdict, if_neg fun both => both.2.elim cutOff failed]
            cases answered state.1 message.bytes <;> rfl
      · rw [if_neg isError]
        by_cases wanted : state.1.isSome = true
        · have ends : endsTalk bigEndian state.1 message.bytes = true := by simp [endsTalk, wanted]
          rw [if_pos wanted, if_pos ends, verdict, if_neg fun both => isError both.1]
          cases answered state.1 message.bytes <;> rfl
        · have ends : ¬ endsTalk bigEndian state.1 message.bytes = true := by
            simp [endsTalk, isError, wanted]
          rw [if_neg wanted, if_neg ends]
          rfl

/-- What a talk comes to with the reply that ends it. -/
def talkOutcome (bigEndian : Bool) (answer : Option (CharArray size)) (kept : σ) :
    Option (Nat × Framing.Record nlmsg bigEndian) → Checked (Outcome (Option (CharArray size) × σ))
  | none => .ok (.waiting (answer, kept))
  | some reply =>
      (fun result => .returned result.1 (result.2, kept)) <$> verdict bigEndian answer reply.2.bytes

/-- A message that ends a talk. -/
def isVerdict (bigEndian : Bool) (peer localPid seq : Nat) (answer : Option (CharArray size))
    (sent : Nat × Framing.Record nlmsg bigEndian) : Bool :=
  isReply bigEndian peer localPid seq sent.1 sent.2.bytes && endsTalk bigEndian answer sent.2.bytes

theorem visitAll_visitReply {messages : List (Nat × Framing.Record nlmsg bigEndian)}
    (short : ∀ sent ∈ messages, sent.2.bytes.length < 2147483648) (answer : Option (CharArray size))
    (kept : σ) :
    outcomeOf <$> visitAll (fun state (sent : Nat × Framing.Record nlmsg bigEndian) =>
        visitReply bigEndian peer localPid seq none sent.1 state sent.2.bytes) (answer, kept) messages =
      talkOutcome bigEndian answer kept
        (messages.find? (isVerdict bigEndian peer localPid seq answer)) := by
  induction messages with
  | nil => rfl
  | cons sent messages inductionHypothesis =>
      have turn : visitReply bigEndian peer localPid seq none sent.1 (answer, kept) sent.2.bytes =
          if isVerdict bigEndian peer localPid seq answer sent then
            (fun result => .leave (result.1, (result.2, kept))) <$> verdict bigEndian answer sent.2.bytes
          else .ok (.next (answer, kept)) := by
        have alone := @visitReply_message bigEndian σ size peer localPid seq sent.1 (answer, kept)
          sent.2 [] (short sent (.head messages))
        rw [List.append_nil] at alone
        exact alone
      rw [visitAll, turn, List.find?_cons]
      by_cases ends : isVerdict bigEndian peer localPid seq answer sent = true
      · rw [if_pos ends, ends]
        simp only [talkOutcome]
        cases verdict bigEndian answer sent.2.bytes <;> rfl
      · rw [if_neg ends, Bool.eq_false_iff.mpr ends]
        exact inductionHypothesis fun sent later => short sent (.tail _ later)

theorem visitReply_readsAs {sender : Nat} {sent : List (Framing.Record nlmsg bigEndian)}
    (short : ∀ message ∈ sent, message.bytes.length < 2147483648) :
    ReadsAs (inDatagram bigEndian (visitReply bigEndian peer localPid seq (none : Option (Filter σ))))
      (fun sender (state : Option (CharArray size) × σ) message =>
        visitReply bigEndian peer localPid seq none sender state message.bytes) sender sent := by
  refine inDatagram_readsAs short fun state message inSent behind => ?_
  have alone := @visitReply_message bigEndian σ size peer localPid seq sender state message []
    (short message inSent)
  rw [List.append_nil] at alone
  rw [visitReply_message sender state message behind (short message inSent), alone]

/-- A talk comes to what the first reply says that can end it, as long as no datagram is longer
than the buffer. It does not matter what other messages arrive, which of them share a
datagram and how often receiving is interrupted. -/
theorem rtnlTalk_firstReply {arrivals : List (Arrival bigEndian)}
    (fits : ∀ arrival ∈ arrivals, arrival.Fits dumpBuffer)
    (answer : Option (CharArray size)) (kept : σ) :
    Prod.fst <$> rtnlTalk bigEndian peer localPid seq none (answer, kept)
        (arrivals.map Arrival.received) =
      talkOutcome bigEndian answer kept ((arrivals.flatMap Arrival.senders).find?
        (isVerdict bigEndian peer localPid seq answer)) := by
  have short := Arrival.Fits.short fits (by decide)
  have room : ∀ arrival ∈ arrivals, arrival.Fits (List.replicate dumpBuffer (0 : Byte)).length := by
    rwa [List.length_replicate]
  have reads : ∀ sender sent some, .messages sender sent some ∈ arrivals →
      ReadsAs (inDatagram bigEndian (visitReply bigEndian peer localPid seq (none : Option (Filter σ))))
        (fun sender (state : Option (CharArray size) × σ) message =>
          visitReply bigEndian peer localPid seq none sender state message.bytes) sender sent :=
    fun sender sent some listed => visitReply_readsAs fun message inSent =>
      short (sender, message) (List.mem_flatMap.mpr ⟨_, listed, List.mem_map_of_mem inSent⟩)
  have visits := @converse_visitAll bigEndian (Option (CharArray size) × σ)
    (fun sender state message => visitReply bigEndian peer localPid seq none sender state message.bytes)
    (answer, kept) arrivals
  rw [← visitAll_visitReply short, ← visits, rtnlTalk, receiveAll_converse _ _ room reads]
  cases converse (fun sender (state : Option (CharArray size) × σ) message =>
    visitReply bigEndian peer localPid seq none sender state message.bytes) (answer, kept) arrivals <;> rfl

/-- The reply is copied over the answer, behind a datagram of other messages. -/
theorem rtnlTalk_firstReply_answer :
    Prod.fst <$> rtnlTalk false 0 1 7 none (some (CharArray.zero 32), ())
        ([.messages 5 [doneMessage] (by decide), .interrupted eintr (.inl rfl),
          .messages 0 [doneMessage] (by decide)].map Arrival.received) =
      talkOutcome false (some (CharArray.zero 32)) () (some (0, doneMessage)) :=
  @rtnlTalk_firstReply false Unit 32 0 1 7 [.messages 5 [doneMessage] (by decide),
    .interrupted eintr (.inl rfl), .messages 0 [doneMessage] (by decide)]
    (forall_mem_of_all (by decide)) (some (CharArray.zero 32)) ()

end Replies

end Libamg.Netlink
