import Libamg.C.Records

/-!
# Reading a dump

`rtnl_dump_filter`: datagrams are received into a buffer, which cuts those that are longer
and keeps what the last one did not overwrite, and the messages in each are given to a
filter or, where they do not belong to the dump, to `junk`. A dump that ends is the loop of
the filter over the messages that belong to it (`dumpMessages_dumped`), and whatever the
datagrams hold, only a filter can leave the buffer (`dumpFilter_returns`).
-/

namespace Libamg.Netlink

open C

/-- `struct nlmsghdr`, with `NLMSG_OK` and `NLMSG_NEXT`. -/
def nlmsg : Framing where
  width := 4
  header := 16
  counted := by decide
  positive := by decide

def nlmsgError : Nat := 2
def nlmsgDone : Nat := 3

def eintr : Nat := 4
def eagain : Nat := 11

/-- The fields of `struct rtnl_handle` that tell the messages of a dump from others. -/
structure Handle where
  localPid : Nat
  dump : Nat

/-- What `recvmsg` finds: an error, or a datagram, for which `truncated` is `MSG_TRUNC` even
if the buffer has room for it. A datagram of no bytes is the end of the socket. -/
inductive Received where
  | failed (errno : Nat)
  | datagram (sender : Nat) (bytes : Text) (truncated : Bool)

/-- A filter for messages: the sender, the message and its own state. -/
abbrev Filter (σ : Type) := Nat → Text → σ → Checked (Int × σ)

/-- What comes of reading a dump; `waiting` is for more datagrams. -/
inductive Outcome (σ : Type) where
  | returned (status : Int) (state : σ)
  | exited (status : Nat) (state : σ)
  | waiting (state : σ)

/-- `sizeof(buf)` in `rtnl_dump_filter` and in `rtnl_talk`. -/
def dumpBuffer : Nat := 16384

/-- `sizeof(buf)` in `rtnl_listen`. -/
def listenBuffer : Nat := 8192

/-- A buffer with a datagram in it, of which only what there is room for is received. -/
def receiveInto (buf bytes : Text) : Text := bytes.take buf.length ++ buf.drop bytes.length

@[simp] theorem length_receiveInto (buf bytes : Text) :
    (receiveInto buf bytes).length = buf.length := by
  rw [receiveInto, List.length_append, List.length_take, List.length_drop]
  omega

theorem receiveInto_of_le {buf bytes : Text} (room : bytes.length ≤ buf.length) :
    receiveInto buf bytes = bytes ++ buf.drop bytes.length := by
  rw [receiveInto, List.take_of_length_le room]

theorem truncated_of_le {buf bytes : Text} (room : bytes.length ≤ buf.length) (truncated : Bool) :
    (truncated || decide (buf.length < bytes.length)) = truncated := by
  rw [decide_eq_false (Nat.not_lt.mpr room), Bool.or_false]

section Functions

variable (bigEndian : Bool) {σ : Type}

def nlmsgLen (h : Text) : Checked Nat := readNum bigEndian h 0 4
def nlmsgType (h : Text) : Checked Nat := readNum bigEndian h 4 2
def nlmsgSeq (h : Text) : Checked Nat := readNum bigEndian h 8 4
def nlmsgPid (h : Text) : Checked Nat := readNum bigEndian h 12 4

/-- The message does not belong to the dump. -/
def foreign (handle : Handle) (sender : Nat) (h : Text) : Checked Bool :=
  if sender ≠ 0 then return true
  else do
    let pid ← nlmsgPid bigEndian h
    if pid ≠ handle.localPid then return true
    else
      let seq ← nlmsgSeq bigEndian h
      return seq ≠ handle.dump

/-- What the loop over the messages does after a filter. -/
def afterFilter : Int × σ → Turn σ (Int × σ)
  | (err, state) => if err < 0 then .leave (err, state) else .next state

/-- The body of the loop over the messages of a datagram. -/
def visitMessage (handle : Handle) (filter : Filter σ) (junk : Option (Filter σ)) (sender : Nat)
    (state : σ) (h : Text) : Checked (Turn σ (Int × σ)) := do
  if ← foreign bigEndian handle sender h then
    match junk with
    | none => return .next state
    | some junk => return afterFilter (← junk sender h state)
  else
    let type ← nlmsgType bigEndian h
    if type = nlmsgDone then return .leave (0, state)
    else if type = nlmsgError then
      let len ← nlmsgLen bigEndian h
      -- The error of a whole message goes to `errno`.
      if len < 36 then return .leave (-1, state)
      else
        let _ ← readNum bigEndian h 16 4
        return .leave (-1, state)
    else return afterFilter (← filter sender h state)

/-- `rtnl_dump_filter`, with the bytes in its buffer and what it is going to receive. -/
def dumpFilter (handle : Handle) (filter : Filter σ) (junk : Option (Filter σ)) :
    Text → σ → List Received → Checked (Outcome σ)
  | _, state, [] => return .waiting state
  | buf, state, .failed errno :: later =>
      if errno = eintr ∨ errno = eagain then dumpFilter handle filter junk buf state later
      else return .returned (-1) state
  | buf, state, .datagram sender bytes truncated :: later =>
      let status := min bytes.length buf.length
      if status = 0 then return .returned (-1) state
      else do
        let truncated := truncated || buf.length < bytes.length
        let buf := receiveInto buf bytes
        let turn ← nlmsg.walk bigEndian (visitMessage bigEndian handle filter junk sender) state buf
          status
        match turn with
        | .leave (status, state) => return .returned status state
        | .next (state, _, left) =>
            if truncated then dumpFilter handle filter junk buf state later
            else if left ≠ 0 then return .exited 1 state
            else dumpFilter handle filter junk buf state later

/-- Where the buffer has room for a datagram, this is received whole. -/
theorem dumpFilter_datagram (handle : Handle) (filter : Filter σ) (junk : Option (Filter σ))
    {buf bytes : Text} (room : bytes.length ≤ buf.length) (state : σ) (sender : Nat)
    (truncated : Bool) (later : List Received) :
    dumpFilter bigEndian handle filter junk buf state (.datagram sender bytes truncated :: later) =
      if bytes.length = 0 then .ok (.returned (-1) state)
      else
        nlmsg.walk bigEndian (visitMessage bigEndian handle filter junk sender) state
            (receiveInto buf bytes) bytes.length >>= fun
          | .leave (status, state) => .ok (.returned status state)
          | .next (state, _, left) =>
              if truncated then
                dumpFilter bigEndian handle filter junk (receiveInto buf bytes) state later
              else if left ≠ 0 then .ok (.exited 1 state)
              else dumpFilter bigEndian handle filter junk (receiveInto buf bytes) state later := by
  rw [dumpFilter, Nat.min_eq_left room, truncated_of_le room]
  rfl

end Functions

/-! ## Messages -/

section Messages

variable {bigEndian : Bool} {σ : Type}

/-- The filter looks at this message only, not at what lies behind it. -/
def LocalAt (filter : Filter σ) (sender : Nat) (message : Framing.Record nlmsg bigEndian) : Prop :=
  ∀ behind state, filter sender (message.bytes ++ behind) state = filter sender message.bytes state

/-- A message with a whole header does not belong to the dump. -/
def isForeign (bigEndian : Bool) (handle : Handle) (sender : Nat) (h : Text) : Bool :=
  if sender ≠ 0 then true
  else if loadNum bigEndian ((h.drop 12).take 4) ≠ handle.localPid then true
  else loadNum bigEndian ((h.drop 8).take 4) ≠ handle.dump

variable {handle : Handle} {filter : Filter σ} {junk : Option (Filter σ)}

theorem foreign_eq {sender : Nat} {h : Text} (header : 16 ≤ h.length) :
    foreign bigEndian handle sender h = .ok (isForeign bigEndian handle sender h) := by
  have pid := @readNum_inside bigEndian h 12 4 (by omega)
  have seq := @readNum_inside bigEndian h 8 4 (by omega)
  rw [foreign, nlmsgPid, nlmsgSeq, pid, seq, isForeign]
  split
  · rfl
  · rw [Checked.ok_bind]
    split
    · rfl
    · rfl

/-- A field of the header of a message. -/
theorem readNum_message (message : Framing.Record nlmsg bigEndian) (behind : Text) {offset width : Nat}
    (inHeader : offset + width ≤ 16) :
    readNum bigEndian (message.bytes ++ behind) offset width =
      readNum bigEndian message.bytes offset width := by
  have complete : 16 ≤ message.bytes.length := message.complete
  exact readNum_append (by omega) behind

theorem foreign_message (message : Framing.Record nlmsg bigEndian) (behind : Text) (sender : Nat) :
    foreign bigEndian handle sender (message.bytes ++ behind) =
      foreign bigEndian handle sender message.bytes := by
  rw [foreign, foreign, nlmsgPid, nlmsgPid, nlmsgSeq, nlmsgSeq,
    readNum_message message behind (by decide), readNum_message message behind (by decide)]

/-- The length of a message is the number of its bytes. -/
theorem nlmsgLen_message (message : Framing.Record nlmsg bigEndian) :
    nlmsgLen bigEndian message.bytes = .ok message.bytes.length := by
  have complete : 16 ≤ message.bytes.length := message.complete
  have counted : loadNum bigEndian (message.bytes.take 4) = message.bytes.length := message.counted
  have inside : 0 + 4 ≤ message.bytes.length := by omega
  rw [nlmsgLen, readNum_inside inside, List.drop_zero, counted]

/-- With such filters the loop looks at the messages only. -/
theorem visitMessage_local {sender : Nat} {message : Framing.Record nlmsg bigEndian}
    (filterLocal : LocalAt filter sender message)
    (junkLocal : ∀ given ∈ junk, LocalAt given sender message) (state : σ) (behind : Text) :
    visitMessage bigEndian handle filter junk sender state (message.bytes ++ behind) =
      visitMessage bigEndian handle filter junk sender state message.bytes := by
  have type : nlmsgType bigEndian (message.bytes ++ behind) = nlmsgType bigEndian message.bytes :=
    readNum_message message behind (by decide)
  have len : nlmsgLen bigEndian (message.bytes ++ behind) = nlmsgLen bigEndian message.bytes :=
    readNum_message message behind (by decide)
  have error (long : ¬ message.bytes.length < 36) :
      readNum bigEndian (message.bytes ++ behind) 16 4 = readNum bigEndian message.bytes 16 4 :=
    readNum_append (by omega) behind
  unfold visitMessage
  rw [foreign_message message behind sender, type, len, nlmsgLen_message message]
  simp only [Checked.ok_bind, filterLocal behind state]
  congr 1
  funext isForeign
  cases isForeign with
  | true =>
      cases junk with
      | none => rfl
      | some given =>
          simp only [if_true, junkLocal given rfl behind state]
  | false =>
      simp only [Bool.false_eq_true, if_false]
      congr 1
      funext found
      split
      · rfl
      · split
        · split
          · rfl
          · rename_i long
            rw [error long]
        · rfl

/-- What arrives in a dump: an interruption, or messages from a sender. -/
inductive Arrival (bigEndian : Bool) where
  | interrupted (errno : Nat) (again : errno = eintr ∨ errno = eagain)
  | messages (sender : Nat) (messages : List (Framing.Record nlmsg bigEndian)) (some : messages ≠ [])

namespace Arrival

/-- The datagram as it is sent, whose messages all end on a boundary. -/
def received : Arrival bigEndian → Received
  | interrupted errno _ => .failed errno
  | messages sender sent _ => .datagram sender (Framing.layout sent) false

/-- The datagram is not longer than the buffer. -/
def Fits (size : Nat) : Arrival bigEndian → Prop
  | interrupted _ _ => True
  | messages _ sent _ => (Framing.layout sent).length ≤ size

instance (size : Nat) (arrival : Arrival bigEndian) : Decidable (arrival.Fits size) :=
  match arrival with
  | interrupted _ _ => .isTrue trivial
  | messages _ _ _ => Nat.decLe _ _

/-- The messages that arrive, each with its sender. -/
def senders : Arrival bigEndian → List (Nat × Framing.Record nlmsg bigEndian)
  | interrupted _ _ => []
  | messages sender sent _ => sent.map fun message => (sender, message)

end Arrival

/-- The loop over messages, without the datagrams. -/
def dumpMessages (handle : Handle) (filter : Filter σ) (junk : Option (Filter σ)) (state : σ)
    (messages : List (Nat × Framing.Record nlmsg bigEndian)) : Checked (Outcome σ) := do
  let turn ← visitAll (fun state message =>
    visitMessage bigEndian handle filter junk message.1 state message.2.bytes) state messages
  match turn with
  | .leave (status, state) => return .returned status state
  | .next state => return .waiting state

theorem visitAll_map {α β ρ : Type} (visit : σ → β → Checked (Turn σ ρ)) (f : α → β) (state : σ)
    (items : List α) :
    visitAll visit state (items.map f) = visitAll (fun state item => visit state (f item)) state items := by
  induction items generalizing state with
  | nil => rfl
  | cons item items inductionHypothesis =>
      rw [List.map_cons, visitAll, visitAll]
      cases visit state (f item) with
      | error fault => rfl
      | ok turn =>
          cases turn with
          | leave result => rfl
          | next state => exact inductionHypothesis state

theorem layout_ne_nil {messages : List (Framing.Record nlmsg bigEndian)} (some : messages ≠ []) :
    (Framing.layout messages).length ≠ 0 := by
  cases messages with
  | nil => exact absurd rfl some
  | cons message messages =>
      have complete : 16 ≤ message.bytes.length := message.complete
      have padded := le_align4 message.bytes.length
      rw [Framing.layout_cons_length]
      omega

/-- The type of a message with a whole header. -/
def typeOfMessage (bigEndian : Bool) (bytes : Text) : Nat := loadNum bigEndian ((bytes.drop 4).take 2)

/-- The messages of a dump up to the one that ends it, and whether that is `NLMSG_DONE`. -/
def dumped {α : Type} (recordOf : α → Framing.Record nlmsg bigEndian) (handle : Handle) :
    List (Nat × α) → List α × Option Bool
  | [] => ([], none)
  | (sender, message) :: later =>
      if isForeign bigEndian handle sender (recordOf message).bytes then dumped recordOf handle later
      else if typeOfMessage bigEndian (recordOf message).bytes = nlmsgDone then ([], some true)
      else if typeOfMessage bigEndian (recordOf message).bytes = nlmsgError then ([], some false)
      else (message :: (dumped recordOf handle later).1, (dumped recordOf handle later).2)

/-- What comes of a dump whose messages are read, with `NLMSG_DONE` behind them or without. -/
def atEnd (complete : Bool) : Turn σ (Int × σ) → Outcome σ
  | .leave (status, state) => .returned status state
  | .next state => .returned (if complete then 0 else -1) state

theorem nlmsgType_message (message : Framing.Record nlmsg bigEndian) :
    nlmsgType bigEndian message.bytes = .ok (typeOfMessage bigEndian message.bytes) := by
  have complete : 16 ≤ message.bytes.length := message.complete
  have inside : 4 + 2 ≤ message.bytes.length := by omega
  exact readNum_inside inside

/-- What a turn of the loop over the messages is without `junk`. -/
theorem visitMessage_message (sender : Nat) (state : σ) (message : Framing.Record nlmsg bigEndian) :
    visitMessage bigEndian handle filter none sender state message.bytes =
      if isForeign bigEndian handle sender message.bytes then .ok (.next state)
      else if typeOfMessage bigEndian message.bytes = nlmsgDone then .ok (.leave (0, state))
      else if typeOfMessage bigEndian message.bytes = nlmsgError then .ok (.leave (-1, state))
      else afterFilter <$> filter sender message.bytes state := by
  have complete : 16 ≤ message.bytes.length := message.complete
  unfold visitMessage
  rw [foreign_eq complete, Checked.ok_bind, nlmsgType_message, nlmsgLen_message]
  split
  · rfl
  · simp only [Checked.ok_bind]
    split
    · rfl
    · split
      · by_cases short : message.bytes.length < 36
        · rw [if_pos short]
          rfl
        · have whole : 16 + 4 ≤ message.bytes.length := by omega
          rw [if_neg short, readNum_inside whole]
          rfl
      · rfl

/-- A filter that does not fault takes the loop to the next message, or leaves it. -/
theorem visitAll_filtered {α : Type} {each : σ → α → Checked (Int × σ)} {state next : σ} {message : α}
    {err : Int} (filtered : each state message = .ok (err, next)) (later : List α) :
    visitAll (fun state message => afterFilter <$> each state message) state (message :: later) =
      if err < 0 then .ok (.leave (err, next))
      else visitAll (fun state message => afterFilter <$> each state message) next later := by
  rw [visitAll, filtered, map_eq_pure_bind, Checked.ok_bind, pure_bind, afterFilter]
  by_cases failed : err < 0
  · rw [if_pos failed, if_pos failed]
  · rw [if_neg failed, if_neg failed]

/-- Messages of other senders are foreign. -/
theorem sender_eq_zero {sender : Nat} {h : Text} (belongs : ¬ isForeign bigEndian handle sender h = true) :
    sender = 0 := by
  by_contra other
  rw [isForeign, if_pos other] at belongs
  exact belongs rfl

/-- A dump that ends is the loop of the filter over the messages that belong to it. -/
theorem dumpMessages_dumped {α : Type} (recordOf : α → Framing.Record nlmsg bigEndian)
    {messages : List (Nat × α)} {complete : Bool}
    (ends : (dumped recordOf handle messages).2 = some complete) (state : σ) :
    dumpMessages handle filter none state (messages.map fun sent => (sent.1, recordOf sent.2)) =
      atEnd complete <$>
        visitAll (fun state message => afterFilter <$> filter 0 (recordOf message).bytes state) state
          (dumped recordOf handle messages).1 := by
  rw [dumpMessages, visitAll_map]
  induction messages generalizing state with
  | nil => cases ends
  | cons sent later inductionHypothesis =>
      obtain ⟨sender, message⟩ := sent
      rw [visitAll, visitMessage_message]
      rw [dumped] at ends ⊢
      split at ends
      · rename_i isForeign
        rw [if_pos isForeign, if_pos isForeign]
        exact inductionHypothesis ends state
      · rename_i belongs
        rw [if_neg belongs, if_neg belongs]
        split at ends
        · rename_i done
          cases ends
          rw [if_pos done, if_pos done]
          rfl
        · rename_i notDone
          rw [if_neg notDone, if_neg notDone]
          split at ends
          · rename_i error
            cases ends
            rw [if_pos error, if_pos error]
            rfl
          · rename_i noError
            cases sender_eq_zero belongs
            rw [if_neg noError, if_neg noError, visitAll]
            cases filter 0 (recordOf message).bytes state with
            | error fault => rfl
            | ok result =>
                cases turn : afterFilter result with
                | leave left =>
                    rw [map_eq_pure_bind, Checked.ok_bind, pure_bind, turn]
                    rfl
                | next state =>
                    rw [map_eq_pure_bind, Checked.ok_bind, pure_bind, turn]
                    exact inductionHypothesis ends state

/-- The end of a dump that was asked for as the seventh request. -/
def doneMessage : Framing.Record nlmsg false where
  bytes := [20, 0, 0, 0, 3, 0, 2, 0, 7, 0, 0, 0, 1, 0, 0, 0, 0, 0, 0, 0]
  padding := []
  complete := by decide
  counted := by decide
  padded := by decide

theorem doneMessage_int : doneMessage.bytes.length < 2147483648 := by decide

end Messages

/-! ## Any bytes -/

section Returns

variable {bigEndian : Bool} {σ : Type} {handle : Handle} {filter : Filter σ}
  {junk : Option (Filter σ)} {margin : Nat}

/-- The filter does not leave memory that holds a whole message and `margin` bytes more. -/
def Safe (bigEndian : Bool) (margin : Nat) (filter : Filter σ) : Prop :=
  ∀ sender h length state, nlmsgLen bigEndian h = .ok length → 16 ≤ length →
    length + margin ≤ h.length → ∃ result, filter sender h state = .ok result

theorem visitMessage_returns (filterSafe : Safe bigEndian margin filter)
    (junkSafe : ∀ given ∈ junk, Safe bigEndian margin given) (sender : Nat) (state : σ) {h : Text}
    {length : Nat} (counted : nlmsgLen bigEndian h = .ok length) (header : 16 ≤ length)
    (inside : length + margin ≤ h.length) :
    ∃ turn, visitMessage bigEndian handle filter junk sender state h = .ok turn := by
  have field {offset width : Nat} (inHeader : offset + width ≤ 16) :
      ∃ value, readNum bigEndian h offset width = .ok value :=
    ⟨_, readNum_inside (by omega)⟩
  obtain ⟨type, typeRead⟩ := @field 4 2 (by decide)
  unfold visitMessage
  rw [foreign_eq (by omega), nlmsgType, typeRead, counted]
  cases isForeign bigEndian handle sender h with
  | true =>
      cases junk with
      | none => exact ⟨.next state, rfl⟩
      | some given =>
          obtain ⟨result, filtered⟩ := junkSafe given rfl sender h length state counted header inside
          simp only [Checked.ok_bind, if_true, filtered]
          exact ⟨_, rfl⟩
  | false =>
      obtain ⟨result, filtered⟩ := filterSafe sender h length state counted header inside
      simp only [Checked.ok_bind, Bool.false_eq_true, if_false, filtered]
      by_cases done : type = nlmsgDone
      · rw [if_pos done]
        exact ⟨_, rfl⟩
      · rw [if_neg done]
        by_cases error : type = nlmsgError
        · rw [if_pos error]
          by_cases short : length < 36
          · rw [if_pos short]
            exact ⟨_, rfl⟩
          · have whole : 16 + 4 ≤ h.length := by omega
            rw [if_neg short, readNum_inside whole]
            exact ⟨_, rfl⟩
        · rw [if_neg error]
          exact ⟨_, rfl⟩

/-- Whatever is received, only a filter can leave the buffer, and none does that needs no more
bytes behind a message than are left behind the longest datagram. -/
theorem dumpFilter_returns (filterSafe : Safe bigEndian margin filter)
    (junkSafe : ∀ given ∈ junk, Safe bigEndian margin given) (received : List Received) (buf : Text)
    (fits : ∀ sender bytes truncated, Received.datagram sender bytes truncated ∈ received →
      bytes.length + margin ≤ buf.length) (state : σ) :
    ∃ outcome, dumpFilter bigEndian handle filter junk buf state received = .ok outcome := by
  induction received generalizing buf state with
  | nil => exact ⟨.waiting state, rfl⟩
  | cons first later inductionHypothesis =>
      cases first with
      | failed errno =>
          rw [dumpFilter]
          split
          · exact inductionHypothesis buf (fun sender bytes truncated listed =>
              fits sender bytes truncated (.tail _ listed)) state
          · exact ⟨_, rfl⟩
      | datagram sender bytes truncated =>
          have room := fits sender bytes truncated (.head later)
          have length := length_receiveInto buf bytes
          have inside : (bytes.length : Int) ≤ (receiveInto buf bytes).length := by omega
          obtain ⟨pointers, rest, after, chain⟩ :=
            @Framing.exists_chain nlmsg bigEndian (receiveInto buf bytes) bytes.length inside
          have visits : ∀ state, ∀ h ∈ pointers,
              ∃ turn, visitMessage bigEndian handle filter junk sender state h = .ok turn := by
            intro state h listed
            obtain ⟨offset, dropped, -, header, counted, bounded⟩ := chain.pointer inside listed
            have header : 16 ≤ (nlmsg.recordAt bigEndian h).length := header
            have counted : loadNum bigEndian (h.take 4) = (nlmsg.recordAt bigEndian h).length := counted
            have whole : (nlmsg.recordAt bigEndian h).length + margin ≤ h.length := by
              rw [dropped, List.length_drop, ← dropped]
              omega
            have within : 0 + 4 ≤ h.length := by omega
            have read : nlmsgLen bigEndian h = .ok (nlmsg.recordAt bigEndian h).length := by
              rw [nlmsgLen, readNum_inside within, List.drop_zero, counted]
            exact visitMessage_returns filterSafe junkSafe sender state read header whole
          obtain ⟨turn, visited⟩ := visitAll_returns visits state
          have others (state : σ) := inductionHypothesis (receiveInto buf bytes)
            (fun sender bytes truncated listed => by
              rw [length]
              exact fits sender bytes truncated (.tail _ listed)) state
          rw [dumpFilter_datagram bigEndian handle filter junk (by omega)]
          split
          · exact ⟨_, rfl⟩
          · simp only [Framing.walk_chain chain, visited, Checked.ok_bind]
            cases turn with
            | leave result => exact ⟨_, rfl⟩
            | next state =>
                simp only [Checked.ok_bind]
                split
                · exact others state
                · split
                  · exact ⟨_, rfl⟩
                  · exact others state

end Returns

end Libamg.Netlink
