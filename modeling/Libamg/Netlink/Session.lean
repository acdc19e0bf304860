import Libamg.Netlink.Build
import Libamg.Netlink.Receive

/-!
# Requests over one socket

A handle numbers its requests, and a call may leave messages behind that it did not read.
As long as the numbers do not repeat, and the kernel's messages carry the number of a
request that it was sent and come in datagrams that the buffers have room for, what is left
behind changes nothing: in any run of talks and dumps each call comes to what it would on an
empty socket (`sessionRun_drained`).
-/

namespace Libamg.Netlink

open C

def nlmFAck : UInt16 := 4

/-- `NLM_F_ROOT|NLM_F_MATCH|NLM_F_REQUEST`. -/
def dumpFlags : UInt16 := 0x301

/-- A message to be sent; `nlmsg_len` counts the header and the payload. -/
structure Request where
  type : UInt16
  flags : UInt16
  seq : Nat
  pid : Nat
  payload : Text

/-- `struct rtnl_handle` without the sockets. -/
structure RtnlHandle where
  localPid : Nat
  seq : Nat
  dump : Nat

/-- The kernel: what arrives behind the last of the requests that were sent. -/
abbrev Kernel (bigEndian : Bool) := List Request → List (Arrival bigEndian)

/-- The handle, all that was sent, and what is still to be received. -/
structure Session where
  handle : RtnlHandle
  sent : List Request
  queue : List Received

/-- A call of `rtnl_talk` to the kernel, or a dump: its request, and the filter with its
argument. The buffer of a dump is not initialised. -/
inductive SessionCall (size : Nat) (σ : Type) where
  | talk (n : Request) (answer : Option (CharArray size))
  | dump (family : Byte) (type : UInt16) (buf : CharArray dumpBuffer) (filter : Filter σ) (arg : σ)

inductive SessionAnswer (size : Nat) (σ : Type) where
  | talked (outcome : Outcome (Option (CharArray size) × Unit))
  | dumped (outcome : Outcome σ)

section Functions

variable {bigEndian : Bool} {size : Nat} {σ : Type}

def Outcome.isReturned : Outcome σ → Bool
  | returned _ _ => true
  | _ => false

def SessionAnswer.isReturned : SessionAnswer size σ → Bool
  | talked outcome => outcome.isReturned
  | dumped outcome => outcome.isReturned

/-- The request of `rtnl_talk`. -/
def talkRequest (n : Request) (seq : Nat) (answer : Option (CharArray size)) : Request :=
  { n with seq := seq, flags := if answer.isNone then n.flags ||| nlmFAck else n.flags }

/-- The request of `rtnl_wilddump_request`. -/
def wilddumpRequest (family : Byte) (type : UInt16) (seq : Nat) : Request :=
  ⟨type, dumpFlags, seq, 0, [family, 0, 0, 0]⟩

variable (kernel : Kernel bigEndian)

/-- A request is sent, and the kernel's messages wait behind the others. -/
def Session.send (session : Session) (handle : RtnlHandle) (request : Request) : Session where
  handle := handle
  sent := session.sent ++ [request]
  queue := session.queue ++ (kernel (session.sent ++ [request])).map Arrival.received

/-- `rtnl_talk` without `junk`, or `rtnl_wilddump_request` with `rtnl_dump_filter`. -/
def sessionStep (session : Session) :
    SessionCall size σ → Checked (SessionAnswer size σ × Session)
  | .talk n answer => do
      let handle := { session.handle with seq := wrap32 (session.handle.seq + 1) }
      let session := session.send kernel handle (talkRequest n handle.seq answer)
      let (outcome, queue) ← rtnlTalk bigEndian 0 handle.localPid handle.seq none
        (answer, ()) session.queue
      return (.talked outcome, { session with queue := queue })
  | .dump family type buf filter arg => do
      let seq := wrap32 (session.handle.seq + 1)
      let handle := { session.handle with seq := seq, dump := seq }
      let session := session.send kernel handle (wilddumpRequest family type handle.seq)
      let (outcome, queue) ← receiveAll
        (dumpDatagram bigEndian ⟨handle.localPid, handle.dump⟩ filter none) buf.bytes arg session.queue
      return (.dumped outcome, { session with queue := queue })

/-- The calls, for as long as they return, with something done to the session before each. -/
def sessionRun (between : Session → Session) :
    Session → List (SessionCall size σ) → Checked (List (SessionAnswer size σ))
  | _, [] => .ok []
  | session, call :: calls => do
      let (answer, next) ← sessionStep kernel (between session) call
      if answer.isReturned then
        let answers ← sessionRun between next calls
        return answer :: answers
      else return [answer]

/-- Nothing waits on the socket. -/
def Session.drained (session : Session) : Session := { session with queue := [] }

end Functions

/-! ## What the kernel sends -/

section Kernel

variable {bigEndian : Bool} {size : Nat} {σ : Type}

/-- The number in a message. -/
def seqOf (bigEndian : Bool) (h : Text) : Nat := loadNum bigEndian ((h.drop 8).take 4)

/-- Messages that the kernel sends to this socket carry the number of a request that was sent,
in datagrams that are no longer than the buffers. -/
structure Kernel.Replies (kernel : Kernel bigEndian) (localPid : Nat) : Prop where
  fits : ∀ sent, ∀ arrival ∈ kernel sent, arrival.Fits dumpBuffer
  numbered : ∀ sent, ∀ message ∈ (kernel sent).flatMap Arrival.senders, message.1 = 0 →
    loadNum bigEndian ((message.2.bytes.drop 12).take 4) = localPid →
    ∃ request ∈ sent, seqOf bigEndian message.2.bytes = request.seq

theorem Kernel.Replies.short {kernel : Kernel bigEndian} {localPid : Nat}
    (replies : kernel.Replies localPid) (sent : List Request) :
    ∀ message ∈ (kernel sent).flatMap Arrival.senders, message.2.bytes.length < 2147483648 :=
  Arrival.Fits.short (replies.fits sent) (by decide)

/-- A filter looks at the messages that the kernel sends, and not behind them. -/
def SessionCall.Local (kernel : Kernel bigEndian) : SessionCall size σ → Prop
  | talk _ _ => True
  | dump _ _ _ filter _ => ∀ sent, ∀ message ∈ (kernel sent).flatMap Arrival.senders,
      LocalAt filter message.1 message.2

theorem isReply_iff {peer localPid seq sender : Nat} {h : Text} :
    isReply bigEndian peer localPid seq sender h = true ↔
      sender = peer ∧ loadNum bigEndian ((h.drop 12).take 4) = localPid ∧ seqOf bigEndian h = seq := by
  simp [isReply, seqOf, and_assoc]

theorem isForeign_eq (localPid seq sender : Nat) (h : Text) :
    isForeign bigEndian ⟨localPid, seq⟩ sender h = !isReply bigEndian 0 localPid seq sender h := by
  by_cases sent : sender = 0
  · by_cases addressed : loadNum bigEndian ((h.drop 12).take 4) = localPid
    · simp [isForeign, isReply, sent, addressed]
    · simp [isForeign, isReply, sent, addressed]
  · simp [isForeign, isReply, sent]

end Kernel

/-! ## Messages that are passed over -/

section Converse

variable {bigEndian : Bool} {σ : Type}
  {each : Nat → σ → Framing.Record nlmsg bigEndian → Checked (Turn σ (Int × σ))}

/-- Messages that are passed over in front change nothing. -/
theorem converse_skip {old : List (Arrival bigEndian)} (state : σ)
    (passed : ∀ message ∈ old.flatMap Arrival.senders, ∀ state,
      each message.1 state message.2 = .ok (.next state)) (later : List (Arrival bigEndian)) :
    converse each state (old ++ later) = converse each state later := by
  induction old with
  | nil => rfl
  | cons arrival old inductionHypothesis =>
      rw [List.flatMap_cons] at passed
      have others := inductionHypothesis fun message listed =>
        passed message (List.mem_append_right _ listed)
      cases arrival with
      | interrupted errno again => exact others
      | messages sender sent some =>
          have visits : visitAll (each sender) state sent =
              .ok (.next (sent.foldl (fun state _ => state) state)) :=
            visitAll_next state fun state message listed =>
              passed (sender, message) (List.mem_append_left _ (List.mem_map_of_mem listed)) state
          have same (messages : List (Framing.Record nlmsg bigEndian)) :
              messages.foldl (fun state _ => state) state = state := by
            induction messages with
            | nil => rfl
            | cons message messages foldHypothesis => exact foldHypothesis
          rw [List.cons_append, converse, visits, same]
          exact others

/-- What a call leaves behind has arrived. -/
theorem converse_left {state : σ} {arrivals left : List (Arrival bigEndian)} {outcome : Outcome σ}
    (ended : converse each state arrivals = .ok (outcome, left)) :
    ∀ arrival ∈ left, arrival ∈ arrivals := by
  induction arrivals generalizing state with
  | nil =>
      cases ended
      exact fun arrival listed => listed
  | cons first arrivals inductionHypothesis =>
      intro arrival listed
      cases first with
      | interrupted errno again => exact .tail _ (inductionHypothesis ended arrival listed)
      | messages sender sent some =>
          obtain ⟨turn, -, returned⟩ := Checked.bind_eq_ok ended
          cases turn with
          | leave result =>
              cases returned
              exact .tail _ listed
          | next state => exact .tail _ (inductionHypothesis returned arrival listed)

variable {datagram : Nat → Text → Nat → Bool → σ → Checked (Turn σ (Outcome σ))} {state : σ}

/-- Whatever lies in the buffer. -/
theorem receiveAll_skip (buf : Text) {old later : List (Arrival bigEndian)}
    (fits : ∀ arrival ∈ old ++ later, arrival.Fits buf.length)
    (reads : ∀ sender sent some, .messages sender sent some ∈ old ++ later →
      ReadsAs datagram each sender sent)
    (passed : ∀ message ∈ old.flatMap Arrival.senders, ∀ state,
      each message.1 state message.2 = .ok (.next state)) :
    receiveAll datagram buf state (old.map Arrival.received ++ later.map Arrival.received) =
      receiveAll datagram buf state (later.map Arrival.received) := by
  rw [← List.map_append, receiveAll_converse buf state fits reads, converse_skip state passed,
    receiveAll_converse buf state (fun arrival listed => fits arrival (List.mem_append_right _ listed))
      fun sender sent some listed => reads sender sent some (List.mem_append_right _ listed)]

theorem receiveAll_left {buf : Text} {arrivals : List (Arrival bigEndian)} {queue : List Received}
    {outcome : Outcome σ} (fits : ∀ arrival ∈ arrivals, arrival.Fits buf.length)
    (reads : ∀ sender sent some, .messages sender sent some ∈ arrivals →
      ReadsAs datagram each sender sent)
    (ended : receiveAll datagram buf state (arrivals.map Arrival.received) = .ok (outcome, queue)) :
    ∃ left : List (Arrival bigEndian), queue = left.map Arrival.received ∧
      ∀ arrival ∈ left, arrival ∈ arrivals := by
  rw [receiveAll_converse buf state fits reads] at ended
  cases found : converse each state arrivals with
  | error fault =>
      rw [found] at ended
      cases ended
  | ok result =>
      obtain ⟨last, left⟩ := result
      rw [found] at ended
      cases ended
      exact ⟨left, rfl, converse_left found⟩

end Converse

/-! ## Runs -/

section Runs

variable {bigEndian : Bool} {size : Nat} {σ : Type} {kernel : Kernel bigEndian}
  {start localPid : Nat} {session next : Session}

/-- The requests have numbers one behind the other, and what waits was sent by the kernel
behind some of them. -/
structure Remembers (kernel : Kernel bigEndian) (start localPid : Nat) (session : Session) : Prop where
  owner : session.handle.localPid = localPid
  counted : wrap32 session.handle.seq = wrap32 (start + session.sent.length)
  numbered : ∀ request ∈ session.sent, ∃ number, 1 ≤ number ∧ number ≤ session.sent.length ∧
    request.seq = wrap32 (start + number)
  waiting : ∃ old : List (Arrival bigEndian), session.queue = old.map Arrival.received ∧
    ∀ arrival ∈ old, ∃ sent, arrival ∈ kernel sent ∧ ∀ request ∈ sent, request ∈ session.sent

namespace Remembers

/-- What waits is no reply to the next request. -/
theorem stale (remembers : Remembers kernel start localPid session)
    (replies : kernel.Replies localPid) (few : session.sent.length < 4294967296)
    {sent : List Request} (earlier : ∀ request ∈ sent, request ∈ session.sent)
    {message : Nat × Framing.Record nlmsg bigEndian}
    (listed : message ∈ (kernel sent).flatMap Arrival.senders) :
    isReply bigEndian 0 localPid (wrap32 (session.handle.seq + 1)) message.1 message.2.bytes = false := by
  rw [Bool.eq_false_iff]
  intro reply
  obtain ⟨fromKernel, addressed, number⟩ := isReply_iff.mp reply
  obtain ⟨request, requested, same⟩ := replies.numbered sent message listed fromKernel addressed
  obtain ⟨position, first, last, counted⟩ := remembers.numbered request (earlier request requested)
  have count := remembers.counted
  rw [same, counted] at number
  unfold wrap32 at number count
  omega

/-- Behind a call, which leaves some of what the kernel sent to it. -/
theorem step (remembers : Remembers kernel start localPid session) {handle : RtnlHandle}
    {request : Request} {left : List (Arrival bigEndian)} (owner : handle.localPid = localPid)
    (number : handle.seq = wrap32 (session.handle.seq + 1)) (requested : request.seq = handle.seq)
    (arrived : ∀ arrival ∈ left, arrival ∈ kernel (session.sent ++ [request])) :
    Remembers kernel start localPid
      ⟨handle, session.sent ++ [request], left.map Arrival.received⟩ where
  owner := owner
  counted := by
    have count := remembers.counted
    rw [number, List.length_append, List.length_singleton]
    unfold wrap32 at count ⊢
    omega
  numbered := by
    intro other listed
    rw [List.length_append, List.length_singleton]
    rcases List.mem_append.mp listed with earlier | last
    · obtain ⟨position, first, last, same⟩ := remembers.numbered other earlier
      exact ⟨position, first, by omega, same⟩
    · have count := remembers.counted
      rw [List.mem_singleton.mp last, requested, number]
      refine ⟨session.sent.length + 1, by omega, by omega, ?_⟩
      unfold wrap32 at count ⊢
      omega
  waiting := ⟨left, rfl, fun arrival listed => ⟨_, arrived arrival listed, fun _ listed => listed⟩⟩

end Remembers

theorem talk_readsAs {seq : Nat} (replies : kernel.Replies localPid) {sent : List Request}
    {sender : Nat} {messages : List (Framing.Record nlmsg bigEndian)} {some : messages ≠ []}
    (listed : .messages sender messages some ∈ kernel sent) :
    ReadsAs (inDatagram bigEndian (visitReply bigEndian 0 localPid seq (none : Option (Filter Unit))))
      (fun sender (state : Option (CharArray size) × Unit) message =>
        visitReply bigEndian 0 localPid seq none sender state message.bytes) sender messages :=
  visitReply_readsAs fun _ inSent =>
    replies.short sent _ (List.mem_flatMap.mpr ⟨_, listed, List.mem_map_of_mem inSent⟩)

theorem dump_readsAs {handle : Handle} {filter : Filter σ} {sent : List Request}
    (filterLocal : ∀ sent, ∀ message ∈ (kernel sent).flatMap Arrival.senders,
      LocalAt filter message.1 message.2)
    {sender : Nat} {messages : List (Framing.Record nlmsg bigEndian)} {some : messages ≠ []}
    (listed : .messages sender messages some ∈ kernel sent) :
    ReadsAs (dumpDatagram bigEndian handle filter none)
      (fun sender state message => visitMessage bigEndian handle filter none sender state message.bytes)
      sender messages :=
  dumpDatagram_readsAs
    (fun message inSent => filterLocal sent (sender, message)
      (List.mem_flatMap.mpr ⟨_, listed, List.mem_map_of_mem inSent⟩))
    (fun _ impossible => by cases impossible)

/-- What earlier calls left changes nothing. -/
theorem sessionStep_drained (remembers : Remembers kernel start localPid session)
    (replies : kernel.Replies localPid) (few : session.sent.length < 4294967296)
    {call : SessionCall size σ} (isLocal : call.Local kernel) :
    sessionStep kernel session.drained call = sessionStep kernel session call := by
  obtain ⟨old, queue, arrived⟩ := remembers.waiting
  have owner := remembers.owner
  have staleOld : ∀ message ∈ old.flatMap Arrival.senders, message.2.bytes.length < 2147483648 ∧
      isReply bigEndian 0 localPid (wrap32 (session.handle.seq + 1)) message.1 message.2.bytes =
        false := by
    intro message listed
    obtain ⟨arrival, inOld, inArrival⟩ := List.mem_flatMap.mp listed
    obtain ⟨sent, inKernel, earlier⟩ := arrived arrival inOld
    have inSent := List.mem_flatMap.mpr ⟨arrival, inKernel, inArrival⟩
    exact ⟨replies.short sent message inSent, remembers.stale replies few earlier inSent⟩
  have fromKernel {request : Request} {arrival : Arrival bigEndian}
      (listed : arrival ∈ old ++ kernel (session.sent ++ [request])) :
      ∃ sent, arrival ∈ kernel sent := by
    rcases List.mem_append.mp listed with inOld | new
    · obtain ⟨sent, inKernel, -⟩ := arrived arrival inOld
      exact ⟨sent, inKernel⟩
    · exact ⟨_, new⟩
  have fits {request : Request} {buf : Text} (size : buf.length = dumpBuffer) :
      ∀ arrival ∈ old ++ kernel (session.sent ++ [request]), arrival.Fits buf.length := by
    intro arrival listed
    obtain ⟨sent, inKernel⟩ := fromKernel listed
    rw [size]
    exact replies.fits sent arrival inKernel
  cases call with
  | talk n answer =>
      have same := @receiveAll_skip bigEndian _ _ _ (answer, ()) (List.replicate dumpBuffer 0)
        old (kernel (session.sent ++ [talkRequest n (wrap32 (session.handle.seq + 1)) answer]))
        (fits List.length_replicate) (fun sender sent some listed => by
          obtain ⟨requests, inKernel⟩ := fromKernel listed
          exact @talk_readsAs bigEndian size kernel localPid (wrap32 (session.handle.seq + 1)) replies
            requests sender sent some inKernel)
        (fun message listed state => by
          obtain ⟨short, isStale⟩ := staleOld message listed
          have turn := @visitReply_message bigEndian Unit size 0 localPid
            (wrap32 (session.handle.seq + 1)) message.1 state message.2 [] short
          rwa [List.append_nil, isStale, Bool.false_and, if_neg Bool.false_ne_true] at turn)
      simp only [sessionStep, Session.send, Session.drained, rtnlTalk, queue, owner, same,
        List.nil_append]
  | dump family type buf filter arg =>
      have same := @receiveAll_skip bigEndian _ _ _ arg buf.bytes old (kernel (session.sent ++
          [wilddumpRequest family type (wrap32 (session.handle.seq + 1))]))
        (fits buf.size_eq) (fun sender sent some listed => by
          obtain ⟨requests, inKernel⟩ := fromKernel listed
          exact @dump_readsAs bigEndian σ kernel ⟨localPid, wrap32 (session.handle.seq + 1)⟩ filter
            requests isLocal sender sent some inKernel)
        (fun message listed state => by
          obtain ⟨-, isStale⟩ := staleOld message listed
          have foreign : isForeign bigEndian ⟨localPid, wrap32 (session.handle.seq + 1)⟩ message.1
              message.2.bytes = true := by
            rw [isForeign_eq, isStale]
            rfl
          rw [visitMessage_message, if_pos foreign])
      simp only [sessionStep, Session.send, Session.drained, queue, owner, same, List.nil_append]

theorem sessionStep_remembers (remembers : Remembers kernel start localPid session)
    (replies : kernel.Replies localPid) (few : session.sent.length < 4294967296)
    {call : SessionCall size σ} (isLocal : call.Local kernel) {answer : SessionAnswer size σ}
    (stepped : sessionStep kernel session call = .ok (answer, next)) :
    Remembers kernel start localPid next ∧ next.sent.length = session.sent.length + 1 := by
  rw [← sessionStep_drained remembers replies few isLocal] at stepped
  have owner := remembers.owner
  cases call with
  | talk n answer =>
      obtain ⟨⟨outcome, queue⟩, received, returned⟩ := Checked.bind_eq_ok stepped
      cases returned
      subst owner
      obtain ⟨left, rfl, arrived⟩ := receiveAll_left
        (fun arrival listed => by
          rw [List.length_replicate]
          exact replies.fits _ arrival listed)
        (fun sender sent some listed => talk_readsAs replies listed) received
      exact ⟨remembers.step rfl rfl rfl arrived, List.length_append⟩
  | dump family type buf filter arg =>
      obtain ⟨⟨outcome, queue⟩, received, returned⟩ := Checked.bind_eq_ok stepped
      cases returned
      subst owner
      obtain ⟨left, rfl, arrived⟩ := receiveAll_left
        (fun arrival listed => by
          rw [buf.size_eq]
          exact replies.fits _ arrival listed)
        (fun sender sent some listed => dump_readsAs isLocal listed) received
      exact ⟨remembers.step rfl rfl rfl arrived, List.length_append⟩

theorem sessionRun_remembers (replies : kernel.Replies localPid)
    {calls : List (SessionCall size σ)} (isLocal : ∀ call ∈ calls, call.Local kernel)
    (remembers : Remembers kernel start localPid session)
    (few : session.sent.length + calls.length ≤ 4294967296) :
    sessionRun kernel id session calls = sessionRun kernel Session.drained session calls := by
  induction calls generalizing session with
  | nil => rfl
  | cons call calls inductionHypothesis =>
      rw [List.length_cons] at few
      have fewSent : session.sent.length < 4294967296 := by omega
      have callLocal := isLocal call (.head calls)
      rw [sessionRun, sessionRun, sessionStep_drained remembers replies fewSent callLocal, id]
      cases stepped : sessionStep kernel session call with
      | error fault => rfl
      | ok result =>
          obtain ⟨answer, next⟩ := result
          obtain ⟨remembersNext, sent⟩ :=
            sessionStep_remembers remembers replies fewSent callLocal stepped
          have others := inductionHypothesis (fun call later => isLocal call (.tail _ later))
            remembersNext (by omega)
          simp only [Checked.ok_bind, others]

/-- In any run of talks and dumps on a handle, as long as its numbers do not repeat, each call
comes to what it would with nothing left on the socket from the calls before. -/
theorem sessionRun_drained {handle : RtnlHandle} (replies : kernel.Replies handle.localPid)
    {calls : List (SessionCall size σ)} (isLocal : ∀ call ∈ calls, call.Local kernel)
    (few : calls.length ≤ 4294967296) :
    sessionRun kernel id ⟨handle, [], []⟩ calls =
      sessionRun kernel Session.drained ⟨handle, [], []⟩ calls := by
  have initial : Remembers kernel handle.seq handle.localPid ⟨handle, [], []⟩ :=
    { owner := rfl
      counted := rfl
      numbered := by
        intro request listed
        cases listed
      waiting := ⟨[], rfl, by
        intro arrival listed
        cases listed⟩ }
  refine sessionRun_remembers replies isLocal initial ?_
  rw [List.length_nil]
  omega

theorem doneMessage_some : [doneMessage] ≠ [] := List.cons_ne_nil _ _

/-- The kernel ends the seventh request twice. -/
def twiceDone : Kernel false := fun sent =>
  if sent.map Request.seq = [7] then
    [.messages 0 [doneMessage] doneMessage_some, .messages 0 [doneMessage] doneMessage_some]
  else []

theorem twiceDone_replies : twiceDone.Replies 1 := by
  have sends {sent : List Request} {message : Nat × Framing.Record nlmsg false}
      (listed : message ∈ (twiceDone sent).flatMap Arrival.senders) :
      sent.map Request.seq = [7] ∧ message = (0, doneMessage) := by
    unfold twiceDone at listed
    split at listed
    · rename_i seventh
      rcases listed with _ | ⟨_, _ | ⟨_, impossible⟩⟩
      · exact ⟨seventh, rfl⟩
      · exact ⟨seventh, rfl⟩
      · cases impossible
    · cases listed
  refine ⟨fun sent => ?_, fun sent message listed _ _ => ?_⟩
  · unfold twiceDone
    split
    · exact forall_mem_of_all (by decide)
    · exact fun arrival impossible => by cases impossible
  · obtain ⟨seventh, rfl⟩ := sends listed
    have requested : 7 ∈ sent.map Request.seq := by
      rw [seventh]
      exact .head []
    obtain ⟨request, inSent, number⟩ := List.mem_map.mp requested
    exact ⟨request, inSent, number.symm⟩

/-- A dump leaves the second end behind, and the dump after it waits for one of its own. -/
theorem sessionRun_drained_twiceDone :
    @sessionRun false 0 Nat twiceDone id ⟨⟨1, 6, 0⟩, [], []⟩
        [.dump 0 18 (.zero dumpBuffer) (fun _ _ count => .ok (0, count + 1)) (0 : Nat),
          .dump 0 18 (.zero dumpBuffer) (fun _ _ count => .ok (0, count + 1)) 0, .talk ⟨18, 1, 0, 0, []⟩ none] =
      @sessionRun false 0 Nat twiceDone Session.drained ⟨⟨1, 6, 0⟩, [], []⟩
        [.dump 0 18 (.zero dumpBuffer) (fun _ _ count => .ok (0, count + 1)) (0 : Nat),
          .dump 0 18 (.zero dumpBuffer) (fun _ _ count => .ok (0, count + 1)) 0, .talk ⟨18, 1, 0, 0, []⟩ none] := by
  refine sessionRun_drained twiceDone_replies ?_ (by decide)
  intro call listed
  rcases listed with _ | ⟨_, _ | ⟨_, _ | ⟨_, impossible⟩⟩⟩
  · exact fun _ _ _ _ _ => rfl
  · exact fun _ _ _ _ _ => rfl
  · trivial
  · cases impossible

end Runs

end Libamg.Netlink
