import Libamg.C.LinkedList
import Libamg.Semantics.Run
import Mathlib.Data.Finset.Preimage
import Mathlib.Data.Fintype.EquivFin

/-!
# The tone queue

All connections share one linked list of tone events, headed by the static
`base_tone_event`. The model follows the pointers of `dsp.c`: a loop that does not
end within its fuel, a read through a dangling pointer and a `free` of the static head
are faults. `Represents` says that the memory holds a list of events, and the two
operations are the ones of the list: append, and remove the first of a connection.
-/

namespace Libamg.Dsp

open C Semantics

/-- What `struct tone_event_t` holds besides its link. -/
structure Tone where
  connId : Int32
  tone : Int32
deriving DecidableEq

/-- Where a tone event can live: the static head, or memory that `malloc` returned. -/
inductive Address where
  | baseToneEvent
  | heap (number : Nat)
deriving DecidableEq

/-- The tone events that exist. -/
abbrev Memory := Heap Address Tone

/-- The static contents of `base_tone_event`. -/
def baseTone : Tone where
  connId := -1
  tone := -1

/-- The memory before the first call. -/
def initialMemory : Memory := fun address =>
  match address with
  | .baseToneEvent => some ⟨baseTone, none⟩
  | .heap _ => none

/-- A `malloc` that succeeds: the memory it returns was not in use. -/
structure Allocator where
  pick : Memory → Nat
  fresh : ∀ memory : Memory, (∃ number, memory (.heap number) = none) →
    memory (.heap (pick memory)) = none

/-- `free`: only memory from `malloc` can be given back, and only once. -/
def free (memory : Memory) (address : Address) : Checked Memory :=
  match address with
  | .baseToneEvent => .error .invalidFree
  | .heap number =>
      if (memory (.heap number)).isSome then .ok (memory.release (.heap number))
      else .error .invalidFree

/-- Go to the end of the list: `for (...; tmp->next != NULL; tmp = tmp->next);`. -/
def endOfList (memory : Memory) : Nat → Address → Checked Address
  | 0, _ => .error .unfinished
  | fuel + 1, tmp =>
      match memory.load tmp with
      | .error fault => .error fault
      | .ok cell =>
          match cell.next with
          | none => .ok tmp
          | some next => endOfList memory fuel next

/-- `libamg_dsp_queue_tone_event`; `malloc` is `none` where it returns NULL. -/
def queueToneEvent (fuel : Nat) (malloc : Option Allocator) (tone : Tone) (memory : Memory) :
    Checked (Int32 × Memory) :=
  match malloc with
  | none => .ok (-1, memory)
  | some allocator => do
      let t := Address.heap (allocator.pick memory)
      let memory := memory.store t ⟨tone, none⟩
      let tmp ← endOfList memory fuel .baseToneEvent
      let cell ← memory.load tmp
      return (0, memory.store tmp { cell with next := some t })

/-- The loop of `libamg_dsp_dequeue_tone_event` from the pointers `p` and `t` on. -/
def dequeueLoop (connId : Int32) (memory : Memory) :
    Nat → Address → Option Address → Checked (Int32 × Memory)
  | 0, _, _ => .error .unfinished
  | _ + 1, _, none => .ok (-1, memory)
  | fuel + 1, p, some t =>
      match memory.load t with
      | .error fault => .error fault
      | .ok cell =>
          if connId ≠ cell.value.connId then dequeueLoop connId memory fuel t cell.next
          else do
            let previous ← memory.load p
            let memory ← free (memory.store p { previous with next := cell.next }) t
            return (cell.value.tone, memory)

/-- `libamg_dsp_dequeue_tone_event`. -/
def dequeueToneEvent (fuel : Nat) (connId : Int32) (memory : Memory) :
    Checked (Int32 × Memory) :=
  dequeueLoop connId memory fuel .baseToneEvent (some .baseToneEvent)

/-- A call of the tone queue, made under `tone_mutex`. -/
inductive QueueCall where
  | queue (tone : Tone) (malloc : Option Allocator)
  | dequeue (connId : Int32)

/-- The connection a call is about. -/
def QueueCall.connId : QueueCall → Int32
  | queue tone _ => tone.connId
  | dequeue connId => connId

def queueStep (fuel : Nat) (memory : Memory) : QueueCall → Checked (Int32 × Memory)
  | .queue tone malloc => queueToneEvent fuel malloc tone memory
  | .dequeue connId => dequeueToneEvent fuel connId memory

/-! ## One queue for all connections -/

/-- The oldest event of a connection leaves the queue. -/
def dequeueEvent (events : List Tone) (connId : Int32) : Int32 × List Tone :=
  match events.find? (·.connId = connId) with
  | none => (-1, events)
  | some event => (event.tone, events.eraseP (·.connId = connId))

/-- The queue as a list of events. -/
def eventsStep (events : List Tone) : QueueCall → Int32 × List Tone
  | .queue _ none => (-1, events)
  | .queue tone (some _) => (0, events ++ [tone])
  | .dequeue connId => dequeueEvent events connId

/-- The memory holds the queue: the list from the static head goes through these events,
and nothing else is allocated. -/
structure Represents (memory : Memory) (events : List Tone) : Prop where
  chain : ∃ cells, Chain memory (some .baseToneEvent) ((.baseToneEvent, baseTone) :: cells) ∧
    cells.map Prod.snd = events ∧
    ∀ number, (memory (.heap number)).isSome → Address.heap number ∈ addresses cells

theorem initialMemory_represents : Represents initialMemory [] where
  chain := by
    refine ⟨[], ⟨rfl, none, rfl, rfl⟩, rfl, ?_⟩
    intro number allocated
    cases allocated

/-- The walk ends at the last cell of the chain. -/
theorem endOfList_chain {memory : Memory} {cells : List (Address × Tone)} :
    ∀ {address : Address} {value : Tone} {fuel : Nat},
      Chain memory (some address) ((address, value) :: cells) → cells.length < fuel →
        ∃ front last, (address, value) :: cells = front ++ [last] ∧
          endOfList memory fuel address = .ok last.1 := by
  induction cells with
  | nil =>
      intro address value fuel chain enough
      obtain ⟨fuel, rfl⟩ := Nat.exists_eq_succ_of_ne_zero (Nat.ne_of_gt enough)
      obtain ⟨_, next, allocated, rfl⟩ := chain
      refine ⟨[], (address, value), rfl, ?_⟩
      rw [endOfList, Heap.load_eq_ok allocated]
  | cons cell cells inductionHypothesis =>
      intro address value fuel chain enough
      obtain ⟨fuel, rfl⟩ := Nat.exists_eq_succ_of_ne_zero (Nat.ne_zero_of_lt enough)
      obtain ⟨_, next, allocated, rest⟩ := chain
      obtain rfl : next = some cell.1 := rest.1
      obtain ⟨front, last, shape, walked⟩ :=
        inductionHypothesis rest (Nat.lt_of_succ_lt_succ enough)
      refine ⟨(address, value) :: front, last, by rw [shape, List.cons_append], ?_⟩
      rw [endOfList, Heap.load_eq_ok allocated]
      exact walked

/-- Without an event of the connection the loop runs to the end of the list. -/
theorem dequeueLoop_none {connId : Int32} {memory : Memory} {cells : List (Address × Tone)}
    (others : ∀ cell ∈ cells, cell.2.connId ≠ connId) :
    ∀ {fuel : Nat} {p : Address} {t : Option Address}, Chain memory t cells →
      cells.length < fuel → dequeueLoop connId memory fuel p t = .ok (-1, memory) := by
  induction cells with
  | nil =>
      intro fuel p t chain enough
      obtain ⟨fuel, rfl⟩ := Nat.exists_eq_succ_of_ne_zero (Nat.ne_of_gt enough)
      obtain rfl : t = none := chain
      rfl
  | cons cell cells inductionHypothesis =>
      intro fuel p t chain enough
      obtain ⟨fuel, rfl⟩ := Nat.exists_eq_succ_of_ne_zero (Nat.ne_zero_of_lt enough)
      obtain ⟨rfl, next, allocated, rest⟩ := chain
      have different : connId ≠ cell.2.connId := (others cell List.mem_cons_self).symm
      rw [dequeueLoop, Heap.load_eq_ok allocated]
      simp only [if_pos different]
      exact inductionHypothesis (fun other member => others other (List.mem_cons_of_mem _ member))
        rest (Nat.lt_of_succ_lt_succ enough)

/-- The loop stops at the first event of the connection, with `p` one cell behind. -/
theorem dequeueLoop_found {connId : Int32} {memory : Memory} {front back : List (Address × Tone)}
    {removed : Address} {event : Tone} {link : Option Address}
    (others : ∀ cell ∈ front, cell.2.connId ≠ connId) (found : event.connId = connId)
    (linked : memory removed = some ⟨event, link⟩) :
    ∀ {fuel : Nat} {p : Address} {value : Tone} {t : Option Address},
      memory p = some ⟨value, t⟩ → Chain memory t (front ++ (removed, event) :: back) →
      front.length < fuel →
        ∃ before previous, (p, value) :: front = before ++ [previous] ∧
          dequeueLoop connId memory fuel p t =
            (free (memory.store previous.1 ⟨previous.2, link⟩) removed).map (event.tone, ·) := by
  induction front with
  | nil =>
      intro fuel p value t behind chain enough
      obtain ⟨fuel, rfl⟩ := Nat.exists_eq_succ_of_ne_zero (Nat.ne_of_gt enough)
      obtain ⟨rfl, _⟩ := chain
      refine ⟨[], (p, value), rfl, ?_⟩
      rw [dequeueLoop, Heap.load_eq_ok linked]
      simp only [ne_eq, found, not_true_eq_false, ↓reduceIte, Heap.load_eq_ok behind, Checked.ok_bind]
      rfl
  | cons cell front inductionHypothesis =>
      intro fuel p value t behind chain enough
      obtain ⟨fuel, rfl⟩ := Nat.exists_eq_succ_of_ne_zero (Nat.ne_zero_of_lt enough)
      obtain ⟨rfl, next, allocated, rest⟩ := chain
      have different : connId ≠ cell.2.connId := (others cell List.mem_cons_self).symm
      obtain ⟨before, previous, shape, ran⟩ := inductionHypothesis
        (fun other member => others other (List.mem_cons_of_mem _ member)) allocated rest
        (Nat.lt_of_succ_lt_succ enough)
      refine ⟨(p, value) :: before, previous, by rw [shape, List.cons_append], ?_⟩
      rw [dequeueLoop, Heap.load_eq_ok allocated]
      simp only [if_pos different]
      exact ran

/-- The cells of the queue do not use up the heap. -/
theorem exists_free {memory : Memory} {cells : List (Address × Tone)}
    (allocated : ∀ number, (memory (.heap number)).isSome → Address.heap number ∈ addresses cells) :
    ∃ number, memory (.heap number) = none := by
  have injective : Function.Injective Address.heap := fun _ _ same => Address.heap.inj same
  obtain ⟨number, outside⟩ :=
    Infinite.exists_notMem_finset ((addresses cells).toFinset.preimage Address.heap injective.injOn)
  refine ⟨number, Option.not_isSome_iff_eq_none.mp fun isAllocated => outside ?_⟩
  rw [Finset.mem_preimage, List.mem_toFinset]
  exact allocated number isAllocated

/-- Queueing appends the event to the list. -/
theorem queueToneEvent_represents {memory : Memory} {events : List Tone}
    (represents : Represents memory events) (allocator : Allocator) (tone : Tone) {fuel : Nat}
    (enough : events.length < fuel) :
    ∃ after, queueToneEvent fuel (some allocator) tone memory = .ok (0, after) ∧
      Represents after (events ++ [tone]) := by
  obtain ⟨cells, chain, rfl, allocated⟩ := represents.chain
  have fresh := allocator.fresh memory (exists_free allocated)
  generalize picked : allocator.pick memory = added at fresh
  rw [List.length_map] at enough
  have kept : Chain (memory.store (.heap added) ⟨tone, none⟩) (some .baseToneEvent)
      ((.baseToneEvent, baseTone) :: cells) := by
    refine Segment.congr chain fun address member => Heap.store_of_ne _ _ ?_
    rintro rfl
    obtain ⟨⟨_, value⟩, visited, rfl⟩ := List.mem_map.mp member
    obtain ⟨_, isAllocated⟩ := Segment.allocated chain visited
    rw [fresh] at isAllocated
    cases isAllocated
  obtain ⟨front, ⟨last, value⟩, shape, walked⟩ := endOfList_chain kept enough
  rw [shape] at kept chain
  obtain ⟨_, _, rfl, next, lastAllocated, rfl⟩ := Segment.append_iff.mp kept
  have longer : (Address.baseToneEvent, baseTone) :: (cells ++ [(.heap added, tone)]) =
      front ++ [(last, value), (.heap added, tone)] := by
    rw [← List.cons_append, shape, List.append_assoc]
    rfl
  have appended : Chain ((memory.store (.heap added) ⟨tone, none⟩).store last
      ⟨value, some (.heap added)⟩) (some .baseToneEvent)
      ((.baseToneEvent, baseTone) :: (cells ++ [(.heap added, tone)])) := by
    rw [longer]
    exact chain.append fresh
  refine ⟨_, ?_, ⟨_, appended, List.map_append, fun number isAllocated => ?_⟩⟩
  · simp only [queueToneEvent, picked, walked, Checked.ok_bind, Heap.load_eq_ok lastAllocated]
    rfl
  · have visited : Address.heap number ∈
        addresses ((Address.baseToneEvent, baseTone) :: (cells ++ [(.heap added, tone)])) := by
      rw [Heap.isSome_store_iff, Heap.isSome_store_iff] at isAllocated
      rcases isAllocated with isLast | isNew | before
      · simp [longer, addresses, isLast]
      · simp [longer, addresses, isNew]
      · rw [addresses, List.map_cons, List.map_append]
        exact List.mem_cons_of_mem _ (List.mem_append_left _ (allocated number before))
    exact (List.mem_cons.mp visited).resolve_left Address.noConfusion

/-- A list without a first match, or cut at it. -/
theorem dequeueEvent_cases (connId : Int32) (events : List Tone) :
    ((∀ event ∈ events, event.connId ≠ connId) ∧ dequeueEvent events connId = (-1, events)) ∨
    ∃ front event back, events = front ++ event :: back ∧
      (∀ other ∈ front, other.connId ≠ connId) ∧ event.connId = connId ∧
      dequeueEvent events connId = (event.tone, front ++ back) := by
  cases found : events.find? (·.connId = connId) with
  | none =>
      refine .inl ⟨?_, by rw [dequeueEvent, found]⟩
      simpa using found
  | some event =>
      obtain ⟨matching, front, back, rfl, others⟩ := List.find?_eq_some_iff_append.mp found
      have isConn : event.connId = connId := by simpa using matching
      have otherConn : ∀ other ∈ front, other.connId ≠ connId := by simpa using others
      have erased : (front ++ event :: back).eraseP (·.connId = connId) = front ++ back := by
        rw [List.eraseP_append_right _ (by simpa using otherConn), List.eraseP_cons_of_pos (by simpa)]
      exact .inr ⟨front, event, back, rfl, otherConn, isConn, by rw [dequeueEvent, found, erased]⟩

/-- Taking a cell out of the queue and giving it back takes its event out of the list. -/
theorem free_represents {memory : Memory} {front back before : List (Address × Tone)}
    {previous : Address} {previousValue value : Tone} {number : Nat} {next : Option Address}
    (chain : Chain memory (some .baseToneEvent)
      ((.baseToneEvent, baseTone) :: (front ++ (.heap number, value) :: back)))
    (allocated : ∀ other, (memory (.heap other)).isSome →
      Address.heap other ∈ addresses (front ++ (.heap number, value) :: back))
    (cut : (Address.baseToneEvent, baseTone) :: front = before ++ [(previous, previousValue)])
    (linked : memory (.heap number) = some ⟨value, next⟩) :
    ∃ after, free (memory.store previous ⟨previousValue, next⟩) (.heap number) = .ok after ∧
      Represents after ((front ++ back).map Prod.snd) := by
  have joined (tail : List (Address × Tone)) :
      (Address.baseToneEvent, baseTone) :: (front ++ tail) =
        before ++ (previous, previousValue) :: tail := by
    rw [← List.cons_append, cut, List.append_assoc, List.singleton_append]
  have unlinked := (joined _ ▸ chain).unlink linked
  rw [← joined] at unlinked
  have isAllocated : ((memory.store previous ⟨previousValue, next⟩) (.heap number)).isSome := by
    rw [Heap.isSome_store_iff, linked]
    exact .inr rfl
  refine ⟨_, if_pos isAllocated, ⟨_, unlinked, rfl, fun other otherAllocated => ?_⟩⟩
  rw [Heap.isSome_release_iff, Heap.isSome_store_iff] at otherAllocated
  obtain ⟨different, isPrevious | before⟩ := otherAllocated
  · have visited : Address.heap other ∈ addresses ((Address.baseToneEvent, baseTone) :: front) := by
      simp [cut, addresses, isPrevious]
    have inFront := (List.mem_cons.mp visited).resolve_left Address.noConfusion
    rw [addresses, List.map_append]
    exact List.mem_append_left _ inFront
  · have inCells := allocated other before
    simpa [different, addresses] using inCells

/-- Dequeueing removes the oldest event of the connection, if there is one. -/
theorem dequeueToneEvent_represents {memory : Memory} {events : List Tone}
    (represents : Represents memory events) {connId : Int32} (named : connId ≠ -1) {fuel : Nat}
    (enough : events.length + 1 < fuel) :
    ∃ after, dequeueToneEvent fuel connId memory =
        .ok ((dequeueEvent events connId).1, after) ∧
      Represents after (dequeueEvent events connId).2 := by
  obtain ⟨cells, chain, rfl, allocated⟩ := represents.chain
  obtain ⟨fuel, rfl⟩ := Nat.exists_eq_succ_of_ne_zero (Nat.ne_zero_of_lt enough)
  rw [List.length_map] at enough
  have distinct := chain.nodup
  obtain ⟨_, link, base, rest⟩ := chain
  have first : dequeueToneEvent (fuel + 1) connId memory =
      dequeueLoop connId memory fuel .baseToneEvent link := by
    rw [dequeueToneEvent, dequeueLoop, Heap.load_eq_ok base]
    exact if_pos named
  rw [first]
  rcases dequeueEvent_cases connId (cells.map Prod.snd) with ⟨others, unchanged⟩ |
    ⟨front, event, back, shape, others, found, removed⟩
  · rw [unchanged]
    have otherCells : ∀ cell ∈ cells, cell.2.connId ≠ connId := fun cell member =>
      others cell.2 (List.mem_map_of_mem member)
    exact ⟨memory, dequeueLoop_none otherCells rest (Nat.lt_of_succ_lt_succ enough), represents⟩
  · rw [removed]
    obtain ⟨frontCells, behind, rfl, rfl, behindShape⟩ := List.map_eq_append_iff.mp shape
    obtain ⟨⟨address, value⟩, backCells, rfl, rfl, rfl⟩ := List.map_eq_cons_iff.mp behindShape
    have otherCells : ∀ cell ∈ frontCells, cell.2.connId ≠ connId := fun cell member =>
      others cell.2 (List.mem_map_of_mem member)
    have short : frontCells.length < fuel := by
      rw [List.length_append] at enough
      omega
    obtain ⟨_, _, _, next, linked, _⟩ := Segment.append_iff.mp rest
    obtain ⟨before, ⟨previous, previousValue⟩, cut, ran⟩ :=
      dequeueLoop_found otherCells found linked base rest short
    rw [ran, ← List.map_append]
    cases address with
    | baseToneEvent =>
        rw [addresses, List.map_cons, List.nodup_cons] at distinct
        exact absurd (by simp) distinct.1
    | heap number =>
        obtain ⟨after, freed, remaining⟩ :=
          free_represents ⟨rfl, link, base, rest⟩ allocated cut linked
        exact ⟨after, by rw [freed]; rfl, remaining⟩

/-- A call on the queue is the call on its list of events, unless it is a dequeue of -1. -/
theorem queueStep_represents {memory : Memory} {events : List Tone}
    (represents : Represents memory events) {call : QueueCall} (notHead : call ≠ .dequeue (-1))
    {fuel : Nat} (enough : events.length + 1 < fuel) :
    ∃ after, queueStep fuel memory call = .ok ((eventsStep events call).1, after) ∧
      Represents after (eventsStep events call).2 := by
  cases call with
  | queue tone malloc =>
      cases malloc with
      | none => exact ⟨memory, rfl, represents⟩
      | some allocator =>
          exact queueToneEvent_represents represents allocator tone (Nat.lt_of_succ_lt enough)
  | dequeue connId =>
      have named : connId ≠ -1 := fun same => notHead (congrArg QueueCall.dequeue same)
      exact dequeueToneEvent_represents represents named enough

/-- A call adds at most one event. -/
theorem eventsStep_length (events : List Tone) (call : QueueCall) :
    (eventsStep events call).2.length ≤ events.length + 1 := by
  cases call with
  | queue tone malloc =>
      cases malloc with
      | none => exact Nat.le_succ _
      | some allocator => simp [eventsStep]
  | dequeue connId =>
      rcases dequeueEvent_cases connId events with ⟨_, unchanged⟩ |
        ⟨front, event, back, rfl, _, _, removed⟩
      · rw [eventsStep, unchanged]
        exact Nat.le_succ _
      · rw [eventsStep, removed]
        simp only [List.length_append, List.length_cons]
        omega

end Libamg.Dsp
