import Libamg.C.Ownership
import Libamg.Dsp.ToneFifos

/-!
# What the tone queue frees

The static head of the queue carries the `conn_id` -1 and the search starts at it, so a
dequeue of -1 unlinks and frees the head. `safeRun_iff` says that this is the only way:
a run frees nothing but events it allocated, each at most once, keeps its head and does
nothing for a connection without events exactly when it dequeues no event of -1.
-/

namespace Libamg.Dsp

open C Semantics

/-- The object that the loop of `libamg_dsp_dequeue_tone_event` takes out of the list
and gives to `free`: the first one from `t` on with this `conn_id`. -/
def unlinked (connId : Int32) (memory : Memory) : Nat → Option Address → Option Address
  | 0, _ => none
  | _ + 1, none => none
  | fuel + 1, some t =>
      match memory t with
      | none => none
      | some cell =>
          if connId ≠ cell.value.connId then unlinked connId memory fuel cell.next else some t

/-- The loop gives this object to `free`, after a store into a cell that exists; without
such an object it changes nothing. -/
theorem dequeueLoop_cases {connId : Int32} {memory : Memory} (fuel : Nat) {p : Address}
    (t : Option Address) (behind : (memory p).isSome) :
    (unlinked connId memory fuel t = none ∧ ∀ answer after,
      dequeueLoop connId memory fuel p t = .ok (answer, after) → after = memory) ∨
    ∃ target tone linked, unlinked connId memory fuel t = some target ∧
      dequeueLoop connId memory fuel p t =
        (do let memory ← free linked target
            return (tone, memory)) ∧
      ∀ address, (linked address).isSome ↔ (memory address).isSome := by
  fun_induction unlinked connId memory fuel t generalizing p with
  | case1 t =>
      refine .inl ⟨rfl, ?_⟩
      intro answer after returned
      cases returned
  | case2 fuel =>
      refine .inl ⟨rfl, ?_⟩
      intro answer after returned
      cases returned
      rfl
  | case3 fuel t dangling =>
      refine .inl ⟨rfl, ?_⟩
      intro answer after returned
      rw [dequeueLoop, Heap.load, dangling] at returned
      cases returned
  | case4 fuel t cell here different inductionHypothesis =>
      rw [dequeueLoop, Heap.load_eq_ok here]
      simp only [if_pos different]
      apply inductionHypothesis
      rw [here]
      rfl
  | case5 fuel t cell here same =>
      obtain ⟨previous, allocated⟩ := Option.isSome_iff_exists.mp behind
      refine .inr ⟨t, cell.value.tone, memory.store p { previous with next := cell.next }, rfl, ?_, ?_⟩
      · rw [dequeueLoop, Heap.load_eq_ok here]
        simp only [if_neg same, Heap.load_eq_ok allocated]
        rfl
      · intro address
        rw [Heap.isSome_store_iff, or_iff_right_iff_imp]
        rintro rfl
        exact behind

/-- Only an allocated object can be freed, and it is gone afterwards. -/
theorem free_eq_ok {memory after : Memory} {address : Address}
    (freed : free memory address = .ok after) :
    address ≠ .baseToneEvent ∧ (memory address).isSome ∧ after = memory.release address := by
  cases address with
  | baseToneEvent => cases freed
  | heap number =>
      by_cases allocated : (memory (.heap number)).isSome
      · rw [free, if_pos allocated] at freed
        cases freed
        exact ⟨Address.noConfusion, allocated, rfl⟩
      · rw [free, if_neg allocated] at freed
        cases freed

/-! ## The history of a run -/

/-- What a call obtains from `malloc` or gives to `free`. -/
def heapEvents (fuel : Nat) (memory : Memory) : QueueCall → List (HeapEvent Address)
  | .queue _ none => []
  | .queue _ (some allocator) => [.malloc (.heap (allocator.pick memory))]
  | .dequeue connId =>
      ((unlinked connId memory fuel (some .baseToneEvent)).map HeapEvent.free).toList

/-- The memory and what was allocated and freed in it, the last first. -/
structure Traced where
  memory : Memory
  history : List (HeapEvent Address)

/-- Before the first call. -/
def Traced.initial : Traced := ⟨initialMemory, []⟩

/-- A call that also enters the history. -/
def tracedStep (fuel : Nat) (state : Traced) (call : QueueCall) : Checked (Int32 × Traced) := do
  let (answer, memory) ← queueStep fuel state.memory call
  return (answer, ⟨memory, heapEvents fuel state.memory call ++ state.history⟩)

/-- The list starts at the static head, which has kept its contents. -/
def Headed (memory : Memory) (cells : List (Address × Tone)) : Prop :=
  Chain memory (some .baseToneEvent) ((.baseToneEvent, baseTone) :: cells)

theorem Headed.allocated {memory : Memory} {cells : List (Address × Tone)}
    (headed : Headed memory cells) : (memory .baseToneEvent).isSome := by
  obtain ⟨_, next, allocated, _⟩ := headed
  rw [allocated]
  rfl

theorem Represents.headed {memory : Memory} {events : List Tone}
    (represents : Represents memory events) :
    ∃ cells, Headed memory cells ∧ cells.map Prod.snd = events := by
  obtain ⟨cells, chain, stored, _⟩ := represents.chain
  exact ⟨cells, chain, stored⟩

/-- No event of the connection is queued. -/
def NothingQueued (memory : Memory) (connId : Int32) : Prop :=
  ∃ cells, Headed memory cells ∧ ∀ cell ∈ cells, cell.2.connId ≠ connId

/-- What a call may do: it frees nothing but events that were allocated by a queue call
and not freed since, it returns with the head in its place, and a dequeue for a connection
without events changes nothing and returns a negative value. -/
structure SafeCall (fuel : Nat) (state : Traced) (call : QueueCall) : Prop where
  freesOwned : ∀ address, .free address ∈ heapEvents fuel state.memory call →
    Owned state.history address
  headStays : ∃ answer next cells,
    tracedStep fuel state call = .ok (answer, next) ∧ Headed next.memory cells
  nothingQueued : ∀ connId, call = .dequeue connId → NothingQueued state.memory connId →
    ∃ answer, queueStep fuel state.memory call = .ok (answer, state.memory) ∧ answer < 0

/-- Every call of a run is safe where it is made. -/
def SafeRun (fuel : Nat) (calls : List QueueCall) : Prop :=
  EachCall (tracedStep fuel) (SafeCall fuel) .initial calls

/-- The objects in use are the static head and what the history owns. -/
def Accounts (state : Traced) : Prop :=
  Tracks (· = Address.baseToneEvent) state.memory state.history

theorem accounts_initial : Accounts .initial := by
  intro address
  refine iff_of_false (not_owned_nil address) ?_
  rintro ⟨notHead, allocated⟩
  cases address with
  | baseToneEvent => exact notHead rfl
  | heap number => cases allocated

/-- A queue call that returns has allocated its event and nothing else. -/
theorem queueToneEvent_allocates {fuel : Nat} {allocator : Allocator} {tone : Tone}
    {memory after : Memory} {answer : Int32}
    (returned : queueToneEvent fuel (some allocator) tone memory = .ok (answer, after))
    (address : Address) :
    (after address).isSome ↔ address = .heap (allocator.pick memory) ∨ (memory address).isSome := by
  obtain ⟨last, _, linked⟩ := Checked.bind_eq_ok returned
  obtain ⟨cell, loaded, stored⟩ := Checked.bind_eq_ok linked
  have lastAllocated := Heap.isSome_of_load loaded
  cases stored
  rw [Heap.isSome_store_iff] at lastAllocated ⊢
  rw [Heap.isSome_store_iff, or_iff_right_iff_imp]
  rintro rfl
  exact lastAllocated

/-- The history accounts for the objects in use after a call as before it. -/
theorem accounts_step {fuel : Nat} {state : Traced} {call : QueueCall} {answer : Int32}
    {after : Memory} (accounts : Accounts state) {cells : List (Address × Tone)}
    (headed : Headed state.memory cells)
    (returned : queueStep fuel state.memory call = .ok (answer, after)) :
    Accounts ⟨after, heapEvents fuel state.memory call ++ state.history⟩ := by
  cases call with
  | queue tone malloc =>
      cases malloc with
      | none =>
          cases returned
          exact accounts
      | some allocator =>
          exact Tracks.malloc accounts Address.noConfusion (queueToneEvent_allocates returned)
  | dequeue connId =>
      rw [heapEvents]
      rcases dequeueLoop_cases fuel (some .baseToneEvent) headed.allocated with
        ⟨found, keeps⟩ | ⟨target, tone, linked, found, ran, same⟩
      · obtain rfl := keeps answer after returned
        rw [found]
        exact accounts
      · rw [queueStep, dequeueToneEvent, ran] at returned
        obtain ⟨released, freed, answered⟩ := Checked.bind_eq_ok returned
        cases answered
        obtain ⟨_, _, rfl⟩ := free_eq_ok freed
        rw [found]
        apply Tracks.free accounts
        intro address
        rw [Heap.isSome_release_iff, same]

/-- Between two calls: the queue holds events, the history accounts for the memory, and
fuel is left for the calls to come. -/
structure Settled (fuel remaining : Nat) (state : Traced) : Prop where
  queue : ∃ events, Represents state.memory events ∧ events.length + remaining + 1 < fuel
  accounts : Accounts state

/-- A call that is not a dequeue of -1 returns and keeps the queue in order. -/
theorem tracedStep_settled {fuel remaining : Nat} {state : Traced} {call : QueueCall}
    (notHead : call ≠ .dequeue (-1)) (settled : Settled fuel (remaining + 1) state) :
    ∃ answer next, tracedStep fuel state call = .ok (answer, next) ∧
      Settled fuel remaining next := by
  obtain ⟨events, represents, enough⟩ := settled.queue
  obtain ⟨cells, headed, _⟩ := represents.headed
  have fuelLeft : events.length + 1 < fuel := by omega
  obtain ⟨after, returned, representsAfter⟩ := queueStep_represents represents notHead fuelLeft
  have longer := eventsStep_length events call
  refine ⟨(eventsStep events call).1, ⟨after, heapEvents fuel state.memory call ++ state.history⟩,
    ?_, ⟨_, representsAfter, by omega⟩, accounts_step settled.accounts headed returned⟩
  rw [tracedStep, returned]
  rfl

/-- An object that a call frees is owned if the call returns. -/
theorem freed_owned {fuel : Nat} {state : Traced} {call : QueueCall} {answer : Int32}
    {after : Memory} {cells : List (Address × Tone)} (accounts : Accounts state)
    (headed : Headed state.memory cells)
    (returned : queueStep fuel state.memory call = .ok (answer, after)) {address : Address}
    (frees : .free address ∈ heapEvents fuel state.memory call) : Owned state.history address := by
  cases call with
  | queue tone malloc => cases malloc <;> simp [heapEvents] at frees
  | dequeue connId =>
      rw [heapEvents] at frees
      rcases dequeueLoop_cases fuel (some .baseToneEvent) headed.allocated with
        ⟨found, _⟩ | ⟨target, tone, linked, found, ran, same⟩
      · rw [found] at frees
        cases frees
      · rw [found] at frees
        obtain rfl : address = target := HeapEvent.free.inj (List.mem_singleton.mp frees)
        rw [queueStep, dequeueToneEvent, ran] at returned
        obtain ⟨released, freed, _⟩ := Checked.bind_eq_ok returned
        obtain ⟨notHead, allocated, _⟩ := free_eq_ok freed
        exact (accounts address).mpr ⟨notHead, (same address).mp allocated⟩

/-- A dequeue of -1 frees the static head. -/
theorem dequeue_head {fuel : Nat} {memory : Memory} {cells : List (Address × Tone)}
    (headed : Headed memory cells) :
    .free .baseToneEvent ∈ heapEvents (fuel + 1) memory (.dequeue (-1)) := by
  obtain ⟨_, next, allocated, _⟩ := headed
  have found : unlinked (-1) memory (fuel + 1) (some .baseToneEvent) = some .baseToneEvent := by
    rw [unlinked, allocated]
    rfl
  rw [heapEvents, found]
  exact List.mem_singleton_self _

/-- A call on a queue in order is safe exactly when it is not a dequeue of -1. -/
theorem safeCall_iff {fuel remaining : Nat} {state : Traced} {call : QueueCall}
    (settled : Settled fuel (remaining + 1) state) :
    SafeCall fuel state call ↔ call ≠ .dequeue (-1) := by
  obtain ⟨events, represents, enough⟩ := settled.queue
  obtain ⟨cells, headed, stored⟩ := represents.headed
  constructor
  · rintro safe rfl
    obtain ⟨fuel, rfl⟩ := Nat.exists_eq_succ_of_ne_zero (Nat.ne_zero_of_lt enough)
    have owned := safe.freesOwned _ (dequeue_head headed)
    exact ((settled.accounts _).mp owned).1 rfl
  · intro notHead
    obtain ⟨answer, next, stepped, after⟩ := tracedStep_settled notHead settled
    obtain ⟨⟨_, memory⟩, returned, continued⟩ := Checked.bind_eq_ok stepped
    refine ⟨fun address => freed_owned settled.accounts headed returned, ?_, ?_⟩
    · obtain ⟨_, representsAfter, _⟩ := after.queue
      obtain ⟨cellsAfter, headedAfter, _⟩ := representsAfter.headed
      exact ⟨answer, next, cellsAfter, stepped, headedAfter⟩
    · rintro connId rfl ⟨_, again, others⟩
      obtain rfl := (List.cons.inj (Chain.unique headed again)).2
      have named : baseTone.connId ≠ connId := fun same =>
        notHead (congrArg QueueCall.dequeue same.symm)
      have whole : ∀ cell ∈ (Address.baseToneEvent, baseTone) :: cells, cell.2.connId ≠ connId :=
        List.forall_mem_cons.mpr ⟨named, others⟩
      refine ⟨-1, dequeueLoop_none whole headed ?_, by decide⟩
      rw [← stored, List.length_map] at enough
      rw [List.length_cons]
      omega

/-- No freeing of anything but queued events: a run is safe exactly when none of its calls
is a dequeue of -1, the `conn_id` of the static head. -/
theorem safeRun_iff {fuel : Nat} {calls : List QueueCall} (enough : calls.length + 1 < fuel) :
    SafeRun fuel calls ↔ ∀ call ∈ calls, call ≠ .dequeue (-1) := by
  have initial : Settled fuel calls.length .initial :=
    ⟨⟨[], initialMemory_represents, by simpa using enough⟩, accounts_initial⟩
  refine eachCall_iff (Settled fuel) ?_ ?_ initial
  · intro remaining state call settled
    exact safeCall_iff settled
  · intro remaining state call notHead settled
    exact tracedStep_settled notHead settled

/-- Events of -1 may wait in the queue. -/
theorem safeRun_negative_ids :
    SafeRun 8 [.queue ⟨-1, 5⟩ (some anyAllocator), .queue ⟨-2, 6⟩ (some anyAllocator),
      .queue ⟨-2, 7⟩ none, .dequeue (-2), .dequeue (-2)] :=
  (safeRun_iff (by decide)).mpr (by simp)

/-- On a fresh queue a dequeue of -1 gives the static head to `free`. -/
theorem dequeue_frees_head : ¬ SafeRun 4 [.dequeue (-1)] := by
  intro safe
  obtain ⟨cells, headed, _⟩ := initialMemory_represents.headed
  exact not_owned_nil _ (safe.1.freesOwned _ (dequeue_head headed))

end Libamg.Dsp
