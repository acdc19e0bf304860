import Libamg.Dsp.ToneQueue
import Libamg.Semantics.Linearizable

/-!
# The tone queue under threads

The calls of `libamg_dsp_queue_tone_event` and `libamg_dsp_dequeue_tone_event` by any
number of threads, one access to memory after the other in any order; `tone_mutex` is
taken by one thread at a time. No access goes wrong, some thread can always go on
(`toneThreads_goesOn`), and what the threads see of the queue they can see of a list of
events that each call works on at one moment (`toneThreads_linearizable`).
-/

namespace Libamg.Dsp

open C Semantics

/-- A call by a thread. -/
inductive ToneCall where
  | queue (tone : Tone)
  | dequeue (connId : Int32)

/-- Where a thread is in a call, with its variables. -/
inductive Place where
  | idle
  | malloc (tone : Tone)
  | setConnId (tone : Tone) (t : Nat)
  | setTone (tone : Tone) (t : Nat)
  | setNext (tone : Tone) (t : Nat)
  | lockToQueue (tone : Tone) (t : Nat)
  | walk (tone : Tone) (t : Nat) (tmp : Address)
  | link (tone : Tone) (t : Nat) (tmp : Address)
  | lockToDequeue (connId : Int32)
  | visit (connId : Int32) (p : Address) (t : Option Address)
  | advance (connId : Int32) (t : Address)
  | take (connId : Int32) (p t : Address)
  | unlink (connId : Int32) (p t : Address) (tone : Int32)
  | relink (connId : Int32) (p t : Address) (tone : Int32) (next : Option Address)
  | free (t : Address) (tone : Int32)
  | unlock (status : Int32)
  | answer (status : Int32)

/-- The first thing a call does. -/
def ToneCall.begin : ToneCall → Place
  | queue tone => .malloc tone
  | dequeue connId => .lockToDequeue connId

/-- What comes behind `pthread_mutex_lock`. -/
def Place.locked : Place → Option Place
  | lockToQueue tone t => some (.walk tone t .baseToneEvent)
  | lockToDequeue connId => some (.visit connId .baseToneEvent (some .baseToneEvent))
  | _ => none

/-- The next access to memory, for a thread that is at one. -/
def access (memory : Memory) : Place → Option (Checked (Place × Memory))
  | .setConnId tone t => some do
      let cell ← memory.load (.heap t)
      return (.setTone tone t,
        memory.store (.heap t) ⟨{ cell.value with connId := tone.connId }, cell.next⟩)
  | .setTone tone t => some do
      let cell ← memory.load (.heap t)
      return (.setNext tone t, memory.store (.heap t) ⟨{ cell.value with tone := tone.tone }, cell.next⟩)
  | .setNext tone t => some do
      let cell ← memory.load (.heap t)
      return (.lockToQueue tone t, memory.store (.heap t) ⟨cell.value, none⟩)
  | .walk tone t tmp => some do
      let cell ← memory.load tmp
      match cell.next with
      | none => return (.link tone t tmp, memory)
      | some next => return (.walk tone t next, memory)
  | .link _ t tmp => some do
      let cell ← memory.load tmp
      return (.unlock 0, memory.store tmp ⟨cell.value, some (.heap t)⟩)
  | .visit _ _ none => some (.ok (.unlock (-1), memory))
  | .visit connId p (some t) => some do
      let cell ← memory.load t
      if connId ≠ cell.value.connId then return (.advance connId t, memory)
      else return (.take connId p t, memory)
  | .advance connId t => some do
      let cell ← memory.load t
      return (.visit connId t cell.next, memory)
  | .take connId p t => some do
      let cell ← memory.load t
      return (.unlink connId p t cell.value.tone, memory)
  | .unlink connId p t tone => some do
      let cell ← memory.load t
      return (.relink connId p t tone cell.next, memory)
  | .relink _ p t tone next => some do
      let cell ← memory.load p
      return (.free t tone, memory.store p ⟨cell.value, next⟩)
  | .free t tone => some do
      let memory ← Dsp.free memory t
      return (.unlock tone, memory)
  | _ => none

/-- The memory, the thread that has `tone_mutex`, and where each thread is. -/
structure Machine (Thread : Type) where
  memory : Memory
  owner : Option Thread
  places : Thread → Place

variable {Thread : Type} [DecidableEq Thread]

/-- One step of one thread. -/
inductive ToneStep : Machine Thread → Option (Event Thread ToneCall Int32) → Machine Thread → Prop
  | invoke {machine : Machine Thread} (thread : Thread) (call : ToneCall)
      (idle : machine.places thread = .idle) :
      ToneStep machine (some (.invoke thread call))
        ⟨machine.memory, machine.owner, Function.update machine.places thread call.begin⟩
  | malloc {machine : Machine Thread} (thread : Thread) {tone : Tone} (number : Nat)
      (cell : Cell Address Tone) (here : machine.places thread = .malloc tone)
      (fresh : machine.memory (.heap number) = none) :
      ToneStep machine none ⟨machine.memory.store (.heap number) cell, machine.owner,
        Function.update machine.places thread (.setConnId tone number)⟩
  | noMemory {machine : Machine Thread} (thread : Thread) {tone : Tone}
      (here : machine.places thread = .malloc tone) :
      ToneStep machine none
        ⟨machine.memory, machine.owner, Function.update machine.places thread (.answer (-1))⟩
  | lock {machine : Machine Thread} (thread : Thread) {place : Place}
      (here : (machine.places thread).locked = some place) (unowned : machine.owner = none) :
      ToneStep machine none
        ⟨machine.memory, some thread, Function.update machine.places thread place⟩
  | access {machine : Machine Thread} (thread : Thread) {place : Place} {after : Memory}
      (accessed : access machine.memory (machine.places thread) = some (.ok (place, after))) :
      ToneStep machine none ⟨after, machine.owner, Function.update machine.places thread place⟩
  | unlock {machine : Machine Thread} (thread : Thread) {status : Int32}
      (here : machine.places thread = .unlock status) :
      ToneStep machine none
        ⟨machine.memory, none, Function.update machine.places thread (.answer status)⟩
  | answer {machine : Machine Thread} (thread : Thread) {status : Int32}
      (here : machine.places thread = .answer status) :
      ToneStep machine (some (.answer thread status))
        ⟨machine.memory, machine.owner, Function.update machine.places thread .idle⟩

/-- Before the first call. -/
def startMachine : Machine Thread := ⟨initialMemory, none, fun _ => .idle⟩

/-! ## What a thread knows -/

namespace Place

/-- The thread has the mutex. -/
def inside : Place → Bool
  | walk .. | link .. | visit .. | advance .. | take .. | unlink .. | relink .. | free .. |
    unlock .. => true
  | _ => false

/-- The tone event that nobody else knows of. -/
def own : Place → Option Address
  | setConnId _ t | setTone _ t | setNext _ t | lockToQueue _ t | walk _ t _ | link _ t _ =>
      some (.heap t)
  | free t _ => some t
  | _ => none

/-- The call of a thread, until it takes effect, and its answer from then on. -/
def status : Place → Status ToneCall Int32
  | idle => .idle
  | malloc tone | setConnId tone _ | setTone tone _ | setNext tone _ | lockToQueue tone _ |
    walk tone _ _ | link tone _ _ => .called (.queue tone)
  | lockToDequeue connId | visit connId _ _ | advance connId _ | take connId _ _ |
    unlink connId _ _ _ | relink connId _ _ _ _ => .called (.dequeue connId)
  | free _ tone => .done tone
  | unlock status | answer status => .done status

end Place

/-- The event at `t` is the first of the connection, and the one at `p` links to it. -/
def Found (cells : List (Address × Tone)) (connId : Int32) (p t : Address) (event : Tone) : Prop :=
  ∃ passed previous rest, cells = passed ++ (p, previous) :: (t, event) :: rest ∧
    (∀ cell ∈ passed ++ [(p, previous)], cell.2.connId ≠ connId) ∧ event.connId = connId

/-- What a thread knows of the memory and of the list of tone events in it. -/
def Sound (memory : Memory) (cells : List (Address × Tone)) : Place → Prop
  | .setTone tone t => ∃ cell, memory (.heap t) = some cell ∧ cell.value.connId = tone.connId
  | .setNext tone t => ∃ next, memory (.heap t) = some ⟨tone, next⟩
  | .lockToQueue tone t => memory (.heap t) = some ⟨tone, none⟩
  | .walk tone t tmp => memory (.heap t) = some ⟨tone, none⟩ ∧ tmp ∈ addresses cells
  | .link tone t tmp => memory (.heap t) = some ⟨tone, none⟩ ∧
      ∃ front value, cells = front ++ [(tmp, value)]
  | .lockToDequeue connId => connId ≠ -1
  | .visit connId p t => connId ≠ -1 ∧ ∃ passed rest, cells = passed ++ rest ∧
      (∀ cell ∈ passed, cell.2.connId ≠ connId) ∧
      (passed ≠ [] → ∃ front value, passed = front ++ [(p, value)]) ∧
      t = rest.head?.map Prod.fst
  | .advance connId t => connId ≠ -1 ∧ ∃ passed value rest, cells = passed ++ (t, value) :: rest ∧
      ∀ cell ∈ passed ++ [(t, value)], cell.2.connId ≠ connId
  | .take connId p t => ∃ event, Found cells connId p t event
  | .unlink connId p t tone => ∃ event, Found cells connId p t event ∧ event.tone = tone
  | .relink connId p t tone next => ∃ event, Found cells connId p t event ∧ event.tone = tone ∧
      memory t = some ⟨event, next⟩
  | .free t _ => ∃ number, t = .heap number
  | _ => True

/-- The list of tone events with its static head. -/
def withBase (cells : List (Address × Tone)) : List (Address × Tone) :=
  (.baseToneEvent, baseTone) :: cells

/-- The tone events are in one list; one thread at most has the mutex; what the threads know is
so; and an event outside of the list is known to one thread. -/
structure Consistent (machine : Machine Thread) (cells : List (Address × Tone)) : Prop where
  chain : Chain machine.memory (some .baseToneEvent) (withBase cells)
  inside : ∀ thread, (machine.places thread).inside = true ↔ machine.owner = some thread
  sound : ∀ thread, Sound machine.memory (withBase cells) (machine.places thread)
  apart : ∀ thread address, (machine.places thread).own = some address →
    (machine.memory address).isSome ∧ address ∉ addresses (withBase cells)
  distinct : ∀ first second address, (machine.places first).own = some address →
    (machine.places second).own = some address → first = second
  owned : ∀ number, (machine.memory (.heap number)).isSome → .heap number ∈ addresses cells ∨
    ∃ thread, (machine.places thread).own = some (.heap number)

section Knowledge

variable {memory after : Memory} {cells others : List (Address × Tone)} {place : Place}

theorem Found.mem {connId : Int32} {p t : Address} {event : Tone} (found : Found cells connId p t event) :
    t ∈ addresses cells := by
  obtain ⟨passed, previous, rest, rfl, -⟩ := found
  rw [addresses, List.map_append]
  simp

/-- Outside of the mutex a thread knows its own event only. -/
theorem Sound.outside (sound : Sound memory cells place) (outside : place.inside = false)
    (same : ∀ address, place.own = some address → after address = memory address) :
    Sound after others place := by
  cases place with
  | setTone tone t | setNext tone t | lockToQueue tone t =>
      simpa only [Sound, same (.heap t) rfl] using sound
  | walk | link | visit | advance | take | unlink | relink | free | unlock => cases outside
  | lockToDequeue | idle | malloc | setConnId | answer => exact sound

/-- A change elsewhere does not matter. -/
theorem Sound.congr (sound : Sound memory cells place)
    (sameOwn : ∀ address, place.own = some address → after address = memory address)
    (sameCells : ∀ address ∈ addresses cells, after address = memory address) :
    Sound after cells place := by
  cases place with
  | setTone tone t | setNext tone t | lockToQueue tone t | walk tone t | link tone t =>
      simpa only [Sound, sameOwn (.heap t) rfl] using sound
  | relink connId p t tone next =>
      obtain ⟨event, found, isTone, linked⟩ := sound
      exact ⟨event, found, isTone, (sameCells t found.mem).trans linked⟩
  | visit | advance | take | unlink | free | unlock | lockToDequeue | idle | malloc | setConnId |
    answer => exact sound

end Knowledge

section Step

variable {machine : Machine Thread} {cells : List (Address × Tone)} {thread : Thread} {place : Place}

omit [DecidableEq Thread] in
/-- One thread has the mutex at most. -/
theorem Consistent.others_outside (consistent : Consistent machine cells)
    (inside : (machine.places thread).inside = true) {other : Thread} (different : other ≠ thread) :
    (machine.places other).inside = false := by
  by_contra alsoInside
  have first := (consistent.inside thread).mp inside
  have second := (consistent.inside other).mp (by simpa using alsoInside)
  rw [first] at second
  exact different (Option.some.inj second).symm

/-- What a step of a thread has to keep. A thread without the mutex leaves the list alone. -/
theorem Consistent.update (consistent : Consistent machine cells) {after : Memory}
    {owner : Option Thread} {others : List (Address × Tone)}
    (chain : Chain after (some .baseToneEvent) (withBase others))
    (isInside : place.inside = true ↔ owner = some thread)
    (otherOwners : ∀ other ≠ thread, owner = some other ↔ machine.owner = some other)
    (stable : (machine.places thread).inside = true ∨
      others = cells ∧ ∀ address ∈ addresses (withBase cells), after address = machine.memory address)
    (kept : ∀ other ≠ thread, ∀ address, (machine.places other).own = some address →
      after address = machine.memory address ∧ address ∉ addresses (withBase others))
    (sound : Sound after (withBase others) place)
    (own : ∀ address, place.own = some address → (after address).isSome ∧
      address ∉ addresses (withBase others) ∧
      ∀ other ≠ thread, (machine.places other).own ≠ some address)
    (owned : ∀ number, (after (.heap number)).isSome → .heap number ∈ addresses others ∨
      place.own = some (.heap number) ∨
      ∃ other ≠ thread, (machine.places other).own = some (.heap number)) :
    Consistent ⟨after, owner, Function.update machine.places thread place⟩ others where
  chain := chain
  inside := by
    intro other
    by_cases same : other = thread
    · subst same
      simpa only [Function.update_self] using isInside
    · simpa only [Function.update_of_ne same, otherOwners other same] using consistent.inside other
  sound := by
    intro other
    by_cases same : other = thread
    · subst same
      simpa only [Function.update_self] using sound
    · simp only [Function.update_of_ne same]
      have sameOwn := fun address isOwn => (kept other same address isOwn).1
      rcases stable with inside | ⟨rfl, sameCells⟩
      · exact (consistent.sound other).outside (consistent.others_outside inside same) sameOwn
      · exact (consistent.sound other).congr sameOwn sameCells
  apart := by
    intro other address isOwn
    by_cases same : other = thread
    · subst same
      simp only [Function.update_self] at isOwn
      exact ⟨(own address isOwn).1, (own address isOwn).2.1⟩
    · simp only [Function.update_of_ne same] at isOwn
      obtain ⟨sameValue, outside⟩ := kept other same address isOwn
      refine ⟨?_, outside⟩
      simpa only [sameValue] using (consistent.apart other address isOwn).1
  distinct := by
    intro first second address isFirst isSecond
    by_cases firstSame : first = thread
    · by_cases secondSame : second = thread
      · rw [firstSame, secondSame]
      · subst firstSame
        simp only [Function.update_self] at isFirst
        simp only [Function.update_of_ne secondSame] at isSecond
        exact absurd isSecond ((own address isFirst).2.2 second secondSame)
    · simp only [Function.update_of_ne firstSame] at isFirst
      by_cases secondSame : second = thread
      · subst secondSame
        simp only [Function.update_self] at isSecond
        exact absurd isFirst ((own address isSecond).2.2 first firstSame)
      · simp only [Function.update_of_ne secondSame] at isSecond
        exact consistent.distinct first second address isFirst isSecond
  owned := by
    intro number allocated
    rcases owned number allocated with listed | isOwn | ⟨other, different, isOwn⟩
    · exact .inl listed
    · refine .inr ⟨thread, ?_⟩
      simpa only [Function.update_self] using isOwn
    · refine .inr ⟨other, ?_⟩
      simpa only [Function.update_of_ne different] using isOwn

omit [DecidableEq Thread] in
theorem Consistent.own_of_other (consistent : Consistent machine cells) {address : Address}
    (own : (machine.places thread).own = some address) :
    ∀ other ≠ thread, (machine.places other).own ≠ some address :=
  fun _ different isOwn => different (consistent.distinct _ _ address isOwn own)

/-- Who knows of an event that is allocated, as a thread sees it. -/
theorem Consistent.owned_or (consistent : Consistent machine cells) (thread : Thread) {number : Nat}
    (allocated : (machine.memory (.heap number)).isSome) : .heap number ∈ addresses cells ∨
      (machine.places thread).own = some (.heap number) ∨
      ∃ other ≠ thread, (machine.places other).own = some (.heap number) := by
  rcases consistent.owned number allocated with listed | ⟨other, isOwn⟩
  · exact .inl listed
  · by_cases same : other = thread
    · subst same
      exact .inr (.inl isOwn)
    · exact .inr (.inr ⟨other, same, isOwn⟩)

/-- A step that leaves the memory alone. -/
theorem Consistent.moveTo (consistent : Consistent machine cells) {owner : Option Thread}
    (sameOwn : place.own = (machine.places thread).own)
    (isInside : place.inside = true ↔ owner = some thread)
    (otherOwners : ∀ other ≠ thread, owner = some other ↔ machine.owner = some other)
    (sound : Sound machine.memory (withBase cells) place) :
    Consistent ⟨machine.memory, owner, Function.update machine.places thread place⟩ cells := by
  refine consistent.update consistent.chain isInside otherOwners (.inr ⟨rfl, fun _ _ => rfl⟩)
    (fun other _ address isOwn => ⟨rfl, (consistent.apart other address isOwn).2⟩) sound ?_ ?_
  · intro address isOwn
    rw [sameOwn] at isOwn
    obtain ⟨allocated, outside⟩ := consistent.apart thread address isOwn
    exact ⟨allocated, outside, consistent.own_of_other isOwn⟩
  · intro number allocated
    rw [sameOwn]
    exact consistent.owned_or thread allocated

/-- A step that changes nothing but the place of the thread. -/
theorem Consistent.goTo (consistent : Consistent machine cells)
    (sameOwn : place.own = (machine.places thread).own)
    (sameInside : place.inside = (machine.places thread).inside)
    (sound : Sound machine.memory (withBase cells) place) :
    Consistent ⟨machine.memory, machine.owner, Function.update machine.places thread place⟩ cells := by
  refine consistent.moveTo sameOwn ?_ (fun _ _ => Iff.rfl) sound
  rw [sameInside]
  exact consistent.inside thread

/-- A step that writes to the thread's own event. -/
theorem Consistent.writeOwn (consistent : Consistent machine cells) {t : Nat}
    {cell : Cell Address Tone} (own : (machine.places thread).own = some (.heap t))
    (sameOwn : place.own = some (.heap t))
    (sameInside : place.inside = (machine.places thread).inside)
    (sound : Sound (machine.memory.store (.heap t) cell) (withBase cells) place) :
    Consistent ⟨machine.memory.store (.heap t) cell, machine.owner,
      Function.update machine.places thread place⟩ cells := by
  obtain ⟨allocated, outside⟩ := consistent.apart thread (.heap t) own
  have elsewhere : ∀ address ∈ addresses (withBase cells),
      machine.memory.store (.heap t) cell address = machine.memory address := by
    intro address listed
    refine Heap.store_of_ne _ _ ?_
    rintro rfl
    exact outside listed
  refine consistent.update (Segment.congr consistent.chain elsewhere) ?_ (fun _ _ => Iff.rfl)
    (.inr ⟨rfl, elsewhere⟩) ?_ sound ?_ ?_
  · rw [sameInside]
    exact consistent.inside thread
  · intro other different address isOwn
    refine ⟨Heap.store_of_ne _ _ ?_, (consistent.apart other address isOwn).2⟩
    rintro rfl
    exact consistent.own_of_other own other different isOwn
  · intro address isOwn
    obtain rfl : Address.heap t = address := Option.some.inj (sameOwn.symm.trans isOwn)
    rw [Heap.store_self]
    exact ⟨rfl, outside, consistent.own_of_other own⟩
  · intro number isAllocated
    rw [sameOwn, ← own]
    rcases (Heap.isSome_store_iff _ _).mp isAllocated with same | before
    · rw [same, own]
      exact .inr (.inl rfl)
    · exact consistent.owned_or thread before

end Step

/-! ## One access -/

/-- What a call may answer: the queue of a list of events, but that memory may run out. -/
def toneSpec : Spec (List Tone) ToneCall Int32 := fun events call status after =>
  match call with
  | .queue tone => status = 0 ∧ after = events ++ [tone] ∨ status = -1 ∧ after = events
  | .dequeue connId => (status, after) = dequeueEvent events connId

/-- What comes of an access: it does not go wrong, and either nothing can be seen of it or the
call of the thread takes effect. -/
def Follows (machine : Machine Thread) (cells : List (Address × Tone)) (thread : Thread)
    (accessed : Checked (Place × Memory)) : Prop :=
  ∃ place after others, accessed = .ok (place, after) ∧
    Consistent ⟨after, machine.owner, Function.update machine.places thread place⟩ others ∧
    (place.status = (machine.places thread).status ∧ others = cells ∨
      ∃ call answer, (machine.places thread).status = .called call ∧ place.status = .done answer ∧
        toneSpec (cells.map Prod.snd) call answer (others.map Prod.snd))

section Access

variable {machine : Machine Thread} {cells : List (Address × Tone)} {thread : Thread}
  {accessed : Checked (Place × Memory)}

/-- The accesses to an event that is not in the list yet. -/
theorem access_setConnId (consistent : Consistent machine cells) {tone : Tone} {t : Nat}
    (here : machine.places thread = .setConnId tone t)
    (next : access machine.memory (.setConnId tone t) = some accessed) :
    Follows machine cells thread accessed := by
  have own : (machine.places thread).own = some (.heap t) := by rw [here, Place.own]
  obtain ⟨cell, allocated⟩ := Option.isSome_iff_exists.mp (consistent.apart thread _ own).1
  simp only [access, Heap.load_eq_ok allocated, Checked.ok_bind, Option.some.injEq] at next
  refine ⟨_, _, cells, next.symm, consistent.writeOwn own rfl (by rw [here]; rfl) ?_,
    .inl ⟨by rw [here]; rfl, rfl⟩⟩
  exact ⟨_, Heap.store_self _ _ _, rfl⟩

theorem access_setTone (consistent : Consistent machine cells) {tone : Tone} {t : Nat}
    (here : machine.places thread = .setTone tone t)
    (next : access machine.memory (.setTone tone t) = some accessed) :
    Follows machine cells thread accessed := by
  have own : (machine.places thread).own = some (.heap t) := by rw [here, Place.own]
  have sound := consistent.sound thread
  rw [here] at sound
  obtain ⟨⟨value, link⟩, allocated, isConn⟩ := sound
  simp only [access, Heap.load_eq_ok allocated, Checked.ok_bind, Option.some.injEq] at next
  refine ⟨_, _, cells, next.symm, consistent.writeOwn own rfl (by rw [here]; rfl) ⟨link, ?_⟩,
    .inl ⟨by rw [here]; rfl, rfl⟩⟩
  obtain ⟨connId, old⟩ := value
  obtain rfl : connId = tone.connId := isConn
  exact Heap.store_self _ _ _

theorem access_setNext (consistent : Consistent machine cells) {tone : Tone} {t : Nat}
    (here : machine.places thread = .setNext tone t)
    (next : access machine.memory (.setNext tone t) = some accessed) :
    Follows machine cells thread accessed := by
  have own : (machine.places thread).own = some (.heap t) := by rw [here, Place.own]
  have sound := consistent.sound thread
  rw [here] at sound
  obtain ⟨link, allocated⟩ := sound
  simp only [access, Heap.load_eq_ok allocated, Checked.ok_bind, Option.some.injEq] at next
  refine ⟨_, _, cells, next.symm, consistent.writeOwn own rfl (by rw [here]; rfl) ?_,
    .inl ⟨by rw [here]; rfl, rfl⟩⟩
  exact Heap.store_self _ _ _

/-- Going to the end of the list. -/
theorem access_walk (consistent : Consistent machine cells) {tone : Tone} {t : Nat} {tmp : Address}
    (here : machine.places thread = .walk tone t tmp)
    (next : access machine.memory (.walk tone t tmp) = some accessed) :
    Follows machine cells thread accessed := by
  have sound := consistent.sound thread
  rw [here] at sound
  obtain ⟨isNew, listed⟩ := sound
  obtain ⟨⟨address, value⟩, member, rfl⟩ := List.mem_map.mp listed
  obtain ⟨front, back, shape⟩ := List.append_of_mem member
  have cell := Chain.cell_eq (shape ▸ consistent.chain)
  simp only [access, Heap.load_eq_ok cell, Checked.ok_bind, Option.some.injEq] at next
  cases back with
  | nil =>
      refine ⟨_, _, cells, next.symm, consistent.goTo (by rw [here]; rfl) (by rw [here]; rfl) ?_,
        .inl ⟨by rw [here]; rfl, rfl⟩⟩
      exact ⟨isNew, front, value, shape⟩
  | cons behind back =>
      refine ⟨_, _, cells, next.symm, consistent.goTo (by rw [here]; rfl) (by rw [here]; rfl) ?_,
        .inl ⟨by rw [here]; rfl, rfl⟩⟩
      refine ⟨isNew, ?_⟩
      rw [shape, addresses, List.map_append]
      simp

/-- Linking the new event behind the last one. -/
theorem access_link (consistent : Consistent machine cells) {tone : Tone} {t : Nat} {tmp : Address}
    (here : machine.places thread = .link tone t tmp)
    (next : access machine.memory (.link tone t tmp) = some accessed) :
    Follows machine cells thread accessed := by
  have own : (machine.places thread).own = some (.heap t) := by rw [here, Place.own]
  have inside : (machine.places thread).inside = true := by rw [here, Place.inside]
  obtain ⟨-, outside⟩ := consistent.apart thread _ own
  have sound := consistent.sound thread
  rw [here] at sound
  obtain ⟨isNew, front, value, shape⟩ := sound
  have cell := Chain.cell_eq (shape ▸ consistent.chain)
  have longer : withBase (cells ++ [(.heap t, tone)]) = front ++ [(tmp, value), (.heap t, tone)] := by
    rw [withBase, ← List.cons_append, ← withBase, shape, List.append_assoc]
    rfl
  have elsewhere {address : Address} (notListed : address ∉ addresses (withBase cells)) :
      machine.memory.store tmp ⟨value, some (.heap t)⟩ address = machine.memory address := by
    refine Heap.store_of_ne _ _ ?_
    rintro rfl
    refine notListed ?_
    rw [shape, addresses, List.map_append]
    simp
  -- The list without the new event, which is in memory as the chain wants it.
  have without : Chain (machine.memory.release (.heap t)) (some .baseToneEvent) (front ++ [(tmp, value)]) := by
    rw [← shape]
    refine Segment.congr consistent.chain fun address listed => Heap.release_of_ne _ ?_
    rintro rfl
    exact outside listed
  have restored : (machine.memory.release (.heap t)).store (.heap t) ⟨tone, none⟩ = machine.memory := by
    funext address
    by_cases same : address = .heap t
    · rw [same, Heap.store_self, isNew]
    · rw [Heap.store_of_ne _ _ same, Heap.release_of_ne _ same]
  have appended : Chain (((machine.memory.release (.heap t)).store (.heap t) ⟨tone, none⟩).store tmp
      ⟨value, some (.heap t)⟩) (some .baseToneEvent) (front ++ [(tmp, value), (.heap t, tone)]) :=
    without.append (Heap.release_self _ _)
  rw [restored, ← longer] at appended
  simp only [access, Heap.load_eq_ok cell, Checked.ok_bind, Option.some.injEq] at next
  refine ⟨_, _, cells ++ [(.heap t, tone)], next.symm,
    consistent.update appended ?_ (fun _ _ => Iff.rfl) (.inl inside) ?_ trivial ?_ ?_,
    .inr ⟨.queue tone, 0, by rw [here]; rfl, rfl, .inl ⟨rfl, List.map_append⟩⟩⟩
  · exact iff_of_true rfl ((consistent.inside thread).mp inside)
  · intro other different address isOwn
    have notListed := (consistent.apart other address isOwn).2
    refine ⟨elsewhere notListed, ?_⟩
    rw [withBase, ← List.cons_append, ← withBase, addresses, List.map_append, List.mem_append]
    rintro (listed | listed)
    · exact notListed listed
    · obtain rfl : address = .heap t := by simpa using listed
      exact consistent.own_of_other own other different isOwn
  · intro address impossible
    cases impossible
  · intro number allocated
    rw [addresses, List.map_append, List.mem_append]
    rcases (Heap.isSome_store_iff _ _).mp allocated with same | before
    · refine .inl (.inl ?_)
      have listed : .heap number ∈ addresses (withBase cells) := by
        rw [same, shape, addresses, List.map_append]
        simp
      exact (List.mem_cons.mp listed).resolve_left Address.noConfusion
    · rcases consistent.owned_or thread before with listed | isOwn | others
      · exact .inl (.inl listed)
      · rw [own] at isOwn
        cases isOwn
        exact .inl (.inr (.head _))
      · exact .inr (.inr others)

/-- Looking at an event, or at the end of the list. -/
theorem access_visit (consistent : Consistent machine cells) {connId : Int32} {p : Address}
    {t : Option Address} (here : machine.places thread = .visit connId p t)
    (next : access machine.memory (.visit connId p t) = some accessed) :
    Follows machine cells thread accessed := by
  have sound := consistent.sound thread
  rw [here] at sound
  obtain ⟨named, passed, rest, shape, others, behind, rfl⟩ := sound
  cases rest with
  | nil =>
      rw [List.append_nil] at shape
      simp only [List.head?_nil, Option.map_none, access, Option.some.injEq] at next
      refine ⟨_, _, cells, next.symm, consistent.goTo (by rw [here]; rfl) (by rw [here]; rfl) trivial,
        .inr ⟨.dequeue connId, -1, by rw [here]; rfl, rfl, ?_⟩⟩
      have nothing : ∀ event ∈ cells.map Prod.snd, event.connId ≠ connId := by
        intro event listed
        obtain ⟨cell, member, rfl⟩ := List.mem_map.mp listed
        exact others cell (shape ▸ List.mem_cons_of_mem _ member)
      have absent : (cells.map Prod.snd).find? (·.connId = connId) = none :=
        List.find?_eq_none.mpr fun event listed => by simpa using nothing event listed
      simp only [toneSpec, dequeueEvent, absent]
  | cons current rest =>
      obtain ⟨t, value⟩ := current
      have cell := Chain.cell_eq (shape ▸ consistent.chain)
      simp only [List.head?_cons, Option.map_some, access, Heap.load_eq_ok cell, Checked.ok_bind,
        Option.some.injEq] at next
      by_cases different : connId ≠ value.connId
      · rw [if_pos different] at next
        refine ⟨_, _, cells, next.symm, consistent.goTo (by rw [here]; rfl) (by rw [here]; rfl) ?_,
          .inl ⟨by rw [here]; rfl, rfl⟩⟩
        refine ⟨named, passed, value, rest, shape, fun cell listed => ?_⟩
        rcases List.mem_append.mp listed with inPassed | isCurrent
        · exact others cell inPassed
        · rw [List.mem_singleton.mp isCurrent]
          exact different.symm
      · rw [if_neg different] at next
        have isConn : value.connId = connId := (not_not.mp different).symm
        have some : passed ≠ [] := by
          rintro rfl
          rw [List.nil_append, withBase] at shape
          cases (List.cons.inj shape).1
          exact named isConn.symm
        obtain ⟨front, previous, rfl⟩ := behind some
        refine ⟨_, _, cells, next.symm, consistent.goTo (by rw [here]; rfl) (by rw [here]; rfl) ?_,
          .inl ⟨by rw [here]; rfl, rfl⟩⟩
        refine ⟨value, front, previous, rest, ?_, others, isConn⟩
        rw [shape, List.append_assoc]
        rfl

/-- Going on to the next event. -/
theorem access_advance (consistent : Consistent machine cells) {connId : Int32} {t : Address}
    (here : machine.places thread = .advance connId t)
    (next : access machine.memory (.advance connId t) = some accessed) :
    Follows machine cells thread accessed := by
  have sound := consistent.sound thread
  rw [here] at sound
  obtain ⟨named, passed, value, rest, shape, others⟩ := sound
  have cell := Chain.cell_eq (shape ▸ consistent.chain)
  simp only [access, Heap.load_eq_ok cell, Checked.ok_bind, Option.some.injEq] at next
  refine ⟨_, _, cells, next.symm, consistent.goTo (by rw [here]; rfl) (by rw [here]; rfl) ?_,
    .inl ⟨by rw [here]; rfl, rfl⟩⟩
  refine ⟨named, passed ++ [(t, value)], rest, ?_, others, fun _ => ⟨passed, value, rfl⟩, rfl⟩
  rw [shape, List.append_assoc]
  rfl

theorem Found.cell_eq {connId : Int32} {p t : Address} {event : Tone} {memory : Memory}
    {link : Option Address} (found : Found cells connId p t event) (chain : Chain memory link cells) :
    ∃ next, memory t = some ⟨event, next⟩ := by
  obtain ⟨passed, previous, rest, rfl, -⟩ := found
  rw [← List.singleton_append, ← List.append_assoc] at chain
  exact ⟨_, chain.cell_eq⟩

/-- Reading the tone, and then the link, of the event that was found. -/
theorem access_take (consistent : Consistent machine cells) {connId : Int32} {p t : Address}
    (here : machine.places thread = .take connId p t)
    (next : access machine.memory (.take connId p t) = some accessed) :
    Follows machine cells thread accessed := by
  have sound := consistent.sound thread
  rw [here] at sound
  obtain ⟨event, found⟩ := sound
  obtain ⟨link, cell⟩ := found.cell_eq consistent.chain
  simp only [access, Heap.load_eq_ok cell, Checked.ok_bind, Option.some.injEq] at next
  exact ⟨_, _, cells, next.symm,
    consistent.goTo (by rw [here]; rfl) (by rw [here]; rfl) ⟨event, found, rfl⟩,
    .inl ⟨by rw [here]; rfl, rfl⟩⟩

theorem access_unlink (consistent : Consistent machine cells) {connId tone : Int32} {p t : Address}
    (here : machine.places thread = .unlink connId p t tone)
    (next : access machine.memory (.unlink connId p t tone) = some accessed) :
    Follows machine cells thread accessed := by
  have sound := consistent.sound thread
  rw [here] at sound
  obtain ⟨event, found, isTone⟩ := sound
  obtain ⟨link, cell⟩ := found.cell_eq consistent.chain
  simp only [access, Heap.load_eq_ok cell, Checked.ok_bind, Option.some.injEq] at next
  exact ⟨_, _, cells, next.symm,
    consistent.goTo (by rw [here]; rfl) (by rw [here]; rfl) ⟨event, found, isTone, cell⟩,
    .inl ⟨by rw [here]; rfl, rfl⟩⟩

/-- The list in front of a cell that is not the first begins with the static head. -/
theorem exists_withBase {front back : List (Address × Tone)} {last : Address × Tone}
    (shape : withBase cells = (front ++ [last]) ++ back) :
    ∃ lead, front ++ [last] = withBase lead ∧ cells = lead ++ back := by
  cases front with
  | nil => exact ⟨[], congrArg (fun cell => [cell]) (List.cons.inj shape).1.symm, (List.cons.inj shape).2⟩
  | cons first front =>
      obtain ⟨isBase, others⟩ := List.cons.inj shape
      exact ⟨front ++ [last], by rw [← isBase]; rfl, others⟩

/-- The first event of a connection leaves the list of events. -/
theorem dequeueEvent_append {front back : List Tone} {event : Tone}
    (others : ∀ other ∈ front, other.connId ≠ event.connId) :
    dequeueEvent (front ++ event :: back) event.connId = (event.tone, front ++ back) := by
  have absent : front.find? (·.connId = event.connId) = none :=
    List.find?_eq_none.mpr fun other listed => by simpa using others other listed
  have first : (front ++ event :: back).find? (·.connId = event.connId) = some event := by
    rw [List.find?_append, absent, Option.none_or, List.find?_cons_of_pos (by simp)]
  have erased : (front ++ event :: back).eraseP (·.connId = event.connId) = front ++ back := by
    rw [List.eraseP_append_right _ fun other listed => by simpa using others other listed,
      List.eraseP_cons_of_pos (by simp)]
  rw [dequeueEvent, first, erased]

/-- Taking the event out of the list. -/
theorem access_relink (consistent : Consistent machine cells) {connId tone : Int32} {p t : Address}
    {link : Option Address} (here : machine.places thread = .relink connId p t tone link)
    (next : access machine.memory (.relink connId p t tone link) = some accessed) :
    Follows machine cells thread accessed := by
  have inside : (machine.places thread).inside = true := by rw [here, Place.inside]
  have sound := consistent.sound thread
  rw [here] at sound
  obtain ⟨event, ⟨passed, previous, rest, shape, others, rfl⟩, rfl, linked⟩ := sound
  have chain := consistent.chain
  have distinct := chain.nodup
  have previousCell := Chain.cell_eq (shape ▸ chain)
  obtain ⟨lead, isLead, rfl⟩ := @exists_withBase cells passed ((t, event) :: rest) (p, previous) (by
    rw [shape, List.append_assoc]
    rfl)
  have isT : t ∈ addresses (withBase (lead ++ (t, event) :: rest)) := by
    rw [withBase, addresses, ← List.cons_append, List.map_append]
    simp
  have shorter : withBase (lead ++ rest) = passed ++ (p, previous) :: rest := by
    rw [withBase, ← List.cons_append, ← withBase, ← isLead, List.append_assoc]
    rfl
  have subset {address : Address} (listed : address ∈ addresses (withBase (lead ++ rest))) :
      address ∈ addresses (withBase (lead ++ (t, event) :: rest)) := by
    rw [shorter, addresses, List.map_append] at listed
    rw [shape, addresses, List.map_append]
    simp only [List.mem_append, List.map_cons, List.mem_cons] at listed ⊢
    tauto
  have isP : p ∈ addresses (withBase (lead ++ rest)) := by
    rw [shorter, addresses, List.map_append]
    simp
  have removed : t ∉ addresses (withBase (lead ++ rest)) := by
    rw [shape, addresses, List.map_append, List.nodup_append'] at distinct
    obtain ⟨-, behind, apart⟩ := distinct
    rw [shorter, addresses, List.map_append, List.mem_append]
    rintro (inFront | inBack)
    · exact apart inFront (by simp)
    · simp only [List.map_cons, List.nodup_cons, List.mem_cons, not_or] at behind inBack
      rcases inBack with rfl | inRest
      · exact behind.1.1 rfl
      · exact behind.2.1 inRest
  have notP : t ≠ p := fun same => removed (same ▸ isP)
  have isHeap : ∃ number, t = .heap number := by
    cases t with
    | heap number => exact ⟨number, rfl⟩
    | baseToneEvent => exact absurd (.head _) removed
  have unlinked := (shape ▸ chain).unlink linked
  rw [← shorter] at unlinked
  have kept : Chain (machine.memory.store p ⟨previous, link⟩) (some .baseToneEvent)
      (withBase (lead ++ rest)) := by
    refine Segment.congr unlinked fun address listed => (Heap.release_of_ne _ ?_).symm
    rintro rfl
    exact removed listed
  simp only [access, Heap.load_eq_ok previousCell, Checked.ok_bind, Option.some.injEq] at next
  refine ⟨_, _, lead ++ rest, next.symm,
    consistent.update kept ?_ (fun _ _ => Iff.rfl) (.inl inside) ?_ isHeap ?_ ?_,
    .inr ⟨.dequeue event.connId, event.tone, by rw [here]; rfl, rfl, ?_⟩⟩
  · exact iff_of_true rfl ((consistent.inside thread).mp inside)
  · intro other different address isOwn
    have notListed := (consistent.apart other address isOwn).2
    refine ⟨Heap.store_of_ne _ _ ?_, fun listed => notListed (subset listed)⟩
    rintro rfl
    exact notListed (subset isP)
  · intro address isOwn
    obtain rfl : t = address := Option.some.inj isOwn
    rw [Heap.store_of_ne _ _ notP, linked]
    refine ⟨rfl, removed, fun other different alsoOwn => ?_⟩
    exact (consistent.apart other t alsoOwn).2 isT
  · intro number allocated
    have notBase {address : List (Address × Tone)}
        (listed : Address.heap number ∈ addresses (withBase address)) :
        Address.heap number ∈ addresses address :=
      (List.mem_cons.mp listed).resolve_left Address.noConfusion
    rcases (Heap.isSome_store_iff _ _).mp allocated with same | before
    · exact .inl (notBase (same ▸ isP))
    · rcases consistent.owned_or thread before with listed | isOwn | others
      · rw [addresses, List.map_append, List.map_cons, List.mem_append, List.mem_cons] at listed
        rw [addresses, List.map_append, List.mem_append]
        rcases listed with inLead | rfl | inRest
        · exact .inl (.inl inLead)
        · exact .inr (.inl rfl)
        · exact .inl (.inr inRest)
      · rw [here] at isOwn
        cases isOwn
      · exact .inr (.inr others)
  · have otherEvents : ∀ other ∈ lead.map Prod.snd, other.connId ≠ event.connId := by
      intro other listed
      obtain ⟨cell, member, rfl⟩ := List.mem_map.mp listed
      refine others cell ?_
      rw [isLead]
      exact List.mem_cons_of_mem _ member
    rw [List.map_append, List.map_append, List.map_cons]
    exact (dequeueEvent_append otherEvents).symm

/-- Giving the event back. -/
theorem access_free (consistent : Consistent machine cells) {tone : Int32} {t : Address}
    (here : machine.places thread = .free t tone)
    (next : access machine.memory (.free t tone) = some accessed) :
    Follows machine cells thread accessed := by
  have own : (machine.places thread).own = some t := by rw [here, Place.own]
  have inside : (machine.places thread).inside = true := by rw [here, Place.inside]
  obtain ⟨allocated, outside⟩ := consistent.apart thread t own
  have sound := consistent.sound thread
  rw [here] at sound
  obtain ⟨number, rfl⟩ := sound
  have freed : Dsp.free machine.memory (.heap number) = .ok (machine.memory.release (.heap number)) :=
    if_pos allocated
  have kept : Chain (machine.memory.release (.heap number)) (some .baseToneEvent) (withBase cells) := by
    refine Segment.congr consistent.chain fun address listed => Heap.release_of_ne _ ?_
    rintro rfl
    exact outside listed
  simp only [access, freed, Checked.ok_bind, Option.some.injEq] at next
  refine ⟨_, _, cells, next.symm,
    consistent.update kept ?_ (fun _ _ => Iff.rfl) (.inl inside) ?_ trivial ?_ ?_,
    .inl ⟨by rw [here]; rfl, rfl⟩⟩
  · exact iff_of_true rfl ((consistent.inside thread).mp inside)
  · intro other different address isOwn
    refine ⟨Heap.release_of_ne _ ?_, (consistent.apart other address isOwn).2⟩
    rintro rfl
    exact consistent.own_of_other own other different isOwn
  · intro address impossible
    cases impossible
  · intro other isAllocated
    obtain ⟨different, before⟩ := (Heap.isSome_release_iff _).mp isAllocated
    rcases consistent.owned_or thread before with listed | isOwn | others
    · exact .inl listed
    · rw [own] at isOwn
      exact absurd (Option.some.inj isOwn).symm different
    · exact .inr (.inr others)

/-- No access of a thread goes wrong. -/
theorem access_follows (consistent : Consistent machine cells) (thread : Thread)
    (next : access machine.memory (machine.places thread) = some accessed) :
    Follows machine cells thread accessed := by
  cases here : machine.places thread with
  | setConnId tone t => exact access_setConnId consistent here (here ▸ next)
  | setTone tone t => exact access_setTone consistent here (here ▸ next)
  | setNext tone t => exact access_setNext consistent here (here ▸ next)
  | walk tone t tmp => exact access_walk consistent here (here ▸ next)
  | link tone t tmp => exact access_link consistent here (here ▸ next)
  | visit connId p t => exact access_visit consistent here (here ▸ next)
  | advance connId t => exact access_advance consistent here (here ▸ next)
  | take connId p t => exact access_take consistent here (here ▸ next)
  | unlink connId p t tone => exact access_unlink consistent here (here ▸ next)
  | relink connId p t tone link => exact access_relink consistent here (here ▸ next)
  | free t tone => exact access_free consistent here (here ▸ next)
  | idle | malloc | lockToQueue | lockToDequeue | unlock | answer =>
      rw [here] at next
      cases next

end Access

/-! ## Runs -/

/-- No thread asks for the connection of the static head. -/
def Named : Event Thread ToneCall Int32 → Prop
  | .invoke _ (.dequeue connId) => connId ≠ -1
  | _ => True

/-- The machine holds the list of events of an atomic queue, and its threads are as far. -/
def Stands (machine : Machine Thread) (queue : Atomic Thread ToneCall Int32 (List Tone)) : Prop :=
  ∃ cells, Consistent machine cells ∧ queue.value = cells.map Prod.snd ∧
    ∀ thread, queue.status thread = (machine.places thread).status

section Runs

variable {machine next : Machine Thread} {queue : Atomic Thread ToneCall Int32 (List Tone)}
  {cells : List (Address × Tone)} {thread : Thread} {place : Place}

/-- The places after a step of a thread. -/
theorem status_update {before : Thread → Status ToneCall Int32} {places : Thread → Place}
    {status : Status ToneCall Int32} (same : ∀ other, before other = (places other).status)
    (becomes : place.status = status) (other : Thread) :
    Function.update before thread status other =
      (Function.update places thread place other).status := by
  by_cases self : other = thread
  · subst self
    rw [Function.update_self, Function.update_self, becomes]
  · rw [Function.update_of_ne self, Function.update_of_ne self, same]

theorem status_same {before : Thread → Status ToneCall Int32} {places : Thread → Place}
    (same : ∀ other, before other = (places other).status)
    (becomes : place.status = (places thread).status) (other : Thread) :
    before other = (Function.update places thread place other).status := by
  by_cases self : other = thread
  · subst self
    rw [Function.update_self, becomes, same]
  · rw [Function.update_of_ne self, same]

theorem Consistent.begin (consistent : Consistent machine cells) {call : ToneCall}
    (idle : machine.places thread = .idle) (named : Named (.invoke thread call)) :
    Consistent ⟨machine.memory, machine.owner, Function.update machine.places thread call.begin⟩
      cells := by
  cases call with
  | queue tone => exact consistent.goTo (by rw [idle]; rfl) (by rw [idle]; rfl) trivial
  | dequeue connId => exact consistent.goTo (by rw [idle]; rfl) (by rw [idle]; rfl) named

/-- `malloc` gives the thread an event of its own. -/
theorem Consistent.malloc (consistent : Consistent machine cells) {tone : Tone} {number : Nat}
    (cell : Cell Address Tone) (here : machine.places thread = .malloc tone)
    (fresh : machine.memory (.heap number) = none) :
    Consistent ⟨machine.memory.store (.heap number) cell, machine.owner,
      Function.update machine.places thread (.setConnId tone number)⟩ cells := by
  have outside : machine.owner ≠ some thread := by
    rw [ne_eq, ← consistent.inside, here]
    exact Bool.false_ne_true
  have unknown {address : Address} (allocated : (machine.memory address).isSome) :
      address ≠ .heap number := by
    rintro rfl
    rw [fresh] at allocated
    cases allocated
  have unlisted : .heap number ∉ addresses (withBase cells) := by
    intro listed
    obtain ⟨⟨address, value⟩, member, rfl⟩ := List.mem_map.mp listed
    obtain ⟨link, allocated⟩ := Segment.allocated consistent.chain member
    rw [fresh] at allocated
    cases allocated
  have elsewhere : ∀ address ∈ addresses (withBase cells),
      machine.memory.store (.heap number) cell address = machine.memory address := by
    intro address listed
    refine Heap.store_of_ne _ _ ?_
    rintro rfl
    exact unlisted listed
  refine consistent.update (Segment.congr consistent.chain elsewhere)
    (iff_of_false Bool.false_ne_true outside) (fun _ _ => Iff.rfl) (.inr ⟨rfl, elsewhere⟩) ?_
    trivial ?_ ?_
  · intro other _ address isOwn
    obtain ⟨allocated, notListed⟩ := consistent.apart other address isOwn
    exact ⟨Heap.store_of_ne _ _ (unknown allocated), notListed⟩
  · intro address isOwn
    obtain rfl : Address.heap number = address := Option.some.inj isOwn
    rw [Heap.store_self]
    exact ⟨rfl, unlisted, fun other _ alsoOwn =>
      unknown (consistent.apart other _ alsoOwn).1 rfl⟩
  · intro other allocated
    rcases (Heap.isSome_store_iff _ _).mp allocated with same | before
    · exact .inr (.inl (congrArg some same.symm))
    · rcases consistent.owned_or thread before with listed | isOwn | others
      · exact .inl listed
      · rw [here] at isOwn
        cases isOwn
      · exact .inr (.inr others)

/-- Taking the mutex. -/
theorem Consistent.lock (consistent : Consistent machine cells)
    (here : (machine.places thread).locked = some place) (unowned : machine.owner = none) :
    Consistent ⟨machine.memory, some thread, Function.update machine.places thread place⟩ cells ∧
      place.status = (machine.places thread).status := by
  have otherOwners : ∀ other ≠ thread, some thread = some other ↔ machine.owner = some other := by
    intro other different
    rw [unowned]
    exact iff_of_false (fun same => different (Option.some.inj same).symm) nofun
  have sound := consistent.sound thread
  cases isAt : machine.places thread with
  | lockToQueue tone t =>
      rw [isAt] at here sound
      cases here
      exact ⟨consistent.moveTo (by rw [isAt]; rfl) (iff_of_true rfl rfl) otherOwners
        ⟨sound, .head _⟩, rfl⟩
  | lockToDequeue connId =>
      rw [isAt] at here sound
      cases here
      refine ⟨consistent.moveTo (by rw [isAt]; rfl) (iff_of_true rfl rfl) otherOwners ?_, rfl⟩
      exact ⟨sound, [], withBase cells, rfl, fun _ impossible => (List.not_mem_nil impossible).elim,
        fun some => absurd rfl some, rfl⟩
  | _ =>
      rw [isAt] at here
      cases here

/-- Every step of the threads can be followed by the atomic queue. -/
theorem toneStep_follows (stands : Stands machine queue) {seen : Option (Event Thread ToneCall Int32)}
    (step : ToneStep machine seen next) (named : ∀ event ∈ seen, Named event) :
    ∃ after, Runs (AtomicStep toneSpec) queue seen.toList after ∧ Stands next after := by
  obtain ⟨cells, consistent, isValue, sameStatus⟩ := stands
  obtain ⟨value, status⟩ := queue
  obtain rfl : value = cells.map Prod.snd := isValue
  have sameStatus : ∀ thread, status thread = (machine.places thread).status := sameStatus
  cases step with
  | invoke thread call idle =>
      have isIdle : status thread = .idle := by rw [sameStatus, idle, Place.status]
      exact ⟨_, .single (.invoke isIdle), cells, consistent.begin idle (named _ rfl), rfl,
        status_update sameStatus (by cases call <;> rfl)⟩
  | malloc thread number cell here fresh =>
      exact ⟨_, .start, cells, consistent.malloc cell here fresh, rfl,
        status_same sameStatus (by rw [here]; rfl)⟩
  | @noMemory thread tone here =>
      have isCalled : status thread = .called (.queue tone) := by rw [sameStatus, here, Place.status]
      exact ⟨_, .single (.effect isCalled (.inr ⟨rfl, rfl⟩)), cells,
        consistent.goTo (by rw [here]; rfl) (by rw [here]; rfl) trivial, rfl,
        status_update sameStatus rfl⟩
  | lock thread here unowned =>
      obtain ⟨locked, same⟩ := consistent.lock here unowned
      exact ⟨_, .start, cells, locked, rfl, status_same sameStatus same⟩
  | access thread accessed =>
      obtain ⟨place, after, others, returned, consistentAfter, effect⟩ :=
        access_follows consistent thread accessed
      cases returned
      rcases effect with ⟨same, rfl⟩ | ⟨call, answer, called, done, allowed⟩
      · exact ⟨_, .start, others, consistentAfter, rfl, status_same sameStatus same⟩
      · exact ⟨_, .single (.effect ((sameStatus _).trans called) allowed), others, consistentAfter, rfl,
          status_update sameStatus done⟩
  | @unlock thread answer here =>
      have owner : machine.owner = some thread := (consistent.inside thread).mp (by rw [here]; rfl)
      refine ⟨_, .start, cells, consistent.moveTo (by rw [here]; rfl)
        (iff_of_false Bool.false_ne_true nofun) (fun other different => ?_) trivial, rfl,
        status_same sameStatus (by rw [here]; rfl)⟩
      rw [owner]
      exact iff_of_false nofun fun same => different (Option.some.inj same).symm
  | @answer thread answer here =>
      have isDone : status thread = .done answer := by rw [sameStatus, here, Place.status]
      exact ⟨_, .single (.answer isDone), cells,
        consistent.goTo (by rw [here]; rfl) (by rw [here]; rfl) trivial, rfl,
        status_update sameStatus rfl⟩

omit [DecidableEq Thread] in
theorem startMachine_stands :
    Stands (startMachine : Machine Thread) (⟨[], fun _ => .idle⟩ : Atomic Thread ToneCall Int32 _) := by
  refine ⟨[], ⟨⟨rfl, none, rfl, rfl⟩, fun _ => iff_of_false Bool.false_ne_true nofun,
    fun _ => trivial, fun _ _ impossible => ?_, fun _ _ _ impossible => ?_, fun _ impossible => ?_⟩,
    rfl, fun _ => rfl⟩ <;> cases impossible

theorem toneThreads_stands {history : List (Event Thread ToneCall Int32)}
    (run : Runs ToneStep startMachine history machine) (named : ∀ event ∈ history, Named event) :
    ∃ queue : Atomic Thread ToneCall Int32 (List Tone),
      Runs (AtomicStep toneSpec) ⟨[], fun _ => .idle⟩ history queue ∧ Stands machine queue :=
  run.simulates Stands Named (fun _ _ _ _ stands step named => toneStep_follows stands step named)
    named startMachine_stands

omit [DecidableEq Thread] in
/-- A thread that has the mutex is at an access or at the end of it. -/
theorem inside_goesOn (inside : place.inside = true) (memory : Memory) :
    (∃ accessed, access memory place = some accessed) ∨ ∃ status, place = .unlock status := by
  cases place with
  | unlock status => exact .inr ⟨status, rfl⟩
  | walk | link | advance | take | unlink | relink | free => exact .inl ⟨_, rfl⟩
  | visit connId p t => cases t <;> exact .inl ⟨_, rfl⟩
  | _ => cases inside

omit [DecidableEq Thread] in
/-- With no thread in a call there is nothing in memory but the list. -/
theorem Consistent.represents (consistent : Consistent machine cells) {events : List Tone}
    (isValue : events = cells.map Prod.snd) (idle : ∀ thread, machine.places thread = .idle) :
    Represents machine.memory events := by
  refine ⟨cells, consistent.chain, isValue.symm, fun number allocated => ?_⟩
  rcases consistent.owned number allocated with listed | ⟨thread, isOwn⟩
  · exact listed
  · rw [idle] at isOwn
    cases isOwn

/-- A thread queues a tone while another one waits for it. -/
def twoThreads : List (Event Bool ToneCall Int32) :=
  [.invoke true (.queue ⟨5, 1⟩), .invoke false (.dequeue 5), .answer true 0]

theorem twoThreads_named : ∀ event ∈ twoThreads, Named event := by
  intro event listed
  rcases listed with _ | ⟨_, _ | ⟨_, _ | ⟨_, listed⟩⟩⟩
  · trivial
  · exact (by decide : (5 : Int32) ≠ -1)
  · trivial
  · cases listed

theorem twoThreads_runs : ∃ machine, Runs ToneStep startMachine twoThreads machine := by
  have started : Runs ToneStep (startMachine : Machine Bool) [] startMachine := .start
  have invoked := (started.step (.invoke true (.queue ⟨5, 1⟩) rfl)).step (.invoke false (.dequeue 5) rfl)
  have allocated := Runs.step invoked (.malloc true 0 ⟨baseTone, none⟩ rfl rfl)
  have filled := Runs.step (.step (.step allocated (.access true rfl)) (.access true rfl)) (.access true rfl)
  have linked := Runs.step (.step (.step filled (.lock true rfl rfl)) (.access true rfl)) (.access true rfl)
  exact ⟨_, .step (.step linked (.unlock true rfl)) (.answer true rfl)⟩

/-- What the threads see of the queue can be seen of a list of events on which each call works at
one moment; with no thread in a call the memory holds that list and nothing else. -/
theorem toneThreads_linearizable {history : List (Event Thread ToneCall Int32)}
    (run : Runs ToneStep startMachine history machine) (named : ∀ event ∈ history, Named event) :
    ∃ queue : Atomic Thread ToneCall Int32 (List Tone),
      Runs (AtomicStep toneSpec) ⟨[], fun _ => .idle⟩ history queue ∧
      ((∀ thread, machine.places thread = .idle) → Represents machine.memory queue.value) := by
  obtain ⟨queue, ran, cells, consistent, isValue, -⟩ := toneThreads_stands run named
  exact ⟨queue, ran, consistent.represents isValue⟩

theorem toneThreads_linearizable_twoThreads :
    ∃ queue : Atomic Bool ToneCall Int32 (List Tone),
      Runs (AtomicStep toneSpec) ⟨[], fun _ => .idle⟩ twoThreads queue := by
  obtain ⟨machine, run⟩ := twoThreads_runs
  obtain ⟨queue, ran, -⟩ := toneThreads_linearizable run twoThreads_named
  exact ⟨queue, ran⟩

/-- No access goes wrong, and as long as a thread is in a call, some thread can go on. -/
theorem toneThreads_goesOn {history : List (Event Thread ToneCall Int32)}
    (run : Runs ToneStep startMachine history machine) (named : ∀ event ∈ history, Named event) :
    (∀ thread fault, access machine.memory (machine.places thread) ≠ some (.error fault)) ∧
      ((∃ thread, machine.places thread ≠ .idle) → ∃ seen next, ToneStep machine seen next ∧
        ∀ thread call, seen ≠ some (.invoke thread call)) := by
  obtain ⟨-, -, cells, consistent, -, -⟩ := toneThreads_stands run named
  have accesses {thread : Thread} {accessed : Checked (Place × Memory)}
      (next : access machine.memory (machine.places thread) = some accessed) :
      ∃ next, ToneStep machine none next := by
    obtain ⟨place, after, -, rfl, -⟩ := access_follows consistent thread next
    exact ⟨_, .access thread next⟩
  refine ⟨fun thread fault faults => ?_, fun ⟨thread, busy⟩ => ?_⟩
  · obtain ⟨place, after, -, impossible, -⟩ := access_follows consistent thread faults
    cases impossible
  · cases owned : machine.owner with
    | some owner =>
        rcases inside_goesOn ((consistent.inside owner).mpr owned) machine.memory with
          ⟨accessed, next⟩ | ⟨status, atEnd⟩
        · obtain ⟨next, stepped⟩ := accesses next
          exact ⟨none, next, stepped, nofun⟩
        · exact ⟨none, _, .unlock owner atEnd, nofun⟩
    | none =>
        cases isAt : machine.places thread with
        | idle => exact absurd isAt busy
        | malloc tone => exact ⟨none, _, .noMemory thread isAt, nofun⟩
        | lockToQueue | lockToDequeue =>
            exact ⟨none, _, .lock thread (by rw [isAt]; rfl) owned, nofun⟩
        | answer status => exact ⟨_, _, .answer thread isAt, nofun⟩
        | setConnId | setTone | setNext =>
            obtain ⟨next, stepped⟩ := @accesses thread _ (by rw [isAt]; rfl)
            exact ⟨none, next, stepped, nofun⟩
        | walk | link | visit | advance | take | unlink | relink | free | unlock =>
            have owner := (consistent.inside thread).mp (by rw [isAt]; rfl)
            rw [owned] at owner
            cases owner

theorem toneThreads_goesOn_twoThreads :
    ∃ machine, Runs ToneStep startMachine twoThreads machine ∧
      ∀ thread fault, access machine.memory (machine.places thread) ≠ some (.error fault) := by
  obtain ⟨machine, run⟩ := twoThreads_runs
  exact ⟨machine, run, (toneThreads_goesOn run twoThreads_named).1⟩

end Runs

/-! ## What is delivered -/

/-- The tones that were queued for a connection; -1 is no tone. -/
def queuedFor (connId : Int32) (log : List (ToneCall × Int32)) : List Int32 :=
  log.filterMap fun
    | (.queue tone, status) =>
        if tone.connId = connId ∧ status = 0 ∧ tone.tone ≠ -1 then some tone.tone else none
    | (.dequeue _, _) => none

/-- The tones that were handed out for a connection. -/
def deliveredFor (connId : Int32) (log : List (ToneCall × Int32)) : List Int32 :=
  log.filterMap fun
    | (.queue _, _) => none
    | (.dequeue other, tone) => if other = connId ∧ tone ≠ -1 then some tone else none

/-- The tones that wait for a connection. -/
def waitingFor (connId : Int32) (events : List Tone) : List Int32 :=
  events.filterMap fun event =>
    if event.connId = connId ∧ event.tone ≠ -1 then some event.tone else none

/-- The tones of a connection are handed out in the order they were queued in, none twice and
none left out. -/
theorem sequential_delivers {log : List (ToneCall × Int32)} {events : List Tone} (connId : Int32)
    (sequential : Sequential toneSpec [] log events) :
    deliveredFor connId log ++ waitingFor connId events = queuedFor connId log := by
  induction sequential with
  | start => rfl
  | @call middle last log call status before allowed inductionHypothesis =>
      rw [deliveredFor, queuedFor, List.filterMap_append, List.filterMap_append, ← deliveredFor,
        ← queuedFor, ← inductionHypothesis]
      cases call with
      | queue tone =>
          rcases allowed with ⟨rfl, rfl⟩ | ⟨rfl, rfl⟩
          · by_cases kept : tone.connId = connId ∧ tone.tone ≠ -1
            · simp [waitingFor, kept]
            · simp [waitingFor, kept]
          · simp
      | dequeue other =>
          rcases dequeueEvent_cases other middle with ⟨absent, unchanged⟩ |
            ⟨front, event, back, rfl, others, rfl, removed⟩
          · obtain ⟨rfl, rfl⟩ := Prod.mk.inj (allowed.trans unchanged)
            simp
          · obtain ⟨rfl, rfl⟩ := Prod.mk.inj (allowed.trans removed)
            by_cases isConn : event.connId = connId
            · subst isConn
              have nothing : waitingFor event.connId front = [] :=
                List.filterMap_eq_nil_iff.mpr fun other listed => by simp [others other listed]
              by_cases silent : event.tone = -1 <;>
                simp_all [waitingFor, List.filterMap_append]
            · simp [waitingFor, List.filterMap_append, isConn]

/-- Whatever the threads do, there is an order of the calls that each thread's calls and answers
agree with, in which every connection gets its tones in the order they were queued in, none
twice and none lost. -/
theorem toneThreads_fifo {machine : Machine Thread} {history : List (Event Thread ToneCall Int32)}
    (run : Runs ToneStep startMachine history machine) (named : ∀ event ∈ history, Named event) :
    ∃ (log : List (Thread × ToneCall × Int32)) (events : List Tone),
      (∀ thread, AccountsFor (callsOf thread history) (answersOf thread history) (entriesOf thread log)
        (machine.places thread).status) ∧
      (∀ connId, deliveredFor connId (log.map Prod.snd) ++ waitingFor connId events =
        queuedFor connId (log.map Prod.snd)) ∧
      ((∀ thread, machine.places thread = .idle) → Represents machine.memory events) := by
  obtain ⟨queue, ran, cells, consistent, isValue, sameStatus⟩ := toneThreads_stands run named
  obtain ⟨log, sequential, accounts⟩ := exists_log ran
  refine ⟨log, queue.value, fun thread => ?_, fun connId => sequential_delivers connId sequential,
    fun idle => ?_⟩
  · rw [← sameStatus]
    exact accounts thread
  · exact consistent.represents isValue idle

theorem toneThreads_fifo_twoThreads :
    ∃ (log : List (Bool × ToneCall × Int32)) (events : List Tone),
      deliveredFor 5 (log.map Prod.snd) ++ waitingFor 5 events = queuedFor 5 (log.map Prod.snd) := by
  obtain ⟨machine, run⟩ := twoThreads_runs
  obtain ⟨log, events, -, delivered, -⟩ := toneThreads_fifo run twoThreads_named
  exact ⟨log, events, delivered 5⟩

end Libamg.Dsp
