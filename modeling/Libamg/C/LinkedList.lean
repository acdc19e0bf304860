import Libamg.C.Memory
import Mathlib.Data.List.Nodup
import Mathlib.Logic.Function.Basic

/-!
# Singly linked lists in a heap

A heap maps addresses to the cells allocated there. `Segment` follows the links from
one pointer to another through given cells; `Chain` is a segment that ends at NULL.
The rules say how segments compose, what a store elsewhere leaves alone, and what
appending a cell and unlinking one do to a chain.
-/

namespace Libamg.C

/-- A cell of a linked list. -/
structure Cell (Address Value : Type) where
  value : Value
  next : Option Address

/-- The cells that are allocated. -/
abbrev Heap (Address Value : Type) := Address → Option (Cell Address Value)

variable {Address Value : Type}

namespace Heap

/-- Read a cell through a pointer. -/
def load (heap : Heap Address Value) (address : Address) : Checked (Cell Address Value) :=
  match heap address with
  | none => .error .danglingPointer
  | some cell => .ok cell

theorem load_eq_ok {heap : Heap Address Value} {address : Address} {cell : Cell Address Value}
    (allocated : heap address = some cell) : heap.load address = .ok cell := by
  rw [load, allocated]

theorem isSome_of_load {heap : Heap Address Value} {address : Address} {cell : Cell Address Value}
    (loaded : heap.load address = .ok cell) : (heap address).isSome := by
  cases here : heap address with
  | none =>
      rw [load, here] at loaded
      cases loaded
  | some _ => rfl

variable [DecidableEq Address]

/-- Write a cell. -/
def store (heap : Heap Address Value) (address : Address) (cell : Cell Address Value) :
    Heap Address Value := Function.update heap address (some cell)

/-- Give a cell back. -/
def release (heap : Heap Address Value) (address : Address) : Heap Address Value :=
  Function.update heap address none

@[simp] theorem store_self (heap : Heap Address Value) (address : Address)
    (cell : Cell Address Value) : heap.store address cell address = some cell :=
  Function.update_self _ _ _

theorem store_of_ne (heap : Heap Address Value) {address other : Address}
    (cell : Cell Address Value) (different : other ≠ address) :
    heap.store address cell other = heap other := Function.update_of_ne different _ _

@[simp] theorem release_self (heap : Heap Address Value) (address : Address) :
    heap.release address address = none := Function.update_self _ _ _

theorem release_of_ne (heap : Heap Address Value) {address other : Address}
    (different : other ≠ address) : heap.release address other = heap other :=
  Function.update_of_ne different _ _

theorem isSome_store_iff (heap : Heap Address Value) {address other : Address}
    (cell : Cell Address Value) :
    (heap.store address cell other).isSome ↔ other = address ∨ (heap other).isSome := by
  by_cases same : other = address
  · rw [same, store_self]
    exact iff_of_true rfl (.inl rfl)
  · rw [store_of_ne heap cell same, or_iff_right same]

theorem isSome_release_iff (heap : Heap Address Value) {address other : Address} :
    (heap.release address other).isSome ↔ other ≠ address ∧ (heap other).isSome := by
  by_cases same : other = address
  · rw [same, release_self]
    exact iff_of_false Bool.false_ne_true fun released => released.1 rfl
  · rw [release_of_ne heap same, and_iff_right same]

end Heap

/-- The links from `link` to `stop` go through the given cells. -/
def Segment (heap : Heap Address Value) :
    Option Address → List (Address × Value) → Option Address → Prop
  | link, [], stop => link = stop
  | link, (address, value) :: cells, stop =>
      link = some address ∧ ∃ next, heap address = some ⟨value, next⟩ ∧ Segment heap next cells stop

/-- The links from `link` go through the given cells and end at NULL. -/
def Chain (heap : Heap Address Value) (link : Option Address) (cells : List (Address × Value)) :
    Prop := Segment heap link cells none

/-- The addresses of a list of cells. -/
def addresses (cells : List (Address × Value)) : List Address := cells.map Prod.fst

section Segments

variable {heap : Heap Address Value}

theorem Segment.append_iff {link stop : Option Address} {front back : List (Address × Value)} :
    Segment heap link (front ++ back) stop ↔
      ∃ middle, Segment heap link front middle ∧ Segment heap middle back stop := by
  induction front generalizing link with
  | nil =>
      constructor
      · intro segment
        exact ⟨link, rfl, segment⟩
      · rintro ⟨middle, rfl, segment⟩
        exact segment
  | cons cell front inductionHypothesis =>
      constructor
      · rintro ⟨rfl, next, allocated, rest⟩
        obtain ⟨middle, first, second⟩ := inductionHypothesis.mp rest
        exact ⟨middle, ⟨rfl, next, allocated, first⟩, second⟩
      · rintro ⟨middle, ⟨rfl, next, allocated, first⟩, second⟩
        exact ⟨rfl, next, allocated, inductionHypothesis.mpr ⟨middle, first, second⟩⟩

/-- Two chains from one pointer are the same. -/
theorem Chain.unique {link : Option Address} {first second : List (Address × Value)}
    (chain : Chain heap link first) (other : Chain heap link second) : first = second := by
  induction first generalizing link second with
  | nil =>
      obtain rfl : link = none := chain
      cases second with
      | nil => rfl
      | cons cell second =>
          obtain ⟨linked, _⟩ := other
          cases linked
  | cons cell first inductionHypothesis =>
      obtain ⟨rfl, next, allocated, rest⟩ := chain
      cases second with
      | nil => cases other
      | cons otherCell second =>
          obtain ⟨linked, otherNext, otherAllocated, otherRest⟩ := other
          obtain ⟨address, value⟩ := cell
          obtain ⟨otherAddress, otherValue⟩ := otherCell
          obtain rfl : address = otherAddress := Option.some.inj linked
          rw [allocated] at otherAllocated
          cases otherAllocated
          rw [inductionHypothesis rest otherRest]

/-- A chain visits no cell twice: from the second visit on it would repeat for ever. -/
theorem Chain.nodup {link : Option Address} {cells : List (Address × Value)}
    (chain : Chain heap link cells) : (addresses cells).Nodup := by
  induction cells generalizing link with
  | nil => exact List.nodup_nil
  | cons cell cells inductionHypothesis =>
      obtain ⟨rfl, next, allocated, rest⟩ := chain
      refine List.nodup_cons.mpr ⟨fun member => ?_, inductionHypothesis rest⟩
      obtain ⟨⟨address, value⟩, visited, same⟩ := List.mem_map.mp member
      obtain ⟨before, behind, rfl⟩ := List.append_of_mem visited
      obtain ⟨middle, _, again⟩ := Segment.append_iff.mp rest
      have linked : middle = some cell.1 := by
        rw [again.1]
        exact congrArg some same
      have whole : Chain heap (some cell.1) (cell :: (before ++ (address, value) :: behind)) :=
        ⟨rfl, next, allocated, rest⟩
      have equal := Chain.unique (linked ▸ again : Chain heap (some cell.1) _) whole
      have lengths := congrArg List.length equal
      simp only [List.length_cons, List.length_append] at lengths
      omega

/-- A change of the heap elsewhere leaves a segment alone. -/
theorem Segment.congr {other : Heap Address Value} {link stop : Option Address}
    {cells : List (Address × Value)} (segment : Segment heap link cells stop)
    (same : ∀ address ∈ addresses cells, other address = heap address) :
    Segment other link cells stop := by
  induction cells generalizing link with
  | nil => exact segment
  | cons cell cells inductionHypothesis =>
      obtain ⟨rfl, next, allocated, rest⟩ := segment
      exact ⟨rfl, next, (same _ List.mem_cons_self).trans allocated,
        inductionHypothesis rest fun address member => same address (List.mem_cons_of_mem _ member)⟩

/-- Every cell of a segment is allocated. -/
theorem Segment.allocated {link stop : Option Address} {cells : List (Address × Value)}
    (segment : Segment heap link cells stop) {address : Address} {value : Value}
    (member : (address, value) ∈ cells) : ∃ next, heap address = some ⟨value, next⟩ := by
  obtain ⟨before, behind, rfl⟩ := List.append_of_mem member
  obtain ⟨_, _, _, next, allocated, _⟩ := Segment.append_iff.mp segment
  exact ⟨next, allocated⟩

/-- A cell of a chain links to the next one. -/
theorem Chain.cell_eq {link : Option Address} {front back : List (Address × Value)} {address : Address}
    {value : Value} (chain : Chain heap link (front ++ (address, value) :: back)) :
    heap address = some ⟨value, back.head?.map Prod.fst⟩ := by
  obtain ⟨_, -, -, next, allocated, rest⟩ := Segment.append_iff.mp chain
  cases back with
  | nil =>
      obtain rfl : next = none := rest
      exact allocated
  | cons cell back =>
      obtain ⟨rfl, -⟩ := rest
      exact allocated

variable [DecidableEq Address]

/-- Linking a new cell behind the last one appends it. -/
theorem Chain.append {link : Option Address} {front : List (Address × Value)}
    {last added : Address} {value addedValue : Value}
    (chain : Chain heap link (front ++ [(last, value)])) (fresh : heap added = none) :
    Chain ((heap.store added ⟨addedValue, none⟩).store last ⟨value, some added⟩) link
      (front ++ [(last, value), (added, addedValue)]) := by
  have distinct := chain.nodup
  obtain ⟨middle, before, rfl, next, allocated, rfl⟩ := Segment.append_iff.mp chain
  have different : added ≠ last := by
    rintro rfl
    rw [fresh] at allocated
    cases allocated
  have unvisited : ∀ address ∈ addresses front, address ≠ last ∧ address ≠ added := by
    intro address member
    constructor
    · rintro rfl
      rw [addresses, List.map_append] at distinct
      exact List.disjoint_of_nodup_append distinct member List.mem_cons_self
    · rintro rfl
      obtain ⟨⟨visited, visitedValue⟩, inFront, rfl⟩ := List.mem_map.mp member
      obtain ⟨_, isAllocated⟩ := before.allocated inFront
      rw [fresh] at isAllocated
      cases isAllocated
  refine Segment.append_iff.mpr ⟨some last, before.congr fun address member => ?_, rfl, some added,
    Heap.store_self _ _ _, rfl, none, ?_, rfl⟩
  · obtain ⟨notLast, notAdded⟩ := unvisited address member
    rw [Heap.store_of_ne _ _ notLast, Heap.store_of_ne _ _ notAdded]
  · rw [Heap.store_of_ne _ _ different, Heap.store_self]

/-- Unlinking a cell takes it out of the chain. -/
theorem Chain.unlink {link next : Option Address} {front back : List (Address × Value)}
    {previous removed : Address} {value removedValue : Value}
    (chain : Chain heap link (front ++ (previous, value) :: (removed, removedValue) :: back))
    (linked : heap removed = some ⟨removedValue, next⟩) :
    Chain ((heap.store previous ⟨value, next⟩).release removed) link
      (front ++ (previous, value) :: back) := by
  have distinct := chain.nodup
  obtain ⟨middle, before, rfl, link', allocated, rfl, next', allocatedNext, rest⟩ :=
    Segment.append_iff.mp chain
  rw [linked] at allocatedNext
  cases allocatedNext
  rw [addresses, List.map_append, List.nodup_append'] at distinct
  obtain ⟨_, behind, apart⟩ := distinct
  simp only [List.map_cons, List.nodup_cons, List.mem_cons, not_or] at behind
  obtain ⟨⟨different, previousUnvisited⟩, removedUnvisited, _⟩ := behind
  refine Segment.append_iff.mpr ⟨some previous, before.congr fun address member => ?_, rfl, next,
    ?_, rest.congr fun address member => ?_⟩
  · have notPrevious : address ≠ previous := by
      rintro rfl
      exact apart member (by simp)
    have notRemoved : address ≠ removed := by
      rintro rfl
      exact apart member (by simp)
    rw [Heap.release_of_ne _ notRemoved, Heap.store_of_ne _ _ notPrevious]
  · rw [Heap.release_of_ne _ different, Heap.store_self]
  · have notPrevious : address ≠ previous := by
      rintro rfl
      exact previousUnvisited member
    have notRemoved : address ≠ removed := by
      rintro rfl
      exact removedUnvisited member
    rw [Heap.release_of_ne _ notRemoved, Heap.store_of_ne _ _ notPrevious]

end Segments

end Libamg.C
