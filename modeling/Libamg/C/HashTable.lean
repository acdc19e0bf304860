import Libamg.C.LinkedList

/-!
# Hash tables of linked lists

Every slot of a table heads a linked list of the cells whose keys belong there. `locate` is
the search with a pointer to the place of the link, so that a cell can be linked in where
the search ended; `find` is the search that only reads. `Holds` says which cells are in the
slots, `Represents` which value each key has, and the rules say what replacing a value and
linking a cell in do to both.
-/

namespace Libamg.C

/-- The heads of the lists, and the heap that their cells live in. -/
structure HashTable (Address Value : Type) (slots : Nat) where
  heads : Fin slots → Option Address
  heap : Heap Address Value

/-- The place of a link: the head of a slot, or the link in a cell. -/
inductive Link (Address : Type) (slots : Nat) where
  | head (slot : Fin slots)
  | next (address : Address)

namespace HashTable

variable {Address Value : Type} {slots : Nat}

/-- The link at a place. -/
def follow (table : HashTable Address Value slots) : Link Address slots → Checked (Option Address)
  | .head slot => return table.heads slot
  | .next address => do
      let cell ← table.heap.load address
      return cell.next

/-- `for (place = &heads[slot]; (cell = *place) != NULL; place = &cell->next)`, left at the
first wanted cell. -/
def locate (wanted : Value → Checked Bool) (table : HashTable Address Value slots) :
    Nat → Link Address slots → Checked (Option Address × Link Address slots)
  | 0, _ => .error .unfinished
  | fuel + 1, place => do
      match ← table.follow place with
      | none => return (none, place)
      | some address => do
          let cell ← table.heap.load address
          if ← wanted cell.value then return (some address, place)
          else locate wanted table fuel (.next address)

/-- `for (cell = heads[slot]; cell; cell = cell->next)`, left at the first wanted cell. -/
def find (wanted : Value → Checked Bool) (heap : Heap Address Value) :
    Nat → Option Address → Checked (Option Value)
  | 0, _ => .error .unfinished
  | _ + 1, none => return none
  | fuel + 1, some address => do
      let cell ← heap.load address
      if ← wanted cell.value then return some cell.value
      else find wanted heap fuel cell.next

variable [DecidableEq Address]

/-- Store a link at a place. -/
def link (table : HashTable Address Value slots) (target : Address) :
    Link Address slots → Checked (HashTable Address Value slots)
  | .head slot => return { table with heads := Function.update table.heads slot (some target) }
  | .next address => do
      let cell ← table.heap.load address
      return { table with heap := table.heap.store address { cell with next := some target } }

/-- Store a cell. -/
def store (table : HashTable Address Value slots) (address : Address) (cell : Cell Address Value) :
    HashTable Address Value slots := { table with heap := table.heap.store address cell }

omit [DecidableEq Address]

/-! ## Searching -/

section Search

variable {table : HashTable Address Value slots} {cells : List (Address × Value)}
  {start : Option Address} {wanted : Value → Checked Bool} {decides : Value → Bool}

/-- The place of the link behind some cells. -/
def placeBehind (place : Link Address slots) (cells : List (Address × Value)) : Link Address slots :=
  match cells.getLast? with
  | none => place
  | some cell => .next cell.1

theorem placeBehind_cons (place : Link Address slots) (cell : Address × Value)
    (cells : List (Address × Value)) :
    placeBehind place (cell :: cells) = placeBehind (.next cell.1) cells := by
  rw [placeBehind, placeBehind, List.getLast?_cons]
  cases cells.getLast? <;> rfl

/-- The search ends at the first wanted cell, or at the place behind all cells. -/
theorem locate_chain (chain : Chain table.heap start cells)
    (tested : ∀ cell ∈ cells, wanted cell.2 = .ok (decides cell.2)) {place : Link Address slots}
    (here : table.follow place = .ok start) {fuel : Nat} (enough : cells.length < fuel) :
    ∃ found, locate wanted table fuel place =
        .ok ((cells.find? fun cell => decides cell.2).map Prod.fst, found) ∧
      ((cells.find? fun cell => decides cell.2) = none → found = placeBehind place cells) := by
  induction cells generalizing start place fuel with
  | nil =>
      obtain ⟨fuel, rfl⟩ : ∃ less, fuel = less + 1 := ⟨fuel - 1, by omega⟩
      obtain rfl : start = none := chain
      refine ⟨place, ?_, fun _ => rfl⟩
      rw [locate, here]
      rfl
  | cons cell cells inductionHypothesis =>
      rw [List.length_cons] at enough
      obtain ⟨fuel, rfl⟩ : ∃ less, fuel = less + 1 := ⟨fuel - 1, by omega⟩
      obtain ⟨rfl, next, allocated, rest⟩ := chain
      have test := tested cell (.head cells)
      rw [locate, here]
      simp only [Checked.ok_bind, Heap.load_eq_ok allocated, test]
      cases isWanted : decides cell.2 with
      | true =>
          refine ⟨place, ?_, ?_⟩
          · rw [if_pos rfl, List.find?_cons, isWanted]
            rfl
          · intro none
            rw [List.find?_cons, isWanted] at none
            cases none
      | false =>
        have later : table.follow (.next cell.1) = .ok next := by
          rw [follow, Heap.load_eq_ok allocated]
          rfl
        rw [if_neg Bool.false_ne_true, List.find?_cons, isWanted, placeBehind_cons]
        exact inductionHypothesis rest (fun cell listed => tested cell (.tail _ listed)) later
          (by omega)

/-- Behind the last cell of a list there is NULL. -/
theorem follow_placeBehind (chain : Chain table.heap start cells) {place : Link Address slots}
    (here : table.follow place = .ok start) : table.follow (placeBehind place cells) = .ok none := by
  induction cells generalizing start place with
  | nil =>
      obtain rfl : start = none := chain
      exact here
  | cons cell cells inductionHypothesis =>
      obtain ⟨rfl, next, allocated, rest⟩ := chain
      rw [placeBehind_cons]
      refine inductionHypothesis rest ?_
      rw [follow, Heap.load_eq_ok allocated]
      rfl

/-- The search that only reads finds the first wanted value. -/
theorem find_chain (chain : Chain table.heap start cells)
    (tested : ∀ cell ∈ cells, wanted cell.2 = .ok (decides cell.2)) {fuel : Nat}
    (enough : cells.length < fuel) :
    find wanted table.heap fuel start =
      .ok ((cells.find? fun cell => decides cell.2).map Prod.snd) := by
  induction cells generalizing start fuel with
  | nil =>
      obtain ⟨fuel, rfl⟩ : ∃ less, fuel = less + 1 := ⟨fuel - 1, by omega⟩
      obtain rfl : start = none := chain
      rfl
  | cons cell cells inductionHypothesis =>
      rw [List.length_cons] at enough
      obtain ⟨fuel, rfl⟩ : ∃ less, fuel = less + 1 := ⟨fuel - 1, by omega⟩
      obtain ⟨rfl, next, allocated, rest⟩ := chain
      have test := tested cell (.head cells)
      rw [find]
      simp only [Checked.ok_bind, Heap.load_eq_ok allocated, test]
      cases isWanted : decides cell.2 with
      | true =>
          rw [if_pos rfl, List.find?_cons, isWanted]
          rfl
      | false =>
          rw [if_neg Bool.false_ne_true, List.find?_cons, isWanted]
          exact inductionHypothesis rest (fun cell listed => tested cell (.tail _ listed)) (by omega)

end Search

/-! ## Contents -/

section Contents

variable {hash : Value → Fin slots} {table : HashTable Address Value slots}
  {cells : Fin slots → List (Address × Value)}

/-- The slots of the table have these cells, each in the slot of its value. -/
structure Holds (hash : Value → Fin slots) (table : HashTable Address Value slots)
    (cells : Fin slots → List (Address × Value)) : Prop where
  chain : ∀ slot, Chain table.heap (table.heads slot) (cells slot)
  hashed : ∀ slot, ∀ cell ∈ cells slot, hash cell.2 = slot

/-- An empty table has no cells. -/
theorem holds_empty (hash : Value → Fin slots) (heap : Heap Address Value) :
    Holds hash ⟨fun _ => none, heap⟩ fun _ => [] where
  chain _ := rfl
  hashed _ _ listed := by cases listed

/-- No cell is in two slots. -/
theorem Holds.slot_unique (holds : Holds hash table cells) {address : Address}
    {value other : Value} {slot otherSlot : Fin slots} (listed : (address, value) ∈ cells slot)
    (also : (address, other) ∈ cells otherSlot) : otherSlot = slot := by
  obtain ⟨next, allocated⟩ := Segment.allocated (holds.chain slot) listed
  obtain ⟨otherNext, otherAllocated⟩ := Segment.allocated (holds.chain otherSlot) also
  rw [allocated] at otherAllocated
  cases otherAllocated
  exact (holds.hashed otherSlot _ also).symm.trans (holds.hashed slot _ listed)

variable [DecidableEq Address]

/-- A value that belongs to the same slot takes the place of another. -/
theorem Holds.replace (holds : Holds hash table cells) {slot : Fin slots}
    {front back : List (Address × Value)} {address : Address} {value new : Value}
    {next : Option Address} (shape : cells slot = front ++ (address, value) :: back)
    (allocated : table.heap address = some ⟨value, next⟩) (sameSlot : hash new = slot) :
    Holds hash (table.store address ⟨new, next⟩)
      (Function.update cells slot (front ++ (address, new) :: back)) := by
  have here : (address, value) ∈ cells slot := by
    rw [shape]
    exact List.mem_append_right front (.head back)
  constructor
  · intro other
    by_cases same : other = slot
    · subst same
      have chain := holds.chain other
      have distinct := chain.nodup
      rw [shape] at chain distinct
      obtain ⟨middle, before, rfl, next', found, rest⟩ := Segment.append_iff.mp chain
      rw [allocated] at found
      cases found
      rw [addresses, List.map_append, List.map_cons, List.nodup_append'] at distinct
      obtain ⟨-, behind, apart⟩ := distinct
      have unvisited := (List.nodup_cons.mp behind).1
      rw [Function.update_self]
      refine Segment.append_iff.mpr ⟨some address, before.congr fun visited member => ?_, rfl, next,
        Heap.store_self _ _ _, rest.congr fun visited member => ?_⟩
      · refine Heap.store_of_ne _ _ ?_
        rintro rfl
        exact apart member (.head _)
      · refine Heap.store_of_ne _ _ ?_
        rintro rfl
        exact unvisited member
    · rw [Function.update_of_ne same]
      refine (holds.chain other).congr fun visited member => Heap.store_of_ne _ _ ?_
      rintro rfl
      obtain ⟨⟨visited, otherValue⟩, listed, rfl⟩ := List.mem_map.mp member
      exact same (holds.slot_unique here listed)
  · intro other cell listed
    by_cases same : other = slot
    · subst same
      rw [Function.update_self, List.mem_append, List.mem_cons] at listed
      have old := holds.hashed other
      rw [shape] at old
      rcases listed with inFront | rfl | inBack
      · exact old cell (List.mem_append_left _ inFront)
      · exact sameSlot
      · exact old cell (List.mem_append_right _ (.tail _ inBack))
    · rw [Function.update_of_ne same] at listed
      exact holds.hashed other cell listed

/-- A new cell is linked in behind the cells of its slot. -/
theorem Holds.insert (holds : Holds hash table cells) {added : Address} (value : Value)
    (fresh : table.heap added = none) :
    ∃ after, (table.store added ⟨value, none⟩).link added
        (placeBehind (.head (hash value)) (cells (hash value))) = .ok after ∧
      after.heap added = some ⟨value, none⟩ ∧
      (∀ address, (after.heap address).isSome ↔ address = added ∨ (table.heap address).isSome) ∧
      Holds hash after
        (Function.update cells (hash value) (cells (hash value) ++ [(added, value)])) := by
  have unlisted (slot : Fin slots) : added ∉ addresses (cells slot) := by
    intro member
    obtain ⟨⟨visited, other⟩, listed, rfl⟩ := List.mem_map.mp member
    obtain ⟨_, allocated⟩ := Segment.allocated (holds.chain slot) listed
    rw [fresh] at allocated
    cases allocated
  have hashed : ∀ slot, ∀ cell ∈ Function.update cells (hash value)
      (cells (hash value) ++ [(added, value)]) slot, hash cell.2 = slot := by
    intro slot cell listed
    by_cases same : slot = hash value
    · subst same
      rw [Function.update_self, List.mem_append, List.mem_singleton] at listed
      rcases listed with old | rfl
      · exact holds.hashed _ cell old
      · rfl
    · rw [Function.update_of_ne same] at listed
      exact holds.hashed slot cell listed
  rcases List.eq_nil_or_concat (cells (hash value)) with empty | ⟨front, ⟨last, lastValue⟩, shape⟩
  · refine ⟨_, by rw [placeBehind, empty]; rfl, Heap.store_self _ _ _,
      fun address => Heap.isSome_store_iff _ _, ?_, hashed⟩
    intro slot
    by_cases same : slot = hash value
    · subst same
      rw [Function.update_self, empty]
      exact ⟨Function.update_self _ _ _, none, Heap.store_self _ _ _, rfl⟩
    · rw [Function.update_of_ne same]
      have old : Chain table.heap (Function.update table.heads (hash value) (some added) slot)
          (cells slot) := by
        rw [Function.update_of_ne same]
        exact holds.chain slot
      refine old.congr fun visited member => Heap.store_of_ne _ _ ?_
      rintro rfl
      exact unlisted slot member
  · have chain := holds.chain (hash value)
    rw [List.concat_eq_append] at shape
    rw [shape] at chain
    obtain ⟨-, -, -, next, allocated, ended⟩ := Segment.append_iff.mp chain
    obtain rfl : next = none := ended
    have different : last ≠ added := by
      rintro rfl
      rw [fresh] at allocated
      cases allocated
    have loaded : (table.store added ⟨value, none⟩).heap.load last = .ok ⟨lastValue, none⟩ :=
      Heap.load_eq_ok ((Heap.store_of_ne _ _ different).trans allocated)
    refine ⟨(table.store added ⟨value, none⟩).store last ⟨lastValue, some added⟩, ?_,
      (Heap.store_of_ne _ _ different.symm).trans (Heap.store_self _ _ _), fun address => ?_, ?_,
      hashed⟩
    · rw [placeBehind, shape, List.getLast?_append]
      simp only [List.getLast?_singleton, Option.some_or, link, loaded, Checked.ok_bind]
      rfl
    · have lastAllocated : (table.heap last).isSome := by
        rw [allocated]
        rfl
      refine (Heap.isSome_store_iff _ _).trans ((or_congr_right (Heap.isSome_store_iff _ _)).trans ?_)
      refine or_iff_right_of_imp ?_
      rintro rfl
      exact .inr lastAllocated
    · intro slot
      by_cases same : slot = hash value
      · subst same
        rw [Function.update_self, shape, List.append_assoc]
        exact chain.append fresh
      · rw [Function.update_of_ne same]
        refine (holds.chain slot).congr fun visited member => ?_
        have notAdded : visited ≠ added := by
          rintro rfl
          exact unlisted slot member
        have notLast : visited ≠ last := by
          rintro rfl
          obtain ⟨⟨visited, other⟩, listed, rfl⟩ := List.mem_map.mp member
          have isLast : (visited, lastValue) ∈ cells (hash value) := by
            rw [shape]
            exact List.mem_append_right front (.head [])
          exact same (holds.slot_unique isLast listed)
        exact (Heap.store_of_ne _ _ notLast).trans (Heap.store_of_ne _ _ notAdded)

end Contents

/-! ## Keys -/

section Keys

variable {Key : Type} [DecidableEq Key] {key : Value → Key} {slotOf : Key → Fin slots}
  {table : HashTable Address Value slots} {cells : Fin slots → List (Address × Value)}

/-- The value of a key. -/
def valueOf (key : Value → Key) (slotOf : Key → Fin slots) (cells : Fin slots → List (Address × Value))
    (wanted : Key) : Option Value :=
  ((cells (slotOf wanted)).find? fun cell => key cell.2 = wanted).map Prod.snd

/-- The table has these cells, in the slots of their keys, and no two with the same key. -/
structure Keyed (key : Value → Key) (slotOf : Key → Fin slots) (table : HashTable Address Value slots)
    (cells : Fin slots → List (Address × Value)) : Prop where
  holds : Holds (fun value => slotOf (key value)) table cells
  distinct : ∀ slot, ((cells slot).map fun cell => key cell.2).Nodup

/-- Where no two cells have the same key, any cell has the value of its key. -/
theorem Keyed.valueOf_eq (keyed : Keyed key slotOf table cells) {slot : Fin slots}
    {cell : Address × Value} (listed : cell ∈ cells slot) :
    valueOf key slotOf cells (key cell.2) = some cell.2 := by
  have sameSlot : slotOf (key cell.2) = slot := keyed.holds.hashed slot cell listed
  have distinct := keyed.distinct slot
  rw [valueOf, sameSlot]
  obtain ⟨front, back, shape⟩ := List.append_of_mem listed
  rw [shape, List.map_append, List.map_cons, List.nodup_append'] at distinct
  obtain ⟨-, -, apart⟩ := distinct
  have noneInFront : front.find? (fun other => key other.2 = key cell.2) = none := by
    rw [List.find?_eq_none]
    intro other inFront same
    have same : key other.2 = key cell.2 := of_decide_eq_true same
    exact apart (List.mem_map_of_mem inFront) (same ▸ .head _)
  rw [shape, List.find?_append, noneInFront, Option.none_or, List.find?_cons, decide_eq_true rfl]
  rfl

/-- The cell of a key, with the cells in front of it. -/
theorem exists_of_find {wanted : Key} {slot : Fin slots} {cell : Address × Value}
    (found : (cells slot).find? (fun cell => key cell.2 = wanted) = some cell) :
    key cell.2 = wanted ∧ ∃ front back, cells slot = front ++ cell :: back ∧
      front.find? (fun cell => key cell.2 = wanted) = none := by
  obtain ⟨same, front, back, shape, others⟩ := List.find?_eq_some_iff_append.mp found
  refine ⟨of_decide_eq_true same, front, back, shape, List.find?_eq_none.mpr fun other inFront => ?_⟩
  simpa using others other inFront

/-- A cell of another key does not change the value of a key. -/
theorem valueOf_append {added : Address} {value : Value} {wanted : Key} (other : wanted ≠ key value) :
    valueOf key slotOf (Function.update cells (slotOf (key value))
        (cells (slotOf (key value)) ++ [(added, value)])) wanted =
      valueOf key slotOf cells wanted := by
  rw [valueOf, valueOf]
  by_cases sameSlot : slotOf wanted = slotOf (key value)
  · have notAdded : decide (key value = wanted) = false := decide_eq_false other.symm
    rw [sameSlot, Function.update_self, List.find?_append, List.find?_cons, notAdded, List.find?_nil,
      Option.or_none]
  · rw [Function.update_of_ne sameSlot]

variable [DecidableEq Address]

/-- Replacing the value of a key. -/
theorem Keyed.replace (keyed : Keyed key slotOf table cells) {front back : List (Address × Value)}
    {address : Address} {value new : Value} {next : Option Address}
    (shape : cells (slotOf (key value)) = front ++ (address, value) :: back)
    (first : front.find? (fun cell => key cell.2 = key value) = none)
    (allocated : table.heap address = some ⟨value, next⟩) (sameKey : key new = key value) :
    Keyed key slotOf (table.store address ⟨new, next⟩)
        (Function.update cells (slotOf (key value)) (front ++ (address, new) :: back)) ∧
      valueOf key slotOf
          (Function.update cells (slotOf (key value)) (front ++ (address, new) :: back)) =
        Function.update (valueOf key slotOf cells) (key value) (some new) := by
  refine ⟨⟨keyed.holds.replace shape allocated (congrArg slotOf sameKey), fun slot => ?_⟩, ?_⟩
  · by_cases same : slot = slotOf (key value)
    · subst same
      have distinct := keyed.distinct (slotOf (key value))
      rw [shape, List.map_append, List.map_cons] at distinct
      rw [Function.update_self, List.map_append, List.map_cons, sameKey]
      exact distinct
    · rw [Function.update_of_ne same]
      exact keyed.distinct slot
  · funext wanted
    by_cases same : wanted = key value
    · subst same
      rw [Function.update_self, valueOf, Function.update_self, List.find?_append, first,
        Option.none_or, List.find?_cons, decide_eq_true sameKey]
      rfl
    · rw [Function.update_of_ne same, valueOf, valueOf]
      by_cases sameSlot : slotOf wanted = slotOf (key value)
      · have notNew : decide (key new = wanted) = false :=
          decide_eq_false fun isNew => same (isNew.symm.trans sameKey)
        have notOld : decide (key value = wanted) = false :=
          decide_eq_false fun isOld => same isOld.symm
        rw [sameSlot, Function.update_self, shape, List.find?_append, List.find?_append,
          List.find?_cons, List.find?_cons, notNew, notOld]
      · rw [Function.update_of_ne sameSlot]

/-- Linking in a cell of a new key. -/
theorem Keyed.insert (keyed : Keyed key slotOf table cells) {added : Address} (value : Value)
    (fresh : table.heap added = none)
    (absent : (cells (slotOf (key value))).find? (fun cell => key cell.2 = key value) = none) :
    ∃ after, (table.store added ⟨value, none⟩).link added
        (placeBehind (.head (slotOf (key value))) (cells (slotOf (key value)))) = .ok after ∧
      after.heap added = some ⟨value, none⟩ ∧
      (∀ address, (after.heap address).isSome ↔ address = added ∨ (table.heap address).isSome) ∧
      Keyed key slotOf after (Function.update cells (slotOf (key value))
        (cells (slotOf (key value)) ++ [(added, value)])) := by
  obtain ⟨after, linked, allocated, others, holds⟩ := keyed.holds.insert value fresh
  refine ⟨after, linked, allocated, others, holds, fun slot => ?_⟩
  by_cases same : slot = slotOf (key value)
  · subst same
    rw [Function.update_self, List.map_append, List.map_singleton, List.nodup_append']
    refine ⟨keyed.distinct _, List.nodup_singleton _, fun other inOld isNew => ?_⟩
    obtain ⟨cell, listed, rfl⟩ := List.mem_map.mp inOld
    exact List.find?_eq_none.mp absent cell listed (decide_eq_true (List.mem_singleton.mp isNew))
  · rw [Function.update_of_ne same]
    exact keyed.distinct slot

end Keys

end HashTable

end Libamg.C
