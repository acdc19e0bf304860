import Libamg.C.Decimal
import Libamg.C.HashTable
import Libamg.Netlink.Attributes
import Libamg.Netlink.DumpFilter
import Libamg.Semantics.Run

/-!
# The map of links

`ll_map.c` keeps what the kernel says about its links in a hash table, which
`ll_remember_index` fills and the other functions read. Over any calls the table is a map
from the indices of links to what was remembered of each last (`runChecked_linkStep`).
-/

namespace Libamg.Netlink

open C Semantics

/-- `struct idxmap` without its link. -/
structure IdxMap where
  index : UInt32
  type : Nat
  alen : Int
  flags : UInt32
  addr : CharArray 8
  name : CharArray 16

/-- `idxmap`, a table of 16 lists. -/
abbrev LinkTable := HashTable Nat IdxMap 16

/-- The list of an index. -/
def slotOf (idx : UInt32) : Fin 16 := Fin.ofNat 16 (idx &&& 0xF).toNat

/-- What `ll_remember_index` takes from a message: an address attribute is its `RTA_PAYLOAD`
and the memory at its `RTA_DATA`, the name is the memory at the data of its attribute. -/
structure LinkInfo where
  index : UInt32
  type : Nat
  flags : UInt32
  address : Option (Int × Text)
  name : Text

/-- A `malloc` that succeeds: memory that was not in use, with something in it. -/
structure LinkAllocator where
  pick : Heap Nat IdxMap → Nat × IdxMap
  fresh : ∀ heap : Heap Nat IdxMap, (∃ address, heap address = none) → heap (pick heap).1 = none

section Functions

/-- `memcpy` into the first bytes of `addr`. -/
def copyAddr (addr : CharArray 8) (data : Text) (count : Nat) : Checked (CharArray 8) :=
  if count ≤ data.length then addr.writeAt 0 (data.take count) else .error .outOfBounds

/-- `strcpy` over `name`. -/
def strcpyName (name : CharArray 16) (source : Text) : Checked (CharArray 16) :=
  if 0 ∈ source then name.writeAt 0 (cstr source ++ [0]) else .error .outOfBounds

/-- The number of bytes of an address that are copied. The comparison is with a `size_t`, for
which a negative number is a large one. -/
def copied (alen : Int) : Nat := if alen < 0 ∨ 8 < alen then 8 else alen.toNat

/-- The assignments to `alen` and `addr`. -/
def fillAddr (im : IdxMap) : Option (Int × Text) → Checked IdxMap
  | none => return { im with alen := 0, addr := CharArray.zero 8 }
  | some (alen, data) => do
      let addr ← copyAddr im.addr data (copied alen)
      return { im with alen := alen, addr := addr }

/-- The assignments to the fields of a link, but for its index. -/
def fill (im : IdxMap) (link : LinkInfo) : Checked IdxMap := do
  let im ← fillAddr { im with type := link.type, flags := link.flags } link.address
  let name ← strcpyName im.name link.name
  return { im with name := name }

/-- `ll_remember_index` from the search for the link on; `malloc` is `none` where it
returns NULL. -/
def remember (fuel : Nat) (link : LinkInfo) (malloc : Option LinkAllocator) (table : LinkTable) :
    Checked LinkTable := do
  let (found, place) ← HashTable.locate (fun im => pure (im.index = link.index : Bool)) table fuel
    (.head (slotOf link.index))
  match found with
  | some address => do
      let cell ← table.heap.load address
      let im ← fill cell.value link
      return table.store address { cell with value := im }
  | none =>
      match malloc with
      | none => return table
      | some allocator => do
          let (address, garbage) := allocator.pick table.heap
          let next ← table.follow place
          let table := table.store address ⟨{ garbage with index := link.index }, next⟩
          let table ← table.link address place
          let cell ← table.heap.load address
          let im ← fill cell.value link
          return table.store address { cell with value := im }

/-- The link with an index, as the functions that read the table look for it. -/
def findLink (fuel : Nat) (idx : UInt32) (table : LinkTable) : Checked (Option IdxMap) :=
  HashTable.find (fun im => pure (im.index = idx : Bool)) table.heap fuel (table.heads (slotOf idx))

/-- `ll_idx_n2a`: the string at the returned pointer. -/
def llIdxN2a (fuel : Nat) (idx : UInt32) (table : LinkTable) : Checked Text := do
  if idx = 0 then return lit "*"
  else
    match ← findLink fuel idx table with
    | some im => im.name.read
    | none => sprintf 16 (lit "if" ++ printInt idx.toInt32.toInt)

/-- `ll_index_to_type`. -/
def llIndexToType (fuel : Nat) (idx : UInt32) (table : LinkTable) : Checked Int := do
  if idx = 0 then return -1
  else
    match ← findLink fuel idx table with
    | some im => return im.type
    | none => return -1

/-- `ll_index_to_flags`. -/
def llIndexToFlags (fuel : Nat) (idx : UInt32) (table : LinkTable) : Checked UInt32 := do
  if idx = 0 then return 0
  else
    match ← findLink fuel idx table with
    | some im => return im.flags
    | none => return 0

end Functions

/-! ## One map -/

/-- What can be asked about a link. -/
structure LinkView where
  type : Nat
  flags : UInt32
  name : Text

def IdxMap.view (im : IdxMap) : LinkView := ⟨im.type, im.flags, im.name.str⟩

def LinkInfo.view (link : LinkInfo) : LinkView := ⟨link.type, link.flags, cstr link.name⟩

/-- The bytes of the address that are copied are there. -/
def AddressFits (address : Option (Int × Text)) : Prop :=
  ∀ given ∈ address, copied given.1 ≤ given.2.length

/-- The name fits into its array, and the bytes of the address that are copied are there. -/
structure LinkInfo.Fits (link : LinkInfo) : Prop where
  terminated : 0 ∈ link.name
  short : (cstr link.name).length < 16
  address : AddressFits link.address

/-- The table has these links, each with a name that is a string, and nothing else is allocated;
no list has more than `count` links. -/
structure Represents (count : Nat) (table : LinkTable) (map : UInt32 → Option LinkView) : Prop where
  contents : ∃ cells, HashTable.Keyed IdxMap.index slotOf table cells ∧
    (∀ slot, ∀ cell ∈ cells slot, cell.2.name.Terminated) ∧
    (∀ slot, (cells slot).length ≤ count) ∧
    (∀ address, (table.heap address).isSome → ∃ slot, address ∈ addresses (cells slot)) ∧
    map = fun idx => (HashTable.valueOf IdxMap.index slotOf cells idx).map IdxMap.view

/-- There is room for a link: it is known, or `malloc` succeeds. -/
abbrev HasRoom (map : UInt32 → Option LinkView) (malloc : Option LinkAllocator) (idx : UInt32) : Prop :=
  (map idx).isSome ∨ malloc.isSome

/-- The map after a link is remembered. -/
def rememberView (map : UInt32 → Option LinkView) (link : LinkInfo) (malloc : Option LinkAllocator) :
    UInt32 → Option LinkView :=
  if HasRoom map malloc link.index then Function.update map link.index (some link.view) else map

theorem copyAddr_eq (addr : CharArray 8) {data : Text} {count : Nat} (here : count ≤ data.length)
    (small : count ≤ 8) : ∃ after, copyAddr addr data count = .ok after := by
  have fits : 0 + (data.take count).length ≤ 8 := by
    rw [List.length_take]
    omega
  obtain ⟨after, written, -⟩ := @CharArray.writeAt_bytes 8 addr 0 (data.take count) fits
  exact ⟨after, (if_pos here).trans written⟩

theorem strcpyName_eq (name : CharArray 16) {source : Text} (terminated : 0 ∈ source)
    (short : (cstr source).length < 16) :
    ∃ after, strcpyName name source = .ok after ∧ after.Terminated ∧ after.str = cstr source := by
  have fits : 0 + (cstr source ++ [0]).length ≤ 16 := by
    rw [List.length_append, List.length_singleton]
    omega
  obtain ⟨after, written, bytes⟩ := @CharArray.writeAt_bytes 16 name 0 (cstr source ++ [0]) fits
  have shape : after.bytes = cstr source ++ 0 :: name.bytes.drop (0 + (cstr source ++ [0]).length) := by
    rw [bytes, List.take_zero, List.nil_append, List.append_assoc]
    rfl
  exact ⟨after, (if_pos terminated).trans written, CharArray.terminated_of_bytes shape,
    CharArray.str_of_bytes (nul_notMem_cstr source) shape⟩

theorem copied_le (alen : Int) : copied alen ≤ 8 := by
  unfold copied
  split <;> omega

theorem fillAddr_eq (im : IdxMap) {address : Option (Int × Text)} (fits : AddressFits address) :
    ∃ alen addr, fillAddr im address = .ok { im with alen := alen, addr := addr } := by
  cases address with
  | none => exact ⟨0, CharArray.zero 8, rfl⟩
  | some given =>
      obtain ⟨alen, data⟩ := given
      obtain ⟨addr, written⟩ := copyAddr_eq im.addr (fits (alen, data) rfl) (copied_le alen)
      refine ⟨alen, addr, ?_⟩
      rw [fillAddr, written]
      rfl

/-- The fields of a link that fits. -/
theorem fill_eq (im : IdxMap) {link : LinkInfo} (fits : link.Fits) :
    ∃ after, fill im link = .ok after ∧ after.index = im.index ∧ after.view = link.view ∧
      after.name.Terminated := by
  obtain ⟨name, written, terminated, str⟩ := strcpyName_eq im.name fits.terminated fits.short
  obtain ⟨alen, addr, filled⟩ :=
    fillAddr_eq { im with type := link.type, flags := link.flags } fits.address
  refine ⟨⟨im.index, link.type, alen, link.flags, addr, name⟩, ?_, rfl, ?_, terminated⟩
  · rw [fill, filled]
    simp only [Checked.ok_bind, written]
    rfl
  · rw [IdxMap.view, LinkInfo.view, str]

/-- A link with the memory that is copied, and no more. -/
def LinkInfo.trim (link : LinkInfo) : LinkInfo :=
  { link with
    address := link.address.map fun given => (given.1, given.2.take (copied given.1))
    name := cstr link.name ++ [0] }

/-- Nothing else of the memory is looked at. -/
theorem fill_trim (im : IdxMap) {link : LinkInfo} (fits : link.Fits) :
    fill im link.trim = fill im link := by
  have name : strcpyName im.name link.trim.name = strcpyName im.name link.name := by
    have string := cstr_append_nul (nul_notMem_cstr link.name) []
    have listed : 0 ∈ cstr link.name ++ [0] := List.mem_append_right _ (.head [])
    rw [LinkInfo.trim, strcpyName, strcpyName, if_pos listed, if_pos fits.terminated, string]
  have address : fillAddr { im with type := link.trim.type, flags := link.trim.flags }
        link.trim.address =
      fillAddr { im with type := link.type, flags := link.flags } link.address := by
    rw [LinkInfo.trim]
    cases given : link.address with
    | none => rfl
    | some address =>
        have here := fits.address address given
        simp only [Option.map_some, fillAddr, copyAddr, List.length_take, List.take_take,
          Nat.min_self, Nat.min_eq_left here, if_pos here, if_pos (Nat.le_refl _)]
  obtain ⟨alen, addr, filled⟩ :=
    fillAddr_eq { im with type := link.type, flags := link.flags } fits.address
  rw [fill, fill, address, filled]
  simp only [Checked.ok_bind, name]

theorem remember_trim (fuel : Nat) {link : LinkInfo} (fits : link.Fits) (malloc : Option LinkAllocator)
    (table : LinkTable) : remember fuel link.trim malloc table = remember fuel link malloc table := by
  have index : link.trim.index = link.index := rfl
  rw [remember, remember, index]
  simp only [fill_trim _ fits]

section Step

variable {count fuel : Nat} {table : LinkTable} {map : UInt32 → Option LinkView}

/-- An address that is not in use. -/
theorem exists_free {cells : Fin 16 → List (Nat × IdxMap)}
    (reached : ∀ address, (table.heap address).isSome → ∃ slot, address ∈ addresses (cells slot)) :
    ∃ address, table.heap address = none := by
  let used := (List.finRange 16).flatMap fun slot => addresses (cells slot)
  obtain ⟨address, unused⟩ := Infinite.exists_notMem_finset used.toFinset
  refine ⟨address, ?_⟩
  by_contra allocated
  obtain ⟨slot, listed⟩ := reached address (Option.isSome_iff_ne_none.mpr allocated)
  exact unused (List.mem_toFinset.mpr (List.mem_flatMap.mpr ⟨slot, List.mem_finRange slot, listed⟩))

theorem Represents.mono {other : Nat} (represents : Represents count table map) (more : count ≤ other) :
    Represents other table map := by
  obtain ⟨cells, keyed, terminated, bounded, reached, same⟩ := represents.contents
  exact ⟨cells, keyed, terminated, fun slot => Nat.le_trans (bounded slot) more, reached, same⟩

theorem map_update (values : UInt32 → Option IdxMap) (idx : UInt32) (im : IdxMap) :
    (fun wanted => (Function.update values idx (some im) wanted).map IdxMap.view) =
      Function.update (fun wanted => (values wanted).map IdxMap.view) idx (some im.view) := by
  funext wanted
  by_cases same : wanted = idx
  · subst same
    rw [Function.update_self, Function.update_self, Option.map_some]
  · rw [Function.update_of_ne same, Function.update_of_ne same]

/-- A link takes new fields in its place. -/
theorem Represents.of_replace {cells : Fin 16 → List (Nat × IdxMap)} {front back : List (Nat × IdxMap)}
    {address : Nat} {im new : IdxMap} {next : Option Nat}
    (keyed : HashTable.Keyed IdxMap.index slotOf table cells)
    (shape : cells (slotOf im.index) = front ++ (address, im) :: back)
    (first : front.find? (fun cell => cell.2.index = im.index) = none)
    (allocated : table.heap address = some ⟨im, next⟩) (sameIndex : new.index = im.index)
    (terminated : ∀ slot, ∀ cell ∈ cells slot, cell.1 ≠ address → cell.2.name.Terminated)
    (newTerminated : new.name.Terminated) (bounded : ∀ slot, (cells slot).length ≤ count)
    (reached : ∀ address, (table.heap address).isSome → ∃ slot, address ∈ addresses (cells slot)) :
    Represents count (table.store address ⟨new, next⟩)
      (Function.update (fun idx => (HashTable.valueOf IdxMap.index slotOf cells idx).map IdxMap.view)
        im.index (some new.view)) := by
  obtain ⟨keyedAfter, values⟩ := keyed.replace shape first allocated sameIndex
  have distinct := (keyed.holds.chain (slotOf im.index)).nodup
  rw [shape, addresses, List.map_append, List.map_cons, List.nodup_append'] at distinct
  obtain ⟨-, behind, apart⟩ := distinct
  refine ⟨_, keyedAfter, fun slot cell listed => ?_, fun slot => ?_, fun visited inUse => ?_, ?_⟩
  · by_cases same : slot = slotOf im.index
    · subst same
      rw [Function.update_self, List.mem_append, List.mem_cons] at listed
      have others := terminated (slotOf im.index) cell
      rw [shape, List.mem_append, List.mem_cons] at others
      rcases listed with inFront | rfl | inBack
      · refine others (.inl inFront) ?_
        rintro rfl
        exact apart (List.mem_map_of_mem inFront) (.head _)
      · exact newTerminated
      · refine others (.inr (.inr inBack)) ?_
        rintro rfl
        exact (List.nodup_cons.mp behind).1 (List.mem_map.mpr ⟨cell, inBack, rfl⟩)
    · rw [Function.update_of_ne same] at listed
      refine terminated slot cell listed ?_
      rintro rfl
      have here : (cell.1, im) ∈ cells (slotOf im.index) := by
        rw [shape]
        exact List.mem_append_right front (.head back)
      exact same (keyed.holds.slot_unique here listed)
  · have bound := bounded slot
    by_cases same : slot = slotOf im.index
    · subst same
      rw [shape, List.length_append, List.length_cons] at bound
      rw [Function.update_self, List.length_append, List.length_cons]
      exact bound
    · rwa [Function.update_of_ne same]
  · have wasInUse : (table.heap visited).isSome := by
      rcases (Heap.isSome_store_iff _ _).mp inUse with rfl | before
      · rw [allocated]
        rfl
      · exact before
    obtain ⟨slot, listed⟩ := reached visited wasInUse
    refine ⟨slot, ?_⟩
    by_cases same : slot = slotOf im.index
    · subst same
      rw [shape, addresses, List.map_append, List.map_cons] at listed
      rw [Function.update_self, addresses, List.map_append, List.map_cons]
      exact listed
    · rwa [Function.update_of_ne same]
  · rw [values, map_update]

/-- A link of a new index is linked in with nothing but that, and then takes its fields. -/
theorem Represents.of_insert {cells : Fin 16 → List (Nat × IdxMap)} {address : Nat} {begun : IdxMap}
    (keyed : HashTable.Keyed IdxMap.index slotOf table cells) (fresh : table.heap address = none)
    (absent : (cells (slotOf begun.index)).find? (fun cell => cell.2.index = begun.index) = none)
    (terminated : ∀ slot, ∀ cell ∈ cells slot, cell.2.name.Terminated)
    (bounded : ∀ slot, (cells slot).length ≤ count)
    (reached : ∀ address, (table.heap address).isSome → ∃ slot, address ∈ addresses (cells slot)) :
    ∃ linked, (table.store address ⟨begun, none⟩).link address
          (HashTable.placeBehind (.head (slotOf begun.index)) (cells (slotOf begun.index))) =
        .ok linked ∧
      linked.heap.load address = .ok ⟨begun, none⟩ ∧
      ∀ new : IdxMap, new.index = begun.index → new.name.Terminated →
        Represents (count + 1) (linked.store address ⟨new, none⟩)
          (Function.update (fun idx => (HashTable.valueOf IdxMap.index slotOf cells idx).map IdxMap.view)
            begun.index (some new.view)) := by
  obtain ⟨linked, wasLinked, allocated, inUse, keyedLinked⟩ := keyed.insert begun fresh absent
  refine ⟨linked, wasLinked, Heap.load_eq_ok allocated, fun new sameIndex newTerminated => ?_⟩
  have others (slot : Fin 16) : addresses (cells slot) ⊆ addresses
      (Function.update cells (slotOf begun.index) (cells (slotOf begun.index) ++ [(address, begun)]) slot) := by
    by_cases same : slot = slotOf begun.index
    · subst same
      rw [Function.update_self, addresses, addresses, List.map_append]
      exact List.subset_append_left _ _
    · rw [Function.update_of_ne same]
      exact List.Subset.refl _
  have after : Represents (count + 1) _ _ := Represents.of_replace keyedLinked
    (by rw [Function.update_self]) absent allocated sameIndex
    (fun slot cell listed different => by
      by_cases same : slot = slotOf begun.index
      · subst same
        rw [Function.update_self, List.mem_append, List.mem_singleton] at listed
        rcases listed with old | rfl
        · exact terminated _ cell old
        · exact absurd rfl different
      · rw [Function.update_of_ne same] at listed
        exact terminated slot cell listed)
    newTerminated
    (fun slot => by
      have bound := bounded slot
      by_cases same : slot = slotOf begun.index
      · subst same
        rw [Function.update_self, List.length_append, List.length_singleton]
        exact Nat.succ_le_succ bound
      · rw [Function.update_of_ne same]
        exact Nat.le_succ_of_le bound)
    (fun visited isUsed => by
      rcases (inUse visited).mp isUsed with rfl | before
      · refine ⟨slotOf begun.index, ?_⟩
        rw [Function.update_self, addresses, List.map_append]
        exact List.mem_append_right _ (.head _)
      · obtain ⟨slot, listed⟩ := reached visited before
        exact ⟨slot, others slot listed⟩)
  convert after using 1
  funext idx
  by_cases same : idx = begun.index
  · subst same
    rw [Function.update_self, Function.update_self]
  · rw [Function.update_of_ne same, Function.update_of_ne same, HashTable.valueOf_append same]

/-- Remembering a link ends in the assignments to its fields, and what they leave of it is what
the table has of the index. -/
theorem remember_fill (represents : Represents count table map) (enough : count < fuel)
    (link : LinkInfo) {malloc : Option LinkAllocator} (room : HasRoom map malloc link.index) :
    ∃ im keep, remember fuel link malloc table = keep <$> fill im link ∧ im.index = link.index ∧
      ∀ new : IdxMap, new.index = link.index → new.name.Terminated →
        Represents (count + 1) (keep new) (Function.update map link.index (some new.view)) := by
  obtain ⟨cells, keyed, terminated, bounded, reached, rfl⟩ := represents.contents
  have chain := keyed.holds.chain (slotOf link.index)
  obtain ⟨place, located, ending⟩ := @HashTable.locate_chain _ _ _ table _ _
    (fun im => pure (im.index = link.index : Bool)) (fun im => im.index = link.index) chain
    (fun _ _ => rfl) (.head (slotOf link.index)) rfl fuel
    (Nat.lt_of_le_of_lt (bounded _) enough)
  cases found : (cells (slotOf link.index)).find? fun cell => cell.2.index = link.index with
  | some cell =>
      obtain ⟨address, im⟩ := cell
      obtain ⟨sameIndex, front, back, shape, first⟩ := HashTable.exists_of_find found
      have listed : (address, im) ∈ cells (slotOf link.index) := by
        rw [shape]
        exact List.mem_append_right front (.head back)
      obtain ⟨next, allocated⟩ := Segment.allocated chain listed
      rw [found] at located
      refine ⟨im, fun new => table.store address ⟨new, next⟩, ?_, sameIndex, ?_⟩
      · rw [remember, located]
        simp only [Checked.ok_bind, Option.map_some, Heap.load_eq_ok allocated, map_eq_pure_bind]
      · intro new newIndex newTerminated
        rw [← sameIndex] at shape first newIndex ⊢
        exact (Represents.of_replace keyed shape first allocated newIndex
          (fun slot cell listed _ => terminated slot cell listed) newTerminated bounded
          reached).mono (Nat.le_succ count)
  | none =>
      have unknown : (HashTable.valueOf IdxMap.index slotOf cells link.index).map IdxMap.view = none := by
        rw [HashTable.valueOf, found]
        rfl
      rw [found] at located
      cases malloc with
      | none =>
          rcases room with known | given
          · simp only [unknown] at known
            exact absurd known Bool.false_ne_true
          · exact absurd given Bool.false_ne_true
      | some allocator =>
          have fresh := allocator.fresh table.heap (exists_free reached)
          obtain ⟨linked, wasLinked, loaded, becomes⟩ := @Represents.of_insert count table cells
            (allocator.pick table.heap).1 { (allocator.pick table.heap).2 with index := link.index }
            keyed fresh found terminated bounded reached
          have last : table.follow place = .ok none := by
            rw [ending found]
            exact HashTable.follow_placeBehind chain rfl
          rw [← ending found] at wasLinked
          refine ⟨{ (allocator.pick table.heap).2 with index := link.index },
            fun new => linked.store (allocator.pick table.heap).1 ⟨new, none⟩, ?_, rfl, becomes⟩
          rw [remember, located]
          simp only [Checked.ok_bind, Option.map_none, last, wasLinked, loaded, map_eq_pure_bind]

/-- Without room for the link nothing happens. -/
theorem remember_noRoom (represents : Represents count table map) (enough : count < fuel)
    {link : LinkInfo} {malloc : Option LinkAllocator} (noRoom : ¬ HasRoom map malloc link.index) :
    remember fuel link malloc table = .ok table := by
  obtain ⟨unknown, noMemory⟩ := not_or.mp noRoom
  cases malloc with
  | some allocator => exact absurd rfl noMemory
  | none =>
      obtain ⟨cells, keyed, terminated, bounded, reached, rfl⟩ := represents.contents
      obtain ⟨place, located, -⟩ := @HashTable.locate_chain _ _ _ table _ _
        (fun im => pure (im.index = link.index : Bool)) (fun im => im.index = link.index)
        (keyed.holds.chain (slotOf link.index)) (fun _ _ => rfl) (.head (slotOf link.index)) rfl fuel
        (Nat.lt_of_le_of_lt (bounded _) enough)
      have nothing : (cells (slotOf link.index)).find? (fun cell => cell.2.index = link.index) = none := by
        by_contra some
        obtain ⟨cell, found⟩ := Option.ne_none_iff_exists'.mp some
        refine unknown ?_
        simp only [HashTable.valueOf, found]
        rfl
      rw [nothing] at located
      rw [remember, located]
      rfl

/-- Remembering a link that fits is an update of the map. -/
theorem remember_represents (represents : Represents count table map) (enough : count < fuel)
    {link : LinkInfo} (fits : link.Fits) (malloc : Option LinkAllocator) :
    ∃ after, remember fuel link malloc table = .ok after ∧
      Represents (count + 1) after (rememberView map link malloc) := by
  rw [rememberView]
  by_cases room : HasRoom map malloc link.index
  · obtain ⟨im, keep, remembered, sameIndex, becomes⟩ := remember_fill represents enough link room
    obtain ⟨new, filled, newIndex, newView, newTerminated⟩ := fill_eq im fits
    refine ⟨keep new, ?_, ?_⟩
    · rw [remembered, filled]
      rfl
    · rw [if_pos room, ← newView]
      exact becomes new (newIndex.trans sameIndex) newTerminated
  · rw [if_neg room]
    exact ⟨table, remember_noRoom represents enough room, represents.mono (Nat.le_succ count)⟩

/-- The search for a link finds what the map has. -/
theorem findLink_represents (represents : Represents count table map) (enough : count < fuel)
    (idx : UInt32) :
    ∃ found, findLink fuel idx table = .ok found ∧ found.map IdxMap.view = map idx ∧
      ∀ im ∈ found, im.name.Terminated := by
  obtain ⟨cells, keyed, terminated, bounded, reached, rfl⟩ := represents.contents
  have found := @HashTable.find_chain _ _ _ table _ _ (fun im => pure (im.index = idx : Bool))
    (fun im => im.index = idx) (keyed.holds.chain (slotOf idx)) (fun _ _ => rfl) fuel
    (Nat.lt_of_le_of_lt (bounded _) enough)
  refine ⟨_, found, rfl, fun im isFound => ?_⟩
  obtain ⟨cell, first, rfl⟩ := Option.map_eq_some_iff.mp isFound
  exact terminated _ cell (List.mem_of_find?_eq_some first)

end Step

/-! ## Runs -/

/-- A call of the functions that know links by their indices. -/
inductive LinkCall where
  | remember (link : LinkInfo) (malloc : Option LinkAllocator)
  | idxN2a (idx : UInt32)
  | indexToType (idx : UInt32)
  | indexToFlags (idx : UInt32)

inductive LinkAnswer where
  | remembered
  | name (text : Text)
  | type (type : Int)
  | flags (flags : UInt32)

def linkStep (fuel : Nat) (table : LinkTable) : LinkCall → Checked (LinkAnswer × LinkTable)
  | .remember link malloc => do
      let table ← remember fuel link malloc table
      return (.remembered, table)
  | .idxN2a idx => do
      let text ← llIdxN2a fuel idx table
      return (.name text, table)
  | .indexToType idx => do
      let type ← llIndexToType fuel idx table
      return (.type type, table)
  | .indexToFlags idx => do
      let flags ← llIndexToFlags fuel idx table
      return (.flags flags, table)

/-- What a map says about an index: `zero` for the index 0, `unknown` where it has no link. -/
def viewOf {α : Type} (map : UInt32 → Option LinkView) (idx : UInt32) (zero unknown : α)
    (known : LinkView → α) : α :=
  if idx = 0 then zero else (map idx).elim unknown known

/-- The same calls on a map. -/
def viewStep (map : UInt32 → Option LinkView) :
    LinkCall → LinkAnswer × (UInt32 → Option LinkView)
  | .remember link malloc => (.remembered, rememberView map link malloc)
  | .idxN2a idx => (.name (viewOf map idx (lit "*") (lit "if" ++ printInt idx.toInt32.toInt)
      LinkView.name), map)
  | .indexToType idx => (.type (viewOf map idx (-1) (-1) fun view => view.type), map)
  | .indexToFlags idx => (.flags (viewOf map idx 0 0 LinkView.flags), map)

/-- A link that a call remembers fits. -/
def LinkCall.Fits : LinkCall → Prop
  | remember link _ => link.Fits
  | _ => True

section Run

variable {count fuel : Nat} {table : LinkTable} {map : UInt32 → Option LinkView}

theorem llIdxN2a_represents (represents : Represents count table map) (enough : count < fuel)
    (idx : UInt32) :
    llIdxN2a fuel idx table = .ok (viewOf map idx (lit "*") (lit "if" ++ printInt idx.toInt32.toInt)
      LinkView.name) := by
  obtain ⟨found, searched, views, terminated⟩ := findLink_represents represents enough idx
  rw [llIdxN2a, viewOf]
  split
  · rfl
  · rw [searched, ← views]
    cases found with
    | none =>
        have digits := printInt32_length_le idx.toInt32
        refine sprintf_eq ?_
        rw [List.length_append]
        have two : (lit "if").length = 2 := by decide
        omega
    | some im => exact CharArray.read_eq_str (terminated im rfl)

theorem llIndexToType_represents (represents : Represents count table map) (enough : count < fuel)
    (idx : UInt32) :
    llIndexToType fuel idx table = .ok (viewOf map idx (-1) (-1) fun view => view.type) := by
  obtain ⟨found, searched, views, -⟩ := findLink_represents represents enough idx
  rw [llIndexToType, viewOf]
  split
  · rfl
  · rw [searched, ← views]
    cases found <;> rfl

theorem llIndexToFlags_represents (represents : Represents count table map) (enough : count < fuel)
    (idx : UInt32) : llIndexToFlags fuel idx table = .ok (viewOf map idx 0 0 LinkView.flags) := by
  obtain ⟨found, searched, views, -⟩ := findLink_represents represents enough idx
  rw [llIndexToFlags, viewOf]
  split
  · rfl
  · rw [searched, ← views]
    cases found <;> rfl

/-- The table before the first call. -/
def emptyTable : LinkTable := ⟨fun _ => none, fun _ => none⟩

theorem emptyTable_represents : Represents 0 emptyTable fun _ => none where
  contents := ⟨fun _ => [], ⟨HashTable.holds_empty _ _, fun _ => List.nodup_nil⟩,
    fun _ _ listed => (List.not_mem_nil listed).elim, fun _ => Nat.le_refl 0,
    fun _ inUse => (Bool.false_ne_true inUse).elim, rfl⟩

theorem linkStep_represents (represents : Represents count table map) (enough : count < fuel)
    (call : LinkCall) (fits : call.Fits) :
    ∃ after, linkStep fuel table call = .ok ((viewStep map call).1, after) ∧
      Represents (count + 1) after (viewStep map call).2 := by
  have kept := represents.mono (Nat.le_succ count)
  cases call with
  | remember link malloc =>
      obtain ⟨after, remembered, representsAfter⟩ := remember_represents represents enough fits malloc
      refine ⟨after, ?_, representsAfter⟩
      rw [linkStep, remembered]
      rfl
  | idxN2a idx =>
      refine ⟨table, ?_, kept⟩
      rw [linkStep, llIdxN2a_represents represents enough]
      rfl
  | indexToType idx =>
      refine ⟨table, ?_, kept⟩
      rw [linkStep, llIndexToType_represents represents enough]
      rfl
  | indexToFlags idx =>
      refine ⟨table, ?_, kept⟩
      rw [linkStep, llIndexToFlags_represents represents enough]
      rfl

/-- From any table on the calls answer as the map does. -/
theorem linkRun_represents (represents : Represents count table map) (calls : List LinkCall)
    (fits : ∀ call ∈ calls, call.Fits) (enough : count + calls.length ≤ fuel) :
    ∃ after, runChecked (linkStep fuel) table calls = .ok ((run viewStep map calls).1, after) ∧
      Represents (count + calls.length) after (run viewStep map calls).2 := by
  obtain ⟨after, ran, representsAfter⟩ := @run_simulates _ _ _ _ _ (linkStep fuel) viewStep
    LinkCall.Fits
    (fun remaining table map => remaining ≤ calls.length ∧
      Represents (count + (calls.length - remaining)) table map)
    (fun remaining table map call callFits related => by
      obtain ⟨bounded, represents⟩ := related
      have enough : count + (calls.length - (remaining + 1)) < fuel := by omega
      obtain ⟨after, stepped, representsAfter⟩ := linkStep_represents represents enough call callFits
      have next : count + (calls.length - (remaining + 1)) + 1 = count + (calls.length - remaining) := by
        omega
      exact ⟨after, stepped, by omega, next ▸ representsAfter⟩)
    calls fits table map ⟨Nat.le_refl _, represents.mono (Nat.le_add_right count _)⟩
  exact ⟨after, ran, representsAfter.2⟩

/-- Over any calls the hash table answers as the map does. -/
theorem runChecked_linkStep (calls : List LinkCall) (fits : ∀ call ∈ calls, call.Fits)
    (enough : calls.length ≤ fuel) :
    ∃ after, runChecked (linkStep fuel) emptyTable calls =
        .ok ((run viewStep (fun _ => none) calls).1, after) ∧
      Represents calls.length after (run viewStep (fun _ => none) calls).2 := by
  have within : 0 + calls.length ≤ fuel := by omega
  obtain ⟨after, ran, represents⟩ := linkRun_represents emptyTable_represents calls fits within
  rw [Nat.zero_add] at represents
  exact ⟨after, ran, represents⟩

/-- Any free address, with a link of no fields. -/
noncomputable def freeAllocator : LinkAllocator where
  pick := fun heap =>
    (Classical.epsilon fun address => heap address = none, ⟨0, 0, 0, 0, CharArray.zero 8, CharArray.zero 16⟩)
  fresh := fun _ free => Classical.epsilon_spec free

/-- A link is remembered and renamed, and asked for along with one that is not known. -/
noncomputable def linkCalls : List LinkCall :=
  [.remember ⟨1, 772, 9, none, [108, 111, 0]⟩ (some freeAllocator),
    .remember ⟨1, 772, 73, none, [108, 111, 48, 0]⟩ none, .indexToType 1, .indexToFlags 1,
    .idxN2a 1, .idxN2a 17]

theorem runChecked_linkStep_calls :
    ∃ after, runChecked (linkStep 6) emptyTable linkCalls =
        .ok ([.remembered, .remembered, .type 772, .flags 73, .name (lit "lo0"), .name (lit "if17")],
          after) ∧
      Represents 6 after (run viewStep (fun _ => none) linkCalls).2 := by
  have fits : ∀ call ∈ linkCalls, call.Fits := by
    intro call listed
    rcases listed with _ | ⟨_, _ | ⟨_, listed⟩⟩
    · exact ⟨by decide, by decide, fun given impossible => by cases impossible⟩
    · exact ⟨by decide, by decide, fun given impossible => by cases impossible⟩
    · rcases listed with _ | ⟨_, _ | ⟨_, _ | ⟨_, _ | ⟨_, listed⟩⟩⟩⟩
      · trivial
      · trivial
      · trivial
      · trivial
      · cases listed
  exact @runChecked_linkStep 6 linkCalls fits (by decide)

end Run

end Libamg.Netlink
