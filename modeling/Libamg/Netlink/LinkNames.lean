import Libamg.Netlink.LinkMap

/-!
# The names of links

`ll_name_to_index` searches the lists of the table for a name and remembers the last one it
found in static variables, which nothing clears when a link gets another name. After any
calls that is the only way for it to go wrong (`runChecked_namedStep`).
-/

namespace Libamg.Netlink

open C Semantics

/-- The loop of `ll_name_to_index` over the lists. -/
def findName (fuel : Nat) (name : Text) (table : LinkTable) :
    List (Fin 16) → Checked (Option IdxMap)
  | [] => return none
  | slot :: slots => do
      let wanted := fun (im : IdxMap) => do
        let other ← im.name.read
        return (other = name : Bool)
      match ← HashTable.find wanted table.heap fuel (table.heads slot) with
      | some im => return some im
      | none => findName fuel name table slots

/-- The static variables of `ll_name_to_index`. -/
structure NameCache where
  icache : UInt32
  ncache : CharArray 16

/-- `icache && strcmp(name, ncache) == 0`. -/
def NameCache.hit (cache : NameCache) (name : Text) : Checked Bool :=
  if cache.icache ≠ 0 then do
    let cached ← cache.ncache.read
    return (name = cached : Bool)
  else return false

/-- `ll_name_to_index`, with `if_nametoindex` of the kernel. -/
def llNameToIndex (fuel : Nat) (ifNametoindex : Text → UInt32) (name : Option Text)
    (table : LinkTable) (cache : NameCache) : Checked (UInt32 × NameCache) :=
  match name with
  | none => return (0, cache)
  | some name => do
      if ← cache.hit name then return (cache.icache, cache)
      else
        match ← findName fuel name table (List.finRange 16) with
        | some im => do
            let ncache ← cache.ncache.writeAt 0 (name ++ [0])
            return (im.index, { icache := im.index, ncache := ncache })
        | none => return (ifNametoindex name, cache)

/-- The table and the static variables of `ll_name_to_index`. -/
structure LinkState where
  table : LinkTable
  cache : NameCache

/-- A call of any function of the map. -/
inductive NamedCall where
  | index (call : LinkCall)
  | nameToIndex (name : Option Text)

def namedStep (fuel : Nat) (ifNametoindex : Text → UInt32) (state : LinkState) :
    NamedCall → Checked ((LinkAnswer ⊕ UInt32) × LinkState)
  | .index call => do
      let (answer, table) ← linkStep fuel state.table call
      return (.inl answer, { state with table := table })
  | .nameToIndex name => do
      let (idx, cache) ← llNameToIndex fuel ifNametoindex name state.table state.cache
      return (.inr idx, { state with cache := cache })

/-- A link that a call remembers fits. -/
def NamedCall.Fits : NamedCall → Prop
  | index call => call.Fits
  | nameToIndex _ => True

/-- The statics before the first call. -/
def initialLinks : LinkState where
  table := emptyTable
  cache := ⟨0, CharArray.zero 16⟩

/-- The map after some calls. -/
def mapAfter (map : UInt32 → Option LinkView) (calls : List NamedCall) : UInt32 → Option LinkView :=
  calls.foldl (fun map call =>
    match call with
    | .index call => (viewStep map call).2
    | .nameToIndex _ => map) map

/-- The index is that of a link with the name; where no link has the name, it is what the
kernel says. -/
def Names (ifNametoindex : Text → UInt32) (map : UInt32 → Option LinkView) (name : Text)
    (idx : UInt32) : Prop :=
  (∃ view, map idx = some view ∧ view.name = name) ∨
    (∀ other view, map other = some view → view.name ≠ name) ∧ idx = ifNametoindex name

/-- The name is the one that was looked up last, and its link has another name by now. -/
def NameCache.Stale (cache : NameCache) (map : UInt32 → Option LinkView) (name : Text) : Prop :=
  cache.icache ≠ 0 ∧ cache.ncache.str = name ∧
    ∀ view, map cache.icache = some view → view.name ≠ name

section Names

variable {count fuel : Nat} {table : LinkTable} {map : UInt32 → Option LinkView}

theorem findName_chains {cells : Fin 16 → List (Nat × IdxMap)}
    (chains : ∀ slot, Chain table.heap (table.heads slot) (cells slot))
    (terminated : ∀ slot, ∀ cell ∈ cells slot, cell.2.name.Terminated)
    (enough : ∀ slot, (cells slot).length < fuel) (name : Text) (slots : List (Fin 16)) :
    findName fuel name table slots =
      .ok (((slots.flatMap cells).find? fun cell => cell.2.name.str = name).map Prod.snd) := by
  induction slots with
  | nil => rfl
  | cons slot slots inductionHypothesis =>
      have found := @HashTable.find_chain _ _ _ table _ _
        (fun im => do
          let other ← im.name.read
          return (other = name : Bool))
        (fun im => im.name.str = name) (chains slot)
        (fun cell listed => by
          rw [CharArray.read_eq_str (terminated slot cell listed)]
          rfl) fuel (enough slot)
      rw [findName, found, List.flatMap_cons, List.find?_append]
      cases (cells slot).find? fun cell => cell.2.name.str = name with
      | some cell => rfl
      | none => exact inductionHypothesis

/-- The search for a name finds a link that has it, if there is one. -/
theorem findName_represents (represents : Represents count table map) (enough : count < fuel)
    (name : Text) :
    ∃ found, findName fuel name table (List.finRange 16) = .ok found ∧
      (∀ im ∈ found, im.name.str = name ∧ map im.index = some im.view ∧ im.name.Terminated) ∧
      (found = none → ∀ other view, map other = some view → view.name ≠ name) := by
  obtain ⟨cells, keyed, terminated, bounded, reached, rfl⟩ := represents.contents
  refine ⟨_, findName_chains keyed.holds.chain terminated
    (fun slot => Nat.lt_of_le_of_lt (bounded slot) enough) name _, ?_, ?_⟩
  · intro im isFound
    obtain ⟨cell, first, rfl⟩ := Option.map_eq_some_iff.mp isFound
    obtain ⟨slot, -, listed⟩ := List.mem_flatMap.mp (List.mem_of_find?_eq_some first)
    have decided := List.find?_some first
    have sameName : cell.2.name.str = name := of_decide_eq_true decided
    refine ⟨sameName, ?_, terminated slot cell listed⟩
    simp only [keyed.valueOf_eq listed, Option.map_some]
  · intro nothing other view known sameName
    obtain ⟨im, value, rfl⟩ := Option.map_eq_some_iff.mp known
    obtain ⟨cell, first, rfl⟩ := Option.map_eq_some_iff.mp value
    have listed := List.mem_of_find?_eq_some first
    have missing := Option.map_eq_none_iff.mp nothing
    refine List.find?_eq_none.mp missing cell ?_ (decide_eq_true sameName)
    exact List.mem_flatMap.mpr ⟨slotOf other, List.mem_finRange _, listed⟩

/-- `ll_name_to_index` gives the link of the name, unless it remembers a link that has been
renamed; then it gives that one. -/
theorem llNameToIndex_represents (represents : Represents count table map) (enough : count < fuel)
    (ifNametoindex : Text → UInt32) (cache : NameCache)
    (cached : cache.icache ≠ 0 → cache.ncache.Terminated) (name : Text) :
    ∃ idx after, llNameToIndex fuel ifNametoindex (some name) table cache = .ok (idx, after) ∧
      (after.icache ≠ 0 → after.ncache.Terminated) ∧
      (¬ cache.Stale map name → Names ifNametoindex map name idx) ∧
      (cache.Stale map name → idx = cache.icache) := by
  obtain ⟨found, searched, right, missing⟩ := findName_represents represents enough name
  have hit : cache.hit name = .ok (cache.icache ≠ 0 ∧ cache.ncache.str = name : Bool) := by
    rw [NameCache.hit]
    by_cases used : cache.icache ≠ 0
    · rw [if_pos used, CharArray.read_eq_str (cached used), Checked.ok_bind]
      simp [used, eq_comm, pure, Except.pure]
    · simp [used, pure, Except.pure]
  have notStale (missed : ¬ (cache.icache ≠ 0 ∧ cache.ncache.str = name)) :
      ¬ cache.Stale map name := fun stale => missed ⟨stale.1, stale.2.1⟩
  rw [llNameToIndex]
  simp only [hit, Checked.ok_bind, searched]
  by_cases isHit : cache.icache ≠ 0 ∧ cache.ncache.str = name
  · refine ⟨cache.icache, cache, ?_, cached, fun fresh => .inl ?_, fun _ => rfl⟩
    · rw [if_pos (decide_eq_true isHit)]
      rfl
    · by_contra noView
      exact fresh ⟨isHit.1, isHit.2, fun view known sameName => noView ⟨view, known, sameName⟩⟩
  · rw [if_neg (by simpa using isHit)]
    cases found with
    | none =>
        exact ⟨ifNametoindex name, cache, rfl, cached, fun _ => .inr ⟨missing rfl, rfl⟩,
          fun stale => absurd stale (notStale isHit)⟩
    | some im =>
        obtain ⟨sameName, known, terminated⟩ := right im rfl
        have short := CharArray.str_length_lt terminated
        have string : 0 ∉ name := sameName ▸ CharArray.nul_notMem_str im.name
        have fits : 0 + (name ++ [0]).length ≤ 16 := by
          rw [← sameName, List.length_append, List.length_singleton]
          omega
        obtain ⟨ncache, written, bytes⟩ := @CharArray.writeAt_bytes 16 cache.ncache 0 (name ++ [0]) fits
        have shape : ncache.bytes = name ++ 0 :: cache.ncache.bytes.drop (0 + (name ++ [0]).length) := by
          rw [bytes, List.take_zero, List.nil_append, List.append_assoc]
          rfl
        refine ⟨im.index, ⟨im.index, ncache⟩, ?_, fun _ => CharArray.terminated_of_bytes shape,
          fun _ => .inl ⟨im.view, known, sameName⟩, fun stale => absurd stale (notStale isHit)⟩
        simp only [written]
        rfl

/-- A call of any function of the map. -/
theorem namedStep_represents (ifNametoindex : Text → UInt32) {state : LinkState}
    (represents : Represents count state.table map) (enough : count < fuel)
    (cached : state.cache.icache ≠ 0 → state.cache.ncache.Terminated) (call : NamedCall)
    (fits : call.Fits) :
    ∃ answer after, namedStep fuel ifNametoindex state call = .ok (answer, after) ∧
      Represents (count + 1) after.table (mapAfter map [call]) ∧
      (after.cache.icache ≠ 0 → after.cache.ncache.Terminated) := by
  have kept := represents.mono (Nat.le_succ count)
  cases call with
  | index call =>
      obtain ⟨after, stepped, representsAfter⟩ := linkStep_represents represents enough call fits
      refine ⟨.inl (viewStep map call).1, { state with table := after }, ?_, representsAfter, cached⟩
      rw [namedStep, stepped]
      rfl
  | nameToIndex name =>
      cases name with
      | none => exact ⟨.inr 0, state, rfl, kept, cached⟩
      | some name =>
          obtain ⟨idx, after, looked, cachedAfter, -⟩ :=
            llNameToIndex_represents represents enough ifNametoindex state.cache cached name
          refine ⟨.inr idx, { state with cache := after }, ?_, kept, cachedAfter⟩
          rw [namedStep, looked]
          rfl

theorem runChecked_represents (ifNametoindex : Text → UInt32) (calls : List NamedCall)
    (fits : ∀ call ∈ calls, call.Fits) {state : LinkState} (enough : count + calls.length < fuel)
    (represents : Represents count state.table map)
    (cached : state.cache.icache ≠ 0 → state.cache.ncache.Terminated) :
    ∃ answers last, runChecked (namedStep fuel ifNametoindex) state calls = .ok (answers, last) ∧
      Represents (count + calls.length) last.table (mapAfter map calls) ∧
      (last.cache.icache ≠ 0 → last.cache.ncache.Terminated) := by
  induction calls generalizing count state map with
  | nil => exact ⟨[], state, rfl, represents, cached⟩
  | cons call calls inductionHypothesis =>
      rw [List.length_cons] at enough ⊢
      have here : count < fuel := by omega
      obtain ⟨answer, next, stepped, representsNext, cachedNext⟩ :=
        namedStep_represents ifNametoindex represents here cached call (fits call (.head calls))
      obtain ⟨answers, last, ran, representsLast, cachedLast⟩ := inductionHypothesis
        (fun call later => fits call (.tail _ later)) (by omega) representsNext cachedNext
      refine ⟨answer :: answers, last, ?_, ?_, cachedLast⟩
      · rw [runChecked, stepped]
        simp only [ran]
      · rw [Nat.add_comm calls.length, ← Nat.add_assoc]
        exact representsLast

/-- After any calls, `ll_name_to_index` gives the link of a name as long as the link that it
remembers by that name has not been renamed, and the renamed link otherwise. -/
theorem runChecked_namedStep (ifNametoindex : Text → UInt32) (calls : List NamedCall)
    (fits : ∀ call ∈ calls, call.Fits) (enough : calls.length < fuel) (name : Text) :
    ∃ answers state idx after,
      runChecked (namedStep fuel ifNametoindex) initialLinks calls = .ok (answers, state) ∧
      llNameToIndex fuel ifNametoindex (some name) state.table state.cache = .ok (idx, after) ∧
      (¬ state.cache.Stale (mapAfter (fun _ => none) calls) name →
        Names ifNametoindex (mapAfter (fun _ => none) calls) name idx) ∧
      (state.cache.Stale (mapAfter (fun _ => none) calls) name → idx = state.cache.icache) := by
  have within : 0 + calls.length < fuel := by omega
  obtain ⟨answers, state, ran, represents, cached⟩ :=
    @runChecked_represents 0 fuel (fun _ => none) ifNametoindex calls fits initialLinks within
      emptyTable_represents (fun used => absurd rfl used)
  obtain ⟨idx, after, looked, -, fresh, stale⟩ :=
    llNameToIndex_represents represents within ifNametoindex state.cache cached name
  exact ⟨answers, state, idx, after, ran, looked, fresh, stale⟩

/-- A link is found by its name and then renamed. -/
noncomputable def namedCalls : List NamedCall :=
  [.index (.remember ⟨1, 772, 9, none, [108, 111, 0]⟩ (some freeAllocator)),
    .nameToIndex (some [108, 111]),
    .index (.remember ⟨1, 772, 9, none, [108, 111, 48, 0]⟩ (some freeAllocator))]

theorem runChecked_namedStep_calls :
    ∃ answers state idx after,
      runChecked (namedStep 4 fun _ => 7) initialLinks namedCalls = .ok (answers, state) ∧
      llNameToIndex 4 (fun _ => 7) (some [108, 111]) state.table state.cache = .ok (idx, after) ∧
      (¬ state.cache.Stale (mapAfter (fun _ => none) namedCalls) [108, 111] →
        Names (fun _ => 7) (mapAfter (fun _ => none) namedCalls) [108, 111] idx) ∧
      (state.cache.Stale (mapAfter (fun _ => none) namedCalls) [108, 111] →
        idx = state.cache.icache) := by
  have fits (link : LinkInfo) (terminated : 0 ∈ link.name) (short : (cstr link.name).length < 16)
      (address : link.address = none) : link.Fits :=
    ⟨terminated, short, fun given isGiven => by rw [address] at isGiven; cases isGiven⟩
  exact @runChecked_namedStep 4 (fun _ => 7) namedCalls
    (fun call listed => by
      rcases listed with _ | ⟨_, _ | ⟨_, _ | ⟨_, listed⟩⟩⟩
      · exact fits _ (by decide) (by decide) rfl
      · trivial
      · exact fits _ (by decide) (by decide) rfl
      · cases listed) (by decide) [108, 111]

end Names

end Libamg.Netlink
