import Libamg.C.Numbers

/-!
# Records with their length in front

Records lie one behind the other in memory, each on a boundary of four bytes, and each
begins with its own length. A pointer to a record is the memory from there on, and the
bytes that are left may run out inside the padding of the last one, which takes their
count below zero.

`walk` is the loop over the records, with a visitor that may end it. Any bytes are a `Chain`
of pointers to whole records with a rest behind them (`exists_chain`), and the loop visits
these pointers (`walk_chain`); `Chain.of_layout` is the chain of records that were laid out.
-/

namespace Libamg.C

/-- `((length) + 4 - 1) & ~(4 - 1)`. -/
def align4 (length : Nat) : Nat := (length + 3) / 4 * 4

theorem le_align4 (length : Nat) : length ≤ align4 length := by
  unfold align4
  omega

theorem align4_lt (length : Nat) : align4 length < length + 4 := by
  unfold align4
  omega

theorem align4_mod (length : Nat) : align4 length % 4 = 0 := Nat.mul_mod_left _ _

theorem align4_eq {length : Nat} (aligned : length % 4 = 0) : align4 length = length := by
  unfold align4
  omega

/-- What a visitor does with the loop: go on with a new state, or leave. -/
inductive Turn (σ ρ : Type) where
  | next (state : σ)
  | leave (result : ρ)

section Visit

variable {α β σ ρ : Type}

/-- Visit the items of a list until a visit leaves. -/
def visitAll (visit : σ → α → Checked (Turn σ ρ)) : σ → List α → Checked (Turn σ ρ)
  | state, [] => .ok (.next state)
  | state, item :: items => visit state item >>= fun
      | .leave result => .ok (.leave result)
      | .next state => visitAll visit state items

theorem visitAll_append (visit : σ → α → Checked (Turn σ ρ)) (state : σ) (first second : List α) :
    visitAll visit state (first ++ second) = visitAll visit state first >>= fun
      | .leave result => .ok (.leave result)
      | .next state => visitAll visit state second := by
  induction first generalizing state with
  | nil => rfl
  | cons item first inductionHypothesis =>
      rw [List.cons_append, visitAll, visitAll]
      cases visit state item with
      | error fault => rfl
      | ok turn =>
          cases turn with
          | leave result => rfl
          | next state => exact inductionHypothesis state

/-- A visitor that never leaves is a fold. -/
theorem visitAll_next {visit : σ → α → Checked (Turn σ ρ)} {next : σ → α → σ} (state : σ)
    {items : List α} (goesOn : ∀ state, ∀ item ∈ items, visit state item = .ok (.next (next state item))) :
    visitAll visit state items = .ok (.next (items.foldl next state)) := by
  induction items generalizing state with
  | nil => rfl
  | cons item items inductionHypothesis =>
      rw [visitAll, goesOn state item (.head items)]
      exact inductionHypothesis (next state item) fun state item later =>
        goesOn state item (.tail _ later)

/-- Visits that do not fault make a loop that does not. -/
theorem visitAll_returns {visit : σ → α → Checked (Turn σ ρ)} {items : List α}
    (returns : ∀ state, ∀ item ∈ items, ∃ turn, visit state item = .ok turn) (state : σ) :
    ∃ turn, visitAll visit state items = .ok turn := by
  induction items generalizing state with
  | nil => exact ⟨.next state, rfl⟩
  | cons item items inductionHypothesis =>
      obtain ⟨turn, visited⟩ := returns state item (.head items)
      rw [visitAll, visited]
      cases turn with
      | leave result => exact ⟨.leave result, rfl⟩
      | next state =>
          exact inductionHypothesis (fun state item later => returns state item (.tail _ later)) state

end Visit

/-- The form of records: the first `width` bytes of the `header` are the length. -/
structure Framing where
  width : Nat
  header : Nat
  counted : width ≤ header
  positive : 0 < header

namespace Framing

variable (framing : Framing) (bigEndian : Bool)

/-- The length of the record at a pointer, if the bytes left hold it whole. -/
def recordLength (memory : Text) (left : Int) : Checked (Option Nat) :=
  if left < framing.header then .ok none
  else do
    let length ← readNum bigEndian memory 0 framing.width
    return if framing.header ≤ length ∧ (length : Int) ≤ left then some length else none

/-- The bytes of the record at a pointer. -/
def recordAt (pointer : Text) : Text :=
  pointer.take (loadNum bigEndian (pointer.take framing.width))

section Length

variable {framing} {bigEndian}
variable {memory : Text} {left : Int} {length : Nat}

theorem recordLength_short (short : left < framing.header) :
    framing.recordLength bigEndian memory left = .ok none := if_pos short

theorem recordLength_read (long : framing.header ≤ left) (inside : framing.width ≤ memory.length) :
    framing.recordLength bigEndian memory left =
      .ok (if framing.header ≤ loadNum bigEndian (memory.take framing.width) ∧
          (loadNum bigEndian (memory.take framing.width) : Int) ≤ left then
        some (loadNum bigEndian (memory.take framing.width)) else none) := by
  have read := @readNum_inside bigEndian memory 0 framing.width (by omega)
  rw [recordLength, if_neg (Int.not_lt.mpr long), read]
  rfl

/-- Reading the length stays in the bytes that are left. -/
theorem recordLength_returns (inside : left ≤ memory.length) :
    ∃ found, framing.recordLength bigEndian memory left = .ok found := by
  by_cases short : left < framing.header
  · exact ⟨none, recordLength_short short⟩
  · have counted := framing.counted
    exact ⟨_, recordLength_read (Int.not_lt.mp short) (by omega)⟩

theorem recordLength_some
    (found : framing.recordLength bigEndian memory left = .ok (some length)) :
    framing.header ≤ length ∧ (length : Int) ≤ left ∧ framing.width ≤ memory.length ∧
      loadNum bigEndian (memory.take framing.width) = length := by
  unfold recordLength at found
  split at found
  · cases found
  · obtain ⟨value, read, returned⟩ := Checked.bind_eq_ok found
    by_cases inside : 0 + framing.width ≤ memory.length
    · rw [readNum_inside inside] at read
      cases read
      split at returned
      · rename_i whole
        cases returned
        exact ⟨whole.1, whole.2, by omega, rfl⟩
      · cases returned
    · rw [readNum_overrun (Nat.not_le.mp inside)] at read
      cases read

end Length

section Walk

variable {σ ρ : Type}

/-- The loop over the records: the state it ends in with the pointer and the bytes left, or
what it was left with. -/
def walk (visit : σ → Text → Checked (Turn σ ρ)) (state : σ) (memory : Text) (left : Int) :
    Checked (Turn (σ × Text × Int) ρ) :=
  match _found : framing.recordLength bigEndian memory left with
  | .error fault => .error fault
  | .ok none => .ok (.next (state, memory, left))
  | .ok (some length) => visit state memory >>= fun
      | .leave result => .ok (.leave result)
      | .next state => walk visit state (memory.drop (align4 length)) (left - align4 length)
termination_by left.toNat
decreasing_by
  obtain ⟨header, fits, -⟩ := recordLength_some _found
  have padded := le_align4 length
  have positive := framing.positive
  omega

variable {framing} {bigEndian}
variable {visit : σ → Text → Checked (Turn σ ρ)} {state : σ} {memory : Text} {left : Int}

theorem walk_end (found : framing.recordLength bigEndian memory left = .ok none) :
    framing.walk bigEndian visit state memory left = .ok (.next (state, memory, left)) := by
  unfold walk
  split
  · rename_i same
    rw [found] at same
    cases same
  · rfl
  · rename_i same
    rw [found] at same
    cases same

theorem walk_record {length : Nat}
    (found : framing.recordLength bigEndian memory left = .ok (some length)) :
    framing.walk bigEndian visit state memory left =
      visit state memory >>= fun
        | .leave result => .ok (.leave result)
        | .next state =>
            framing.walk bigEndian visit state (memory.drop (align4 length))
              (left - align4 length) := by
  conv => lhs; unfold walk
  split
  · rename_i same
    rw [found] at same
    cases same
  · rename_i same
    rw [found] at same
    cases same
  · rename_i same
    rw [found] at same
    cases same
    rfl

end Walk

/-! ## Chains of records -/

/-- The pointers to the whole records at the front of the bytes left, with what is left of
memory and of the bytes behind the last one. -/
inductive Chain : Text → Int → List Text → Text → Int → Prop
  | done {memory : Text} {left : Int}
      (none : framing.recordLength bigEndian memory left = .ok none) : Chain memory left [] memory left
  | record {memory rest : Text} {left after : Int} {length : Nat} {pointers : List Text}
      (found : framing.recordLength bigEndian memory left = .ok (some length))
      (others : Chain (memory.drop (align4 length)) (left - align4 length) pointers rest after) :
      Chain memory left (memory :: pointers) rest after

variable {framing} {bigEndian}

/-- Any bytes are a chain of records with a rest. -/
theorem exists_chain (memory : Text) (left : Int) (inside : left ≤ memory.length) :
    ∃ pointers rest after, framing.Chain bigEndian memory left pointers rest after := by
  obtain ⟨found, read⟩ := @recordLength_returns framing bigEndian memory left inside
  cases found with
  | none => exact ⟨[], memory, left, .done read⟩
  | some length =>
      obtain ⟨header, fits, -⟩ := recordLength_some read
      have padded := le_align4 length
      have positive := framing.positive
      obtain ⟨pointers, rest, after, others⟩ :=
        exists_chain (memory.drop (align4 length)) (left - align4 length) (by
          rw [List.length_drop]
          omega)
      exact ⟨memory :: pointers, rest, after, .record read others⟩
termination_by left.toNat
decreasing_by omega

/-- The loop visits the pointers of the chain. -/
theorem walk_chain {σ ρ : Type} {visit : σ → Text → Checked (Turn σ ρ)} {memory rest : Text}
    {left after : Int} {pointers : List Text}
    (chain : framing.Chain bigEndian memory left pointers rest after) (state : σ) :
    framing.walk bigEndian visit state memory left = visitAll visit state pointers >>= fun
      | .leave result => .ok (.leave result)
      | .next state => .ok (.next (state, rest, after)) := by
  induction chain generalizing state with
  | done none => exact walk_end none
  | @record memory rest left after length pointers found others inductionHypothesis =>
      rw [walk_record found, visitAll]
      cases visit state memory with
      | error fault => rfl
      | ok turn =>
          cases turn with
          | leave result => rfl
          | next state => exact inductionHypothesis state

namespace Chain

variable {memory rest : Text} {left after : Int} {pointers : List Text}

/-- What is left behind the last record; the padding of that may reach behind the bytes left. -/
theorem rest_eq (chain : framing.Chain bigEndian memory left pointers rest after)
    (started : -3 ≤ left) :
    ∃ offset : Nat, rest = memory.drop offset ∧ (offset : Int) + after = left ∧ -3 ≤ after := by
  induction chain with
  | @done memory left none => exact ⟨0, List.drop_zero.symm, Int.zero_add left, started⟩
  | @record memory rest left after length pointers found others inductionHypothesis =>
      obtain ⟨header, fits, -⟩ := recordLength_some found
      have padded := align4_lt length
      obtain ⟨offset, dropped, total, ended⟩ := inductionHypothesis (by omega)
      refine ⟨align4 length + offset, ?_, by omega, ended⟩
      rw [dropped, List.drop_drop]

/-- A pointer of a chain points to a whole record among the bytes left. -/
theorem pointer (chain : framing.Chain bigEndian memory left pointers rest after)
    (inside : left ≤ memory.length) {pointer : Text} (listed : pointer ∈ pointers) :
    ∃ offset, pointer = memory.drop offset ∧ offset % 4 = 0 ∧
      framing.header ≤ (framing.recordAt bigEndian pointer).length ∧
      loadNum bigEndian (pointer.take framing.width) = (framing.recordAt bigEndian pointer).length ∧
      ((offset + (framing.recordAt bigEndian pointer).length : Nat) : Int) ≤ left := by
  induction chain with
  | done none => cases listed
  | @record memory rest left after length pointers found others inductionHypothesis =>
      obtain ⟨header, fits, -, counted⟩ := recordLength_some found
      cases listed with
      | head =>
          have whole : (framing.recordAt bigEndian pointer).length = length := by
            rw [recordAt, counted, List.length_take]
            omega
          refine ⟨0, List.drop_zero.symm, rfl, ?_, ?_, ?_⟩
          · rw [whole]
            exact header
          · rw [whole]
            exact counted
          · rw [whole, Nat.zero_add]
            exact fits
      | tail _ later =>
          have insideOthers : left - align4 length ≤ (memory.drop (align4 length)).length := by
            rw [List.length_drop]
            omega
          obtain ⟨offset, dropped, aligned, whole, counted, bounded⟩ :=
            inductionHypothesis insideOthers later
          have step := align4_mod length
          refine ⟨align4 length + offset, ?_, by omega, whole, counted, by omega⟩
          rw [dropped, List.drop_drop]

end Chain

/-! ## Records that are laid out -/

/-- A record with the bytes up to the next boundary. -/
structure Record (framing : Framing) (bigEndian : Bool) where
  bytes : Text
  padding : Text
  complete : framing.header ≤ bytes.length
  counted : loadNum bigEndian (bytes.take framing.width) = bytes.length
  padded : bytes.length + padding.length = align4 bytes.length

/-- The records in memory. -/
def layout (records : List (Record framing bigEndian)) : Text :=
  records.flatMap fun record => record.bytes ++ record.padding

/-- The pointers to the records in memory, with something behind them. -/
def pointersOf : List (Record framing bigEndian) → Text → List Text
  | [], _ => []
  | record :: records, behind => (layout (record :: records) ++ behind) :: pointersOf records behind

section Layout

variable {records : List (Record framing bigEndian)} {behind : Text}

theorem layout_cons (record : Record framing bigEndian) (records : List (Record framing bigEndian)) :
    layout (record :: records) = record.bytes ++ (record.padding ++ layout records) := by
  rw [layout, List.flatMap_cons, List.append_assoc]
  rfl

@[simp] theorem layout_append (first second : List (Record framing bigEndian)) :
    layout (first ++ second) = layout first ++ layout second := List.flatMap_append

theorem layout_cons_length (record : Record framing bigEndian)
    (records : List (Record framing bigEndian)) :
    (layout (record :: records)).length = align4 record.bytes.length + (layout records).length := by
  rw [layout_cons, List.length_append, List.length_append, ← Nat.add_assoc, record.padded]

theorem length_le_layout {record : Record framing bigEndian} {records : List (Record framing bigEndian)}
    (listed : record ∈ records) : record.bytes.length ≤ (layout records).length := by
  induction records with
  | nil => cases listed
  | cons first records inductionHypothesis =>
      have padded := le_align4 first.bytes.length
      rw [layout_cons_length]
      rcases List.mem_cons.mp listed with rfl | later
      · omega
      · have within := inductionHypothesis later
        omega

/-- Records end on a boundary. -/
theorem layout_length_mod (records : List (Record framing bigEndian)) :
    (layout records).length % 4 = 0 := by
  induction records with
  | nil => rfl
  | cons record records inductionHypothesis =>
      have aligned := align4_mod record.bytes.length
      rw [layout_cons_length]
      omega

theorem recordLength_record {record : Record framing bigEndian} {behind : Text} {left : Int}
    (fits : (record.bytes.length : Int) ≤ left) :
    framing.recordLength bigEndian (record.bytes ++ behind) left = .ok (some record.bytes.length) := by
  have complete := record.complete
  have short : framing.width ≤ record.bytes.length := Nat.le_trans framing.counted record.complete
  have inside : framing.width ≤ (record.bytes ++ behind).length := by
    rw [List.length_append]
    omega
  have read := @recordLength_read framing bigEndian _ left (by omega) inside
  rwa [List.take_append_of_le_length short, record.counted, if_pos ⟨complete, fits⟩] at read

/-- Records that are laid out begin the chain, and what lies behind them goes on with it. -/
theorem Chain.of_layout {rest : Text} {left after : Int} {pointers : List Text}
    (later : framing.Chain bigEndian behind left pointers rest after) (nonneg : 0 ≤ left) :
    framing.Chain bigEndian (layout records ++ behind) ((layout records).length + left)
      (pointersOf records behind ++ pointers) rest after := by
  induction records with
  | nil =>
      rw [layout, List.flatMap_nil, List.nil_append, List.length_nil, Int.natCast_zero, Int.zero_add]
      exact later
  | cons record records inductionHypothesis =>
      have padded := le_align4 record.bytes.length
      have length := layout_cons_length record records
      have found : framing.recordLength bigEndian (layout (record :: records) ++ behind)
          ((layout (record :: records)).length + left) = .ok (some record.bytes.length) := by
        rw [layout_cons, List.append_assoc, ← layout_cons]
        exact recordLength_record (by omega)
      have dropped : (layout (record :: records) ++ behind).drop (align4 record.bytes.length) =
          layout records ++ behind := by
        rw [layout_cons, ← List.append_assoc, List.append_assoc, ← record.padded,
          ← List.length_append, List.drop_left]
      have count : ((layout (record :: records)).length : Int) + left - align4 record.bytes.length =
          (layout records).length + left := by
        omega
      refine .record found ?_
      rw [dropped, count]
      exact inductionHypothesis

/-- A visitor that looks at records only visits them one after the other. -/
theorem visitAll_pointersOf {σ ρ : Type} {visit : σ → Text → Checked (Turn σ ρ)}
    {each : σ → Record framing bigEndian → Checked (Turn σ ρ)} (state : σ)
    (reads : ∀ state, ∀ record ∈ records, ∀ behind,
      visit state (record.bytes ++ behind) = each state record) :
    visitAll visit state (pointersOf records behind) = visitAll each state records := by
  induction records generalizing state with
  | nil => rfl
  | cons record records inductionHypothesis =>
      rw [pointersOf, visitAll, visitAll, layout_cons, List.append_assoc, reads state record (.head records)]
      cases each state record with
      | error fault => rfl
      | ok turn =>
          cases turn with
          | leave result => rfl
          | next state =>
              exact inductionHypothesis state fun state record later => reads state record (.tail _ later)

/-- Where the bytes left are exactly records, the loop visits these and leaves nothing. -/
theorem walk_layout {σ ρ : Type} (visit : σ → Text → Checked (Turn σ ρ)) (state : σ)
    (records : List (Record framing bigEndian)) (behind : Text) :
    framing.walk bigEndian visit state (layout records ++ behind) (layout records).length =
      visitAll visit state (pointersOf records behind) >>= fun
        | .leave result => .ok (.leave result)
        | .next state => .ok (.next (state, behind, 0)) := by
  have positive := framing.positive
  have nothing : framing.Chain bigEndian behind 0 [] behind 0 :=
    .done (recordLength_short (by omega))
  have chain := @Chain.of_layout framing bigEndian records behind behind 0 0 [] nothing (Int.le_refl 0)
  rw [Int.add_zero, List.append_nil] at chain
  exact walk_chain chain state

end Layout

end Framing

end Libamg.C
