import Libamg.C.Bytes

/-!
# Faults and character arrays

A `Fault` is an operation whose behaviour C leaves undefined: a modelled function
that would perform one returns it instead of a value. `CharArray` is a `char`
array inside a structure; nothing forces it to hold a NUL, so reading it as a
string is partial.
-/

namespace Libamg.C

/-- Operations without a defined behaviour. -/
inductive Fault where
  | nullPointer
  | outOfBounds
  | shiftRange
  | danglingPointer
  | invalidFree
  | unfinished
deriving DecidableEq, Repr

/-- A computation that a fault may end. -/
abbrev Checked (α : Type) := Except Fault α

@[simp] theorem Checked.ok_bind {α β : Type} (value : α) (continuation : α → Checked β) :
    ((.ok value : Checked α) >>= continuation) = continuation value := rfl

@[simp] theorem Checked.error_bind {α β : Type} (fault : Fault) (continuation : α → Checked β) :
    ((.error fault : Checked α) >>= continuation) = .error fault := rfl

/-- A sequence returns a value only if both of its parts do. -/
theorem Checked.bind_eq_ok {α β : Type} {first : Checked α} {continuation : α → Checked β}
    {result : β} (returned : first >>= continuation = .ok result) :
    ∃ value, first = .ok value ∧ continuation value = .ok result := by
  cases first with
  | error fault => cases returned
  | ok value => exact ⟨value, rfl, returned⟩

theorem Checked.ite_returns {α : Type} {condition : Prop} [Decidable condition]
    {first second : Checked α} (yes : condition → ∃ value, first = .ok value)
    (no : ¬ condition → ∃ value, second = .ok value) :
    ∃ value, (if condition then first else second) = .ok value := by
  split
  · exact yes ‹_›
  · exact no ‹_›

/-- Partial correctness: the computation ends in a fault, or its value satisfies `P`. -/
def Checked.Ensures {α : Type} (outcome : Checked α) (P : α → Prop) : Prop :=
  ∀ value, outcome = .ok value → P value

namespace Checked.Ensures

variable {α β : Type} {P : α → Prop} {Q : β → Prop}

theorem ok {value : α} (holds : P value) : Ensures (.ok value) P := by
  rintro _ same
  cases same
  exact holds

theorem error {fault : Fault} : Ensures (.error fault) P := by
  rintro _ impossible
  cases impossible

theorem bind {first : Checked α} {continuation : α → Checked β} (firstEnsures : Ensures first P)
    (nextEnsures : ∀ value, P value → Ensures (continuation value) Q) :
    Ensures (first >>= continuation) Q := by
  intro result returned
  obtain ⟨value, found, continued⟩ := Checked.bind_eq_ok returned
  exact nextEnsures value (firstEnsures value found) result continued

theorem ite {condition : Prop} [Decidable condition] {first second : Checked α}
    (yes : condition → Ensures first P) (no : ¬ condition → Ensures second P) :
    Ensures (if condition then first else second) P := by
  split
  · exact yes ‹_›
  · exact no ‹_›

/-- What every turn of a loop keeps, the loop keeps. -/
theorem foldl {turn : Checked α → β → Checked α}
    (kept : ∀ state item, Ensures state P → Ensures (turn state item) P) (items : List β)
    {state : Checked α} (initial : Ensures state P) : Ensures (items.foldl turn state) P := by
  induction items generalizing state with
  | nil => exact initial
  | cons item items inductionHypothesis => exact inductionHypothesis (kept state item initial)

theorem foldlM {turn : α → β → Checked α} (kept : ∀ state item, P state → Ensures (turn state item) P)
    (items : List β) {state : α} (initial : P state) : Ensures (items.foldlM turn state) P := by
  induction items generalizing state with
  | nil => exact ok initial
  | cons item items inductionHypothesis =>
      rw [List.foldlM_cons]
      exact (kept state item initial).bind fun next holds => inductionHypothesis holds

end Checked.Ensures

/-- No other fault than the given one can end the computation. -/
def Checked.OnlyFaults {α : Type} (outcome : Checked α) (fault : Fault) : Prop :=
  ∀ other, outcome = .error other → other = fault

namespace Checked.OnlyFaults

variable {α β : Type} {fault : Fault}

theorem ok {value : α} : OnlyFaults (.ok value) fault := by
  rintro _ impossible
  cases impossible

theorem error : OnlyFaults (.error fault : Checked α) fault := by
  rintro _ same
  cases same
  rfl

theorem bind {first : Checked α} {continuation : α → Checked β} (firstOnly : first.OnlyFaults fault)
    (nextOnly : ∀ value, (continuation value).OnlyFaults fault) :
    OnlyFaults (first >>= continuation) fault := by
  intro other ended
  cases first with
  | error found =>
      cases ended
      exact firstOnly other rfl
  | ok value => exact nextOnly value other ended

theorem ite {condition : Prop} [Decidable condition] {first second : Checked α}
    (yes : first.OnlyFaults fault) (no : second.OnlyFaults fault) :
    OnlyFaults (if condition then first else second) fault := by
  split
  · exact yes
  · exact no

theorem foldlM {turn : α → β → Checked α} (only : ∀ state item, (turn state item).OnlyFaults fault)
    {items : List β} {state : α} : OnlyFaults (items.foldlM turn state) fault := by
  induction items generalizing state with
  | nil => exact ok
  | cons item items inductionHypothesis =>
      rw [List.foldlM_cons]
      exact (only state item).bind fun next => inductionHypothesis

end Checked.OnlyFaults

/-- A loop comes to an item that always ends it in a fault, unless it ended in that
fault before. -/
theorem Checked.foldlM_faults {α β : Type} {fault : Fault} {turn : α → β → Checked α}
    (only : ∀ state item, (turn state item).OnlyFaults fault) {item : β}
    (faults : ∀ state, turn state item = .error fault) {items : List β} (listed : item ∈ items)
    (state : α) : items.foldlM turn state = .error fault := by
  induction listed generalizing state with
  | head rest =>
      rw [List.foldlM_cons, faults]
      rfl
  | tail before listed inductionHypothesis =>
      rw [List.foldlM_cons]
      cases outcome : turn state before with
      | error other =>
          rw [only state before other outcome]
          rfl
      | ok next => exact inductionHypothesis next

/-- A loop whose turns hand a fault on does not go on after one. -/
theorem Checked.foldl_eq_bind {α β : Type} {turn : Checked α → β → Checked α}
    (strict : ∀ fault item, turn (.error fault) item = .error fault) (items : List β)
    (state : Checked α) :
    items.foldl turn state = state >>= fun value => items.foldl turn (.ok value) := by
  cases state with
  | ok value => rfl
  | error fault =>
      induction items with
      | nil => rfl
      | cons item items inductionHypothesis =>
          rw [List.foldl_cons, strict]
          exact inductionHypothesis

/-- Such a loop is one of the turns that begin without a fault. -/
theorem Checked.foldl_bind {α β : Type} (turn : α → β → Checked α) (items : List β)
    (state : Checked α) :
    items.foldl (fun state item => state >>= fun value => turn value item) state =
      state >>= fun value => items.foldlM turn value := by
  induction items generalizing state with
  | nil => cases state <;> rfl
  | cons item items inductionHypothesis =>
      rw [List.foldl_cons, inductionHypothesis]
      cases state <;> rfl

theorem Checked.error_not_ok {α : Type} (fault : Fault) :
    ¬ ∃ value, (.error fault : Checked α) = .ok value := by
  rintro ⟨value, impossible⟩
  cases impossible

/-- Every turn of a loop that gets to its end returns. -/
theorem Checked.foldlM_ok_mem {α β : Type} {turn : α → β → Checked α} {items : List β}
    {state after : α} (run : items.foldlM turn state = .ok after) {item : β} (listed : item ∈ items) :
    ∃ before next, turn before item = .ok next := by
  induction items generalizing state with
  | nil => cases listed
  | cons first items inductionHypothesis =>
      rw [List.foldlM_cons] at run
      obtain ⟨next, returned, rest⟩ := Checked.bind_eq_ok run
      rcases List.mem_cons.mp listed with rfl | later
      · exact ⟨state, next, returned⟩
      · exact inductionHypothesis rest later

/-- A loop whose turns return gets to its end. -/
theorem Checked.foldlM_returns {α β : Type} {turn : α → β → Checked α} {items : List β}
    (returns : ∀ item ∈ items, ∀ state, ∃ next, turn state item = .ok next) (state : α) :
    ∃ after, items.foldlM turn state = .ok after := by
  induction items generalizing state with
  | nil => exact ⟨state, rfl⟩
  | cons first items inductionHypothesis =>
      obtain ⟨firstReturns, others⟩ := List.forall_mem_cons.mp returns
      obtain ⟨next, returned⟩ := firstReturns state
      rw [List.foldlM_cons, returned]
      exact inductionHypothesis others next

/-- A loop whose turns end in a fault or not by their items alone gets to its end exactly
if no item is a faulty one. -/
theorem Checked.foldlM_ok_iff {α β : Type} {turn : α → β → Checked α} {safe : β → Prop}
    (returns : ∀ item, safe item → ∀ state, ∃ next, turn state item = .ok next)
    (faults : ∀ item, ¬ safe item → ∀ state, ∃ fault, turn state item = .error fault)
    (items : List β) (state : α) :
    (∃ after, items.foldlM turn state = .ok after) ↔ ∀ item ∈ items, safe item := by
  constructor
  · rintro ⟨after, run⟩ item listed
    by_contra faulty
    obtain ⟨before, next, returned⟩ := foldlM_ok_mem run listed
    obtain ⟨fault, ended⟩ := faults item faulty before
    rw [ended] at returned
    cases returned
  · exact fun safe => foldlM_returns (fun item listed => returns item (safe item listed)) state

/-- Follow a pointer that may be NULL. -/
def deref {α : Type} : Option α → Checked α
  | none => .error .nullPointer
  | some value => .ok value

/-- Read an element of an array. -/
def element {α : Type} {size : Nat} (array : Vector α size) (index : Nat) : Checked α :=
  if inside : index < size then .ok array[index] else .error .outOfBounds

theorem element_onlyFaults {α : Type} {size : Nat} (array : Vector α size) (index : Nat) :
    (element array index).OnlyFaults .outOfBounds := by
  unfold element
  split
  · exact .ok
  · exact .error

/-- `sprintf` into a buffer of `capacity` bytes, which must also hold the NUL. -/
def sprintf (capacity : Nat) (text : Text) : Checked Text :=
  if text.length < capacity then .ok text else .error .outOfBounds

theorem sprintf_eq {capacity : Nat} {text : Text} (fits : text.length < capacity) :
    sprintf capacity text = .ok text := if_pos fits

/-- A `char` array of `size` bytes. -/
structure CharArray (size : Nat) where
  bytes : Text
  size_eq : bytes.length = size
deriving DecidableEq

namespace CharArray

variable {size : Nat}

@[ext] theorem ext {left right : CharArray size} (bytes : left.bytes = right.bytes) :
    left = right := by
  cases left
  cases right
  cases bytes
  rfl

/-- An array cleared by `memset`. -/
def zero (size : Nat) : CharArray size := ⟨List.replicate size 0, List.length_replicate⟩

/-- The bytes before the first NUL, or all of them when there is none. -/
def str (array : CharArray size) : Text := cstr array.bytes

/-- The array holds a NUL, so string functions stay inside it. -/
def Terminated (array : CharArray size) : Prop := 0 ∈ array.bytes

instance (array : CharArray size) : Decidable array.Terminated :=
  inferInstanceAs (Decidable (0 ∈ array.bytes))

/-- Read the array as a string; without a NUL the read runs past its end. -/
def read (array : CharArray size) : Checked Text :=
  if array.Terminated then .ok array.str else .error .outOfBounds

/-- `strncpy(array, source, count)`: at most `count` bytes of the source, the rest
of the `count` bytes NUL, and everything behind them untouched. -/
def strncpy (array : CharArray size) (source : Text) (count : Nat)
    (fits : count ≤ size := by decide) : CharArray size :=
  ⟨source.take count ++ List.replicate (count - source.length) 0 ++ array.bytes.drop count, by
    simp only [List.length_append, List.length_take, List.length_replicate, List.length_drop,
      array.size_eq]
    omega⟩

/-- A cleared array after `strncpy` of all but its last byte. -/
def filled (count : Nat) (source : Text) : CharArray (count + 1) :=
  (zero (count + 1)).strncpy source count (Nat.le_succ count)

/-- A cleared array after `strncpy` of its whole size. -/
def full (size : Nat) (source : Text) : CharArray size :=
  (zero size).strncpy source size (Nat.le_refl size)

/-- Overwrite the first bytes of the array, as an in-place edit of its string does. -/
def overwrite (array : CharArray size) (front : Text) : CharArray size :=
  ⟨(front ++ array.bytes.drop front.length).take size, by
    simp only [List.length_take, List.length_append, List.length_drop, array.size_eq]
    omega⟩

/-- Read one byte of the array. -/
def byteAt (array : CharArray size) (index : Nat) : Checked Byte :=
  match array.bytes[index]? with
  | some byte => .ok byte
  | none => .error .outOfBounds

theorem read_eq_str {array : CharArray size} (terminated : array.Terminated) :
    array.read = .ok array.str := if_pos terminated

theorem nul_notMem_str (array : CharArray size) : 0 ∉ array.str :=
  nul_notMem_cstr array.bytes

theorem exists_bytes_eq {array : CharArray size} (terminated : array.Terminated) :
    ∃ rest, array.bytes = array.str ++ 0 :: rest := exists_eq_cstr_append terminated

/-- An array that begins with a text and a NUL is a string. -/
theorem terminated_of_bytes {array : CharArray size} {text rest : Text}
    (bytes : array.bytes = text ++ 0 :: rest) : array.Terminated := by
  rw [Terminated, bytes]
  exact List.mem_append_right text (.head rest)

theorem str_of_bytes {array : CharArray size} {text rest : Text} (string : 0 ∉ text)
    (bytes : array.bytes = text ++ 0 :: rest) : array.str = text := by
  rw [str, bytes, cstr_append_nul string]

/-- A terminated array holds a string shorter than itself. -/
theorem str_length_lt {array : CharArray size} (terminated : array.Terminated) :
    array.str.length < size := by
  obtain ⟨rest, shape⟩ := exists_bytes_eq terminated
  have length := congrArg List.length shape
  rw [array.size_eq, List.length_append, List.length_cons] at length
  omega

theorem overwrite_bytes {array : CharArray size} {front : Text} (fits : front.length ≤ size) :
    (array.overwrite front).bytes = front ++ array.bytes.drop front.length := by
  have length : (front ++ array.bytes.drop front.length).length ≤ size := by
    rw [List.length_append, List.length_drop, array.size_eq]
    omega
  exact List.take_of_length_le length

/-- The byte behind a front part. -/
theorem byteAt_of_bytes {array : CharArray size} {front rest : Text} {byte : Byte}
    (bytes : array.bytes = front ++ byte :: rest) : array.byteAt front.length = .ok byte := by
  rw [byteAt, bytes, List.getElem?_append_right (Nat.le_refl _), Nat.sub_self]
  rfl

/-- The bytes written by the last overwrite are read back. -/
theorem byteAt_overwrite (array : CharArray size) {front : Text} {index : Nat} {byte : Byte}
    (fits : front.length ≤ size) (found : front[index]? = some byte) :
    (array.overwrite front).byteAt index = .ok byte := by
  have inside : index < front.length := (List.getElem?_eq_some_iff.mp found).1
  rw [byteAt, overwrite_bytes fits, List.getElem?_append_left inside, found]

@[simp] theorem str_zero : (zero size).str = [] := by
  unfold str zero cstr
  cases size <;> simp [List.replicate_succ]

/-- A copy that does not fill a cleared array leaves zeros behind the source. -/
theorem strncpy_zero_bytes {source : Text} {count : Nat} (fits : count ≤ size)
    (short : source.length ≤ count) :
    ((zero size).strncpy source count fits).bytes =
      source ++ List.replicate (size - source.length) 0 := by
  simp only [strncpy, zero, List.take_of_length_le short, List.drop_replicate, List.append_assoc,
    List.replicate_append_replicate]
  congr 2
  omega

/-- Copying a string into a cleared array with room for its NUL keeps it whole. -/
theorem str_strncpy_zero {source : Text} {count : Nat} (fits : count ≤ size)
    (noNul : 0 ∉ source) (short : source.length ≤ count) (room : source.length < size) :
    ((zero size).strncpy source count fits).str = source := by
  unfold str
  rw [strncpy_zero_bytes fits short]
  obtain ⟨extra, room⟩ : ∃ extra, size - source.length = extra + 1 := ⟨size - source.length - 1, by omega⟩
  rw [room, List.replicate_succ]
  exact cstr_append_nul noNul _

@[simp] theorem strncpy_zero_nil {count : Nat} (fits : count ≤ size) :
    (zero size).strncpy [] count fits = zero size := by
  ext1
  have short : ([] : Text).length ≤ count := Nat.zero_le count
  rw [strncpy_zero_bytes fits short]
  rfl

theorem strncpy_zero_terminated {source : Text} {count : Nat} (fits : count ≤ size)
    (short : source.length ≤ count) (room : source.length < size) :
    ((zero size).strncpy source count fits).Terminated := by
  unfold Terminated
  rw [strncpy_zero_bytes fits short]
  simp
  omega

theorem str_filled {count : Nat} {source : Text} (noNul : 0 ∉ source)
    (short : source.length ≤ count) : (filled count source).str = source :=
  str_strncpy_zero (Nat.le_succ count) noNul short (Nat.lt_succ_of_le short)

theorem filled_terminated {count : Nat} {source : Text} (short : source.length ≤ count) :
    (filled count source).Terminated :=
  strncpy_zero_terminated (Nat.le_succ count) short (Nat.lt_succ_of_le short)

/-- The last byte of the array is a NUL. -/
def Closed (array : CharArray size) : Prop := array.bytes.getLast? = some 0

theorem Closed.terminated {array : CharArray size} (closed : array.Closed) : array.Terminated :=
  List.mem_of_getLast? closed

theorem closed_zero (size : Nat) : (zero (size + 1)).Closed := by
  rw [Closed, zero, List.getLast?_replicate, if_neg (Nat.succ_ne_zero size)]

theorem strncpy_bytes (array : CharArray size) (source : Text) {count : Nat} (fits : count ≤ size) :
    (array.strncpy source count fits).bytes =
      source.take count ++ List.replicate (count - source.length) 0 ++ array.bytes.drop count := rfl

/-- A copy that leaves the last byte alone keeps the array closed. -/
theorem Closed.strncpy {array : CharArray size} (closed : array.Closed) (source : Text) {count : Nat}
    (fits : count ≤ size) (inside : count < size) : (array.strncpy source count fits).Closed := by
  have last : (array.bytes.drop count).getLast? = some 0 := by
    rw [List.getLast?_drop, array.size_eq, if_neg (Nat.not_le.mpr inside)]
    exact closed
  rw [Closed, strncpy_bytes, List.getLast?_append, last, Option.some_or]

/-- A copy into all bytes but a closing NUL leaves as much of the source as fits. -/
theorem Closed.str_strncpy {count : Nat} {array : CharArray (count + 1)} (closed : array.Closed)
    {source : Text} (noNul : 0 ∉ source) :
    (array.strncpy source count (Nat.le_succ count)).str = source.take count := by
  have length : (array.bytes.drop count).length = 1 := by
    rw [List.length_drop, array.size_eq]
    omega
  obtain ⟨last, single⟩ := List.length_eq_one_iff.mp length
  have nul : array.bytes.drop count = [0] := by
    have kept : (array.bytes.drop count).getLast? = some 0 := by
      rw [List.getLast?_drop, array.size_eq, if_neg (by omega)]
      exact closed
    rw [single] at kept ⊢
    cases kept
    rfl
  have clean : 0 ∉ source.take count := fun member => noNul (List.mem_of_mem_take member)
  have padding : List.replicate (count - source.length) 0 ++ [(0 : Byte)] =
      0 :: List.replicate (count - source.length) 0 := by
    rw [← List.replicate_succ', List.replicate_succ]
  rw [str, strncpy_bytes, nul, List.append_assoc, padding]
  exact cstr_append_nul clean _

/-- A copy over a whole array leaves a NUL behind a source that is shorter than it. -/
theorem terminated_strncpy_full (array : CharArray size) {source : Text} (noNul : 0 ∉ source) :
    (array.strncpy source size (Nat.le_refl size)).Terminated ↔ source.length < size := by
  have nothing : array.bytes.drop size = [] :=
    List.drop_of_length_le (Nat.le_of_eq array.size_eq)
  rw [Terminated, strncpy_bytes, nothing, List.append_nil, List.mem_append, List.mem_replicate]
  constructor
  · rintro (inSource | ⟨padded, -⟩)
    · exact absurd (List.mem_of_mem_take inSource) noNul
    · omega
  · intro short
    exact .inr ⟨by omega, rfl⟩

/-- A string field in the sense of the configuration structures: terminated
inside its array and made of graphic bytes. -/
structure Word (array : CharArray size) : Prop where
  terminated : array.Terminated
  isWord : IsWord array.str

instance (array : CharArray size) : Decidable array.Word :=
  decidable_of_iff (array.Terminated ∧ IsWord array.str)
    ⟨fun parts => ⟨parts.1, parts.2⟩, fun word => ⟨word.terminated, word.isWord⟩⟩

theorem Word.length_lt {array : CharArray size} (word : array.Word) :
    array.str.length < size := str_length_lt word.terminated

end CharArray

end Libamg.C
