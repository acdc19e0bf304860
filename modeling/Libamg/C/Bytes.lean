import Mathlib.Data.List.TakeWhile

/-!
# Bytes and C strings

Text is a list of bytes. A C string is the part of a memory block before its
first NUL; `cstr` reads it. The character classes are those of the C locale.
-/

namespace Libamg.C

/-- One `char`, as the unsigned value of its eight bits. -/
abbrev Byte := UInt8

abbrev Text := List Byte

/-- The bytes of a string literal, without the terminating NUL. -/
def lit (literal : String) : Text := literal.toByteArray.data.toList

def newline : Byte := 10
def blank : Byte := 32
def minus : Byte := 45
def equals : Byte := 61

/-- `isspace` in the C locale. -/
def isSpace (byte : Byte) : Bool := (9 ≤ byte && byte ≤ 13) || byte == 32

/-- `isdigit`. -/
def isDigit (byte : Byte) : Bool := 48 ≤ byte && byte ≤ 57

/-- `isgraph` in the C locale: printable and not a blank. -/
def isGraph (byte : Byte) : Bool := 33 ≤ byte && byte ≤ 126

/-- The C string at the start of a memory block. -/
def cstr (memory : Text) : Text := memory.takeWhile (· ≠ 0)

@[simp] theorem lit_empty : lit "" = [] := rfl

@[simp] theorem lit_inj {first second : String} : lit first = lit second ↔ first = second := by
  rw [lit, lit, Array.toList_inj]
  constructor
  · intro data
    exact String.toByteArray_inj.mp (ByteArray.ext data)
  · rintro rfl
    rfl

/-- What all items of a list should satisfy can be decided item by item. -/
theorem forall_mem_of_all {α : Type} {P : α → Prop} [DecidablePred P] {items : List α}
    (all : items.all (fun item => decide (P item)) = true) : ∀ item ∈ items, P item := by
  simpa using all

theorem forall_head_of_all {P : Byte → Prop} [DecidablePred P] {text : Text}
    (all : text.head?.all (fun byte => decide (P byte)) = true) : ∀ byte ∈ text.head?, P byte := by
  intro byte first
  rw [first, Option.all_some] at all
  exact of_decide_eq_true all

/-! Bytes of a kind are taken up to the first one that is not of the kind. -/

section Span

variable {keep : Byte → Bool} {front rest : Text}

theorem takeWhile_append_stop (inside : ∀ byte ∈ front, keep byte = true)
    (stop : ∀ byte ∈ rest.head?, keep byte = false) : (front ++ rest).takeWhile keep = front := by
  have none : rest.takeWhile keep = [] := by
    cases rest with
    | nil => rfl
    | cons byte rest => simpa using stop
  rw [List.takeWhile_append_of_pos inside, none, List.append_nil]

theorem dropWhile_append_stop (inside : ∀ byte ∈ front, keep byte = true)
    (stop : ∀ byte ∈ rest.head?, keep byte = false) : (front ++ rest).dropWhile keep = rest := by
  have none : rest.dropWhile keep = rest := by
    cases rest with
    | nil => rfl
    | cons byte rest => simpa using stop
  rw [List.dropWhile_append_of_pos inside, none]

end Span

@[simp] theorem cstr_nil : cstr [] = [] := rfl

@[simp] theorem cstr_nul (rest : Text) : cstr (0 :: rest) = [] := by
  simp [cstr]

theorem cstr_cons {byte : Byte} (nonzero : byte ≠ 0) (rest : Text) :
    cstr (byte :: rest) = byte :: cstr rest := by
  simp [cstr, nonzero]

theorem cstr_take (memory : Text) (count : Nat) : cstr (memory.take count) = (cstr memory).take count :=
  List.take_takeWhile.symm

theorem isPrefix_cstr (memory : Text) : cstr memory <+: memory := List.takeWhile_prefix _

theorem cstr_eq_self {text : Text} (noNul : 0 ∉ text) : cstr text = text := by
  unfold cstr
  rw [List.takeWhile_eq_self_iff]
  intro byte member
  have nonzero : byte ≠ 0 := fun equal => noNul (equal ▸ member)
  simpa using nonzero

/-- Text without a NUL, followed by one, is read back whole. -/
theorem cstr_append_nul {text : Text} (noNul : 0 ∉ text) (rest : Text) :
    cstr (text ++ 0 :: rest) = text := by
  unfold cstr
  rw [List.takeWhile_append_of_pos]
  · simp
  · intro byte member
    have nonzero : byte ≠ 0 := fun equal => noNul (equal ▸ member)
    simpa using nonzero

theorem cstr_append {text : Text} (noNul : 0 ∉ text) (rest : Text) :
    cstr (text ++ rest) = text ++ cstr rest := by
  unfold cstr
  refine List.takeWhile_append_of_pos ?_
  intro byte member
  have nonzero : byte ≠ 0 := fun equal => noNul (equal ▸ member)
  simpa using nonzero

theorem nul_notMem_cstr (memory : Text) : 0 ∉ cstr memory := by
  intro member
  have nonzero := List.mem_takeWhile_imp member
  simp at nonzero

/-- A terminated block is its string, a NUL and whatever comes behind. -/
theorem exists_eq_cstr_append {memory : Text} (terminated : 0 ∈ memory) :
    ∃ rest, memory = cstr memory ++ 0 :: rest := by
  induction memory with
  | nil => simp at terminated
  | cons byte tail inductionHypothesis =>
      by_cases isNul : byte = 0
      · exact ⟨tail, by simp [isNul]⟩
      · have inTail : 0 ∈ tail := by
          rcases List.mem_cons.mp terminated with equal | member
          · exact absurd equal.symm isNul
          · exact member
        obtain ⟨rest, shape⟩ := inductionHypothesis inTail
        refine ⟨rest, ?_⟩
        rw [cstr_cons isNul, List.cons_append, ← shape]

/-- What lies behind a terminated block does not change its string. -/
theorem cstr_append_behind {memory : Text} (terminated : 0 ∈ memory) (behind : Text) :
    cstr (memory ++ behind) = cstr memory := by
  obtain ⟨rest, shape⟩ := exists_eq_cstr_append terminated
  have string := nul_notMem_cstr memory
  calc cstr (memory ++ behind) = cstr (cstr memory ++ 0 :: (rest ++ behind)) := by
        conv => lhs; rw [shape]
        rw [List.append_assoc, List.cons_append]
    _ = cstr memory := cstr_append_nul string (rest ++ behind)

/-- A graphic byte is none of the separators that the line formats use. -/
theorem isGraph_ne {byte : Byte} (graph : isGraph byte = true) :
    byte ≠ 0 ∧ byte ≠ 9 ∧ byte ≠ newline ∧ byte ≠ blank := by
  simp only [isGraph, Bool.and_eq_true, decide_eq_true_eq] at graph
  refine ⟨?_, ?_, ?_, ?_⟩ <;> (rintro rfl; revert graph; decide)

theorem isDigit_isGraph {byte : Byte} (digit : isDigit byte = true) :
    isGraph byte = true := by
  simp only [isDigit, isGraph, Bool.and_eq_true, decide_eq_true_eq] at digit ⊢
  constructor
  · exact UInt8.le_trans (show (33 : UInt8) ≤ 48 by decide) digit.1
  · exact UInt8.le_trans digit.2 (show (57 : UInt8) ≤ 126 by decide)

/-- A word: text of graphic bytes only, possibly empty. -/
def IsWord (text : Text) : Prop := ∀ byte ∈ text, isGraph byte = true

instance (text : Text) : Decidable (IsWord text) :=
  decidable_of_iff (text.all isGraph = true) List.all_eq_true

theorem IsWord.nul_notMem {text : Text} (word : IsWord text) : 0 ∉ text :=
  fun member => (isGraph_ne (word 0 member)).1 rfl

theorem IsWord.newline_notMem {text : Text} (word : IsWord text) : newline ∉ text :=
  fun member => (isGraph_ne (word newline member)).2.2.1 rfl

theorem IsWord.append {first second : Text} (firstWord : IsWord first)
    (secondWord : IsWord second) : IsWord (first ++ second) := by
  intro byte member
  rcases List.mem_append.mp member with inFirst | inSecond
  · exact firstWord byte inFirst
  · exact secondWord byte inSecond

end Libamg.C
