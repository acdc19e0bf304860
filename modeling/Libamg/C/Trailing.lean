import Mathlib.Data.List.DropRight

/-!
# What is left in front of a tail

`List.rdropWhile` drops the last items of a kind. It is the longest prefix that does not end
in an item of the kind.
-/

namespace Libamg.C

variable {α : Type} {p : α → Bool} {text kept : List α}

/-- The last item, if there is one, is not of the kind. -/
def EndsFree (p : α → Bool) (text : List α) : Prop := ∀ item ∈ text.getLast?, p item = false

instance (p : α → Bool) (text : List α) : Decidable (EndsFree p text) :=
  Option.decidableForallMem _

/-- Of the prefixes that do not end in an item of the kind, the longest. -/
structure IsLongestFree (p : α → Bool) (text kept : List α) : Prop where
  isPrefix : kept <+: text
  endsFree : EndsFree p kept
  longest : ∀ other, other <+: text → EndsFree p other → other.length ≤ kept.length

theorem rdropWhile_of_endsFree (free : EndsFree p text) : text.rdropWhile p = text := by
  rw [List.rdropWhile_eq_self_iff]
  intro nonempty
  rw [free _ (List.getLast?_eq_some_getLast nonempty)]
  exact Bool.false_ne_true

theorem endsFree_rdropWhile (p : α → Bool) (text : List α) : EndsFree p (text.rdropWhile p) := by
  intro item last
  obtain ⟨nonempty, rfl⟩ := List.mem_getLast?_eq_getLast last
  exact (Bool.not_eq_true _).mp (List.rdropWhile_last_not p text nonempty)

theorem length_rdropWhile_lt (ends : ¬ EndsFree p text) :
    (text.rdropWhile p).length < text.length := by
  apply Nat.lt_of_not_le
  intro atLeast
  have same : text.rdropWhile p = text := (List.rdropWhile_prefix p text).eq_of_length_le atLeast
  apply ends
  rw [← same]
  exact endsFree_rdropWhile p text

/-- What is dropped are items of the kind, and what is kept does not end in one. -/
theorem rdropWhile_eq_iff : text.rdropWhile p = kept ↔
    ∃ back, text = kept ++ back ∧ (∀ item ∈ back, p item = true) ∧ EndsFree p kept := by
  constructor
  · rintro rfl
    exact ⟨text.rtakeWhile p, List.rdropWhile_append_rtakeWhile.symm,
      fun _ => List.mem_rtakeWhile_imp, endsFree_rdropWhile p text⟩
  · rintro ⟨back, rfl, allOfKind, free⟩
    induction back using List.reverseRecOn with
    | nil => rw [List.append_nil, rdropWhile_of_endsFree free]
    | append_singleton back item inductionHypothesis =>
        have last : p item = true := allOfKind item (List.mem_append_right back (.head _))
        rw [← List.append_assoc, List.rdropWhile_concat_pos p _ item last]
        exact inductionHypothesis fun other member =>
          allOfKind other (List.mem_append_left [item] member)

theorem rdropWhile_eq_self_iff_endsFree : text.rdropWhile p = text ↔ EndsFree p text := by
  constructor
  · intro same
    rw [← same]
    exact endsFree_rdropWhile p text
  · exact rdropWhile_of_endsFree

/-- A prefix of the front is what is left of the whole if all behind the front is dropped, and
the prefix is what is left of the front. -/
theorem rdropWhile_append_eq_iff {front back : List α} (isPrefix : kept <+: front) :
    (front ++ back).rdropWhile p = kept ↔
      (∀ item ∈ back, p item = true) ∧ front.rdropWhile p = kept := by
  obtain ⟨middle, rfl⟩ := isPrefix
  rw [rdropWhile_eq_iff, rdropWhile_eq_iff]
  constructor
  · rintro ⟨dropped, shape, allOfKind, free⟩
    rw [List.append_assoc, List.append_cancel_left_eq] at shape
    rw [← shape] at allOfKind
    refine ⟨fun item member => allOfKind item (List.mem_append_right middle member), middle, rfl, ?_,
      free⟩
    exact fun item member => allOfKind item (List.mem_append_left back member)
  · rintro ⟨behind, dropped, shape, allOfKind, free⟩
    rw [List.append_cancel_left_eq] at shape
    refine ⟨middle ++ back, List.append_assoc kept middle back, ?_, free⟩
    intro item member
    rcases List.mem_append.mp member with inMiddle | inBack
    · exact allOfKind item (shape ▸ inMiddle)
    · exact behind item inBack

theorem length_le_rdropWhile {other : List α} (isPrefix : other <+: text)
    (free : EndsFree p other) : other.length ≤ (text.rdropWhile p).length := by
  induction text using List.reverseRecOn with
  | nil => exact isPrefix.length_le
  | append_singleton front item inductionHypothesis =>
      by_cases ofKind : p item = true
      · rw [List.rdropWhile_concat_pos p front item ofKind]
        rcases List.prefix_concat_iff.mp isPrefix with rfl | shorter
        · have notOfKind : p item = false := free item List.getLast?_concat
          rw [ofKind] at notOfKind
          cases notOfKind
        · exact inductionHypothesis shorter
      · rw [List.rdropWhile_concat_neg p front item ofKind]
        exact isPrefix.length_le

theorem isLongestFree_rdropWhile (p : α → Bool) (text : List α) :
    IsLongestFree p text (text.rdropWhile p) where
  isPrefix := List.rdropWhile_prefix p text
  endsFree := endsFree_rdropWhile p text
  longest _ := length_le_rdropWhile

/-- There is one such prefix. -/
theorem isLongestFree_iff : IsLongestFree p text kept ↔ kept = text.rdropWhile p := by
  constructor
  · intro longest
    have same : kept.length = (text.rdropWhile p).length := by
      apply Nat.le_antisymm
      · exact length_le_rdropWhile longest.isPrefix longest.endsFree
      · exact longest.longest _ (List.rdropWhile_prefix p text) (endsFree_rdropWhile p text)
    rw [List.prefix_iff_eq_take.mp longest.isPrefix, same,
      ← List.prefix_iff_eq_take.mp (List.rdropWhile_prefix p text)]
  · rintro rfl
    exact isLongestFree_rdropWhile p text

end Libamg.C
