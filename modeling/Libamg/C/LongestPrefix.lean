import Mathlib.Data.List.Infix
import Mathlib.Data.List.Nodup

/-!
# The longest key that a text begins with

A table gives values to keys. `IsLongest` picks the entry whose key is the longest one that a
text begins with; `firstPrefix` goes through the table and stops at the first key that the
text begins with. Both find the same where no key is the beginning of a later one.
-/

namespace Libamg.C

variable {α β : Type} {table : List (List α × β)} {text : List α} {entry : List α × β}

/-- Of the keys that the text begins with, the key of the entry is the longest. -/
structure IsLongest (table : List (List α × β)) (text : List α) (entry : List α × β) : Prop where
  listed : entry ∈ table
  isPrefix : entry.1 <+: text
  longest : ∀ other ∈ table, other.1 <+: text → other.1.length ≤ entry.1.length

/-- Only what is in the table counts, not the order. -/
theorem IsLongest.of_mem_iff {other : List (List α × β)} (isLongest : IsLongest table text entry)
    (same : ∀ entry, entry ∈ other ↔ entry ∈ table) : IsLongest other text entry where
  listed := (same entry).mpr isLongest.listed
  isPrefix := isLongest.isPrefix
  longest := fun next listed => isLongest.longest next ((same next).mp listed)

/-- A key in front of a sign that is in no key is the longest one there. -/
theorem isLongest_append {stop : α} (listed : entry ∈ table)
    (absent : ∀ other ∈ table, stop ∉ other.1) (rest : List α) :
    IsLongest table (entry.1 ++ stop :: rest) entry where
  listed := listed
  isPrefix := List.prefix_append _ _
  longest := by
    intro other otherListed begins
    by_contra longer
    have length : (entry.1 ++ [stop]).length ≤ other.1.length := by
      rw [List.length_append, List.length_singleton]
      omega
    have behind : entry.1 ++ [stop] <+: entry.1 ++ stop :: rest :=
      ⟨rest, by rw [List.append_assoc, List.singleton_append]⟩
    have inside := (List.prefix_of_prefix_length_le behind begins length).subset
    apply absent other otherListed
    apply inside
    exact List.mem_append_right _ (List.mem_singleton_self stop)

/-- No key is the beginning of a later one. -/
def LongFirst (table : List (List α × β)) : Prop :=
  table.Pairwise fun earlier later => ¬ earlier.1 <+: later.1

instance [DecidableEq α] (table : List (List α × β)) : Decidable (LongFirst table) :=
  inferInstanceAs (Decidable (List.Pairwise _ _))

variable [DecidableEq α]

/-- The first entry whose key the text begins with. -/
def firstPrefix (table : List (List α × β)) (text : List α) : Option (List α × β) :=
  table.find? fun entry => entry.1 <+: text

theorem firstPrefix_cons (table : List (List α × β)) (text : List α) :
    firstPrefix (entry :: table) text =
      if entry.1 <+: text then some entry else firstPrefix table text := by
  rw [firstPrefix, List.find?_cons]
  by_cases begins : entry.1 <+: text
  · simp [begins]
  · simp [begins, firstPrefix]

theorem firstPrefix_eq_none_iff :
    firstPrefix table text = none ↔ ∀ entry ∈ table, ¬ entry.1 <+: text := by
  simp [firstPrefix]

/-- In a table with the long keys first the first match is the longest one. -/
theorem isLongest_of_firstPrefix (order : LongFirst table)
    (found : firstPrefix table text = some entry) : IsLongest table text entry := by
  obtain ⟨begins, front, back, rfl, others⟩ := List.find?_eq_some_iff_append.mp found
  have isPrefix : entry.1 <+: text := of_decide_eq_true begins
  refine ⟨List.mem_append_right _ List.mem_cons_self, isPrefix, ?_⟩
  intro other listed otherBegins
  rcases List.mem_append.mp listed with before | here
  · have passed := others other before
    simp [otherBegins] at passed
  · rcases List.mem_cons.mp here with rfl | behind
    · exact Nat.le_refl _
    · by_contra longer
      have apart := (List.pairwise_append.mp order).2.1
      apply (List.pairwise_cons.mp apart).1 other behind
      exact List.prefix_of_prefix_length_le isPrefix otherBegins (Nat.le_of_not_le longer)

/-- The walk finds a longest key, or there is none that the text begins with. -/
theorem firstPrefix_cases (order : LongFirst table) (text : List α) :
    (∃ entry, firstPrefix table text = some entry ∧ IsLongest table text entry) ∨
      firstPrefix table text = none ∧ ∀ entry ∈ table, ¬ entry.1 <+: text := by
  cases found : firstPrefix table text with
  | none => exact .inr ⟨rfl, firstPrefix_eq_none_iff.mp found⟩
  | some entry => exact .inl ⟨entry, rfl, isLongest_of_firstPrefix order found⟩

/-- The longest key is in one entry only. -/
theorem firstPrefix_eq_some_iff (order : LongFirst table) :
    firstPrefix table text = some entry ↔ IsLongest table text entry := by
  refine ⟨isLongest_of_firstPrefix order, fun isLongest => ?_⟩
  rcases firstPrefix_cases order text with ⟨other, found, otherLongest⟩ | ⟨_, none⟩
  · have below := isLongest.longest other otherLongest.listed otherLongest.isPrefix
    have above := otherLongest.longest entry isLongest.listed isLongest.isPrefix
    have inside := List.prefix_of_prefix_length_le otherLongest.isPrefix isLongest.isPrefix below
    have sameKey : other.1 = entry.1 := inside.eq_of_length (Nat.le_antisymm below above)
    have distinct : (table.map Prod.fst).Nodup := by
      apply List.pairwise_map.mpr
      apply order.imp
      intro first second notPrefix same
      exact notPrefix (same ▸ List.prefix_rfl)
    rw [found, List.inj_on_of_nodup_map distinct otherLongest.listed isLongest.listed sameKey]
  · exact absurd isLongest.isPrefix (none entry isLongest.listed)

/-- The value of the first key that the text begins with. -/
def firstValue (default : β) (table : List (List α × β)) (text : List α) : β :=
  ((firstPrefix table text).map Prod.snd).getD default

@[simp] theorem firstValue_nil (default : β) (text : List α) : firstValue default [] text = default :=
  rfl

@[simp] theorem firstValue_cons (default : β) (table : List (List α × β)) (text : List α) :
    firstValue default (entry :: table) text =
      if entry.1 <+: text then entry.2 else firstValue default table text := by
  rw [firstValue, firstPrefix_cons]
  split <;> rfl

theorem IsLongest.firstValue_eq (order : LongFirst table) (isLongest : IsLongest table text entry)
    (default : β) : firstValue default table text = entry.2 := by
  rw [firstValue, (firstPrefix_eq_some_iff order).mpr isLongest]
  rfl

theorem firstValue_of_none {default : β} (none : ∀ entry ∈ table, ¬ entry.1 <+: text) :
    firstValue default table text = default := by
  rw [firstValue, firstPrefix_eq_none_iff.mpr none]
  rfl

end Libamg.C
