import Mathlib.Algebra.BigOperators.Group.List.Basic
import Mathlib.Data.Nat.ModEq

/-!
# One's complement sums

Words are numbers up to `ones`, the word whose bits are all set. `endAround` adds two of
them, with a carry out of the top added at the bottom. A sum with all its carries above the
word is brought back by `foldCarry`. Both keep the number modulo `ones` and tell zero from
the rest (`Folds`), and that determines a word.
-/

namespace Libamg.C

variable {ones total value : Nat}

/-- Addition with the carry brought round from the top to the bottom. -/
def endAround (ones first second : Nat) : Nat :=
  if first + second ≤ ones then first + second else first + second - (ones + 1) + 1

/-- The sum of words one after the other. -/
def endAroundSum (ones : Nat) (words : List Nat) : Nat := words.foldl (endAround ones) 0

/-- What is above the word is added to what is in it. -/
def foldCarry (ones total : Nat) : Nat := total / (ones + 1) + total % (ones + 1)

/-- The word that a sum comes to. -/
structure Folds (ones total value : Nat) : Prop where
  le : value ≤ ones
  modEq : value ≡ total [MOD ones]
  zero_iff : value = 0 ↔ total = 0

theorem Folds.zero (ones : Nat) : Folds ones 0 0 := ⟨Nat.zero_le ones, rfl, Iff.rfl⟩

/-- A sum comes to one word only: of two words that are equal modulo `ones` one would be
zero. -/
theorem Folds.unique {other : Nat} (folds : Folds ones total value)
    (otherFolds : Folds ones total other) : value = other := by
  have same : value % ones = other % ones := folds.modEq.trans otherFolds.modEq.symm
  have zeros : value = 0 ↔ other = 0 := folds.zero_iff.trans otherFolds.zero_iff.symm
  rcases Nat.lt_or_eq_of_le folds.le with less | rfl
  · rcases Nat.lt_or_eq_of_le otherFolds.le with otherLess | rfl
    · rwa [Nat.mod_eq_of_lt less, Nat.mod_eq_of_lt otherLess] at same
    · rw [Nat.mod_self, Nat.mod_eq_of_lt less] at same
      rw [same, zeros.mp same]
  · rcases Nat.lt_or_eq_of_le otherFolds.le with otherLess | rfl
    · rw [Nat.mod_self, Nat.mod_eq_of_lt otherLess] at same
      rw [← same, zeros.mpr same.symm]
    · rfl

/-! ## Adding words -/

theorem Folds.endAround {word : Nat} (folds : Folds ones total value) (fits : word ≤ ones) :
    Folds ones (total + word) (endAround ones value word) := by
  have le := folds.le
  have zero := folds.zero_iff
  have congruent : value + word ≡ total + word [MOD ones] := folds.modEq.add_right word
  rw [C.endAround]
  split
  · exact ⟨‹_›, congruent, by omega⟩
  · have shape : value + word - (ones + 1) + 1 + ones = value + word := by omega
    refine ⟨by omega, ?_, by omega⟩
    have around : value + word - (ones + 1) + 1 + ones ≡ value + word - (ones + 1) + 1 [MOD ones] :=
      Nat.add_modEq_right
    rw [shape] at around
    exact around.symm.trans congruent

theorem folds_foldl {words : List Nat} (fits : ∀ word ∈ words, word ≤ ones)
    (folds : Folds ones total value) :
    Folds ones (total + words.sum) (words.foldl (endAround ones) value) := by
  induction words generalizing total value with
  | nil => exact folds
  | cons word words inductionHypothesis =>
      obtain ⟨first, others⟩ := List.forall_mem_cons.mp fits
      rw [List.sum_cons, ← Nat.add_assoc]
      exact inductionHypothesis others (folds.endAround first)

theorem folds_endAroundSum {words : List Nat} (fits : ∀ word ∈ words, word ≤ ones) :
    Folds ones words.sum (endAroundSum ones words) := by
  have folds := folds_foldl fits (.zero ones)
  rwa [Nat.zero_add] at folds

/-- With the complement of its word added a sum comes to a word of ones. -/
theorem Folds.add_complement (folds : Folds ones total value) (positive : 0 < ones) :
    Folds ones (total + (ones - value)) ones := by
  have le := folds.le
  have zero := folds.zero_iff
  refine ⟨Nat.le_refl ones, ?_, by omega⟩
  have added : value + (ones - value) ≡ total + (ones - value) [MOD ones] :=
    folds.modEq.add_right _
  rwa [Nat.add_sub_cancel' le] at added

/-! ## Folding carries -/

theorem foldCarry_modEq (ones total : Nat) : foldCarry ones total ≡ total [MOD ones] := by
  have carry : total / (ones + 1) ≡ (ones + 1) * (total / (ones + 1)) [MOD ones] := by
    rw [Nat.succ_mul]
    exact Nat.right_modEq_add_iff.mpr (Nat.dvd_mul_right ones _)
  have parts := carry.add_right (total % (ones + 1))
  rwa [Nat.div_add_mod] at parts

theorem foldCarry_eq_zero_iff (ones total : Nat) : foldCarry ones total = 0 ↔ total = 0 := by
  have parts := Nat.div_add_mod total (ones + 1)
  rw [foldCarry, Nat.add_eq_zero_iff]
  constructor
  · rintro ⟨carry, rest⟩
    rw [carry, rest, Nat.mul_zero] at parts
    exact parts.symm
  · rintro rfl
    exact ⟨Nat.zero_div _, Nat.zero_mod _⟩

/-- What is left of a sum of two words is a word. -/
theorem foldCarry_eq (fits : total ≤ 2 * ones) :
    foldCarry ones total = if total ≤ ones then total else total - ones := by
  rw [foldCarry]
  split
  · have small : total < ones + 1 := by omega
    rw [Nat.div_eq_of_lt small, Nat.mod_eq_of_lt small, Nat.zero_add]
  · have one : total / (ones + 1) = 1 := Nat.div_eq_of_lt_le (by omega) (by omega)
    have rest : total % (ones + 1) = total - (ones + 1) := by
      rw [Nat.mod_eq_sub_mod (by omega), Nat.mod_eq_of_lt (by omega)]
    rw [one, rest]
    omega

/-- The same without taking the carry off, as far as the word goes. -/
theorem add_carry_mod (fits : total ≤ 2 * ones) :
    (total + total / (ones + 1)) % (ones + 1) = foldCarry ones total := by
  rw [foldCarry_eq fits]
  split
  · have small : total < ones + 1 := by omega
    rw [Nat.div_eq_of_lt small, Nat.add_zero, Nat.mod_eq_of_lt small]
  · have one : total / (ones + 1) = 1 := Nat.div_eq_of_lt_le (by omega) (by omega)
    rw [one, Nat.mod_eq_sub_mod (by omega), Nat.mod_eq_of_lt (by omega)]
    omega

/-- A sum whose carries fit a word comes to at most two words when it is folded once. -/
theorem foldCarry_le (fits : total < (ones + 1) * (ones + 1)) : foldCarry ones total ≤ 2 * ones := by
  have carry : total / (ones + 1) < ones + 1 := Nat.div_lt_of_lt_mul fits
  have rest : total % (ones + 1) < ones + 1 := Nat.mod_lt _ (Nat.succ_pos ones)
  rw [foldCarry]
  omega

/-- Two folds bring such a sum to its word. -/
theorem folds_foldCarry_twice (fits : total < (ones + 1) * (ones + 1)) :
    Folds ones total (foldCarry ones (foldCarry ones total)) where
  le := by
    have once := foldCarry_le fits
    rw [foldCarry_eq once]
    split
    · exact ‹_›
    · omega
  modEq := (foldCarry_modEq ones _).trans (foldCarry_modEq ones total)
  zero_iff := (foldCarry_eq_zero_iff ones _).trans (foldCarry_eq_zero_iff ones total)

end Libamg.C
