import Libamg.C.Bytes

/-!
# Sets of bits in a 32-bit word

`setBit` and `testBit` are the usual expressions with a shifted one. Two words are
equal when all their 32 bits are, and setting a list of bits adds exactly these.
-/

namespace Libamg.C

/-- `word & (1 << position)`. -/
def testBit (word : UInt32) (position : Nat) : Bool :=
  word &&& (1 <<< UInt32.ofNat position) ≠ 0

/-- `word | (1 << position)`. -/
def setBit (word : UInt32) (position : Nat) : UInt32 :=
  word ||| (1 <<< UInt32.ofNat position)

/-- Set several bits. -/
def setBits (word : UInt32) (positions : List Nat) : UInt32 := positions.foldl setBit word

theorem toBitVec_one_shiftLeft {position : Nat} (inside : position < 32) :
    ((1 : UInt32) <<< UInt32.ofNat position).toBitVec = BitVec.twoPow 32 position := by
  have all : ∀ position < 32,
      ((1 : UInt32) <<< UInt32.ofNat position).toBitVec = BitVec.twoPow 32 position := by decide
  exact all position inside

/-- Testing a bit reads it. -/
theorem testBit_eq_getLsbD (word : UInt32) {position : Nat} (inside : position < 32) :
    testBit word position = word.toBitVec.getLsbD position := by
  have nonzero : BitVec.twoPow 32 position ≠ 0#32 := by
    intro zero
    have selected := congrArg (fun bits => bits.getLsbD position) zero
    simp [inside] at selected
  have masked : (word &&& (1 <<< UInt32.ofNat position)).toBitVec =
      if word.toBitVec.getLsbD position then BitVec.twoPow 32 position else 0#32 := by
    rw [UInt32.toBitVec_and, toBitVec_one_shiftLeft inside, BitVec.and_twoPow]
  have test : word &&& (1 <<< UInt32.ofNat position) ≠ 0 ↔
      word.toBitVec.getLsbD position = true := by
    rw [ne_eq, ← UInt32.toBitVec_inj, masked]
    cases present : word.toBitVec.getLsbD position
    · simp
    · simpa using nonzero
  rw [Bool.eq_iff_iff, testBit, decide_eq_true_iff, test]

/-- Setting a bit adds it and keeps the others. -/
theorem testBit_setBit (word : UInt32) {position tested : Nat} (inside : position < 32)
    (testedInside : tested < 32) :
    testBit (setBit word position) tested = (testBit word tested || decide (tested = position)) := by
  rw [testBit_eq_getLsbD _ testedInside, testBit_eq_getLsbD _ testedInside, setBit,
    UInt32.toBitVec_or, toBitVec_one_shiftLeft inside, BitVec.getLsbD_or, BitVec.getLsbD_twoPow]
  simp [inside, eq_comm]

/-- Setting a list of bits adds these and keeps the others. -/
theorem testBit_setBits (word : UInt32) {positions : List Nat} {tested : Nat}
    (inside : ∀ position ∈ positions, position < 32) (testedInside : tested < 32) :
    testBit (setBits word positions) tested =
      (testBit word tested || decide (tested ∈ positions)) := by
  induction positions generalizing word with
  | nil => simp [setBits]
  | cons position positions inductionHypothesis =>
      have first := inside position List.mem_cons_self
      have rest := inductionHypothesis (setBit word position)
        fun other member => inside other (List.mem_cons_of_mem _ member)
      rw [setBits] at rest
      rw [setBits, List.foldl_cons, rest, testBit_setBit word first testedInside]
      simp [Bool.or_assoc]

/-- Words with the same bits are equal. -/
theorem eq_of_testBit_eq {first second : UInt32}
    (same : ∀ position < 32, testBit first position = testBit second position) :
    first = second := by
  apply UInt32.toBitVec_inj.mp
  apply BitVec.eq_of_getLsbD_eq
  intro position inside
  rw [← testBit_eq_getLsbD _ inside, ← testBit_eq_getLsbD _ inside, same position inside]

@[simp] theorem testBit_zero (position : Nat) : testBit 0 position = false := by
  simp [testBit]

/-- The bits of a word, lowest first. -/
def bitsOf (word : UInt32) : List Nat := (List.range 32).filter (testBit word)

theorem mem_bitsOf {word : UInt32} {position : Nat} :
    position ∈ bitsOf word ↔ position < 32 ∧ testBit word position = true := by
  rw [bitsOf, List.mem_filter, List.mem_range]

/-- The first bit listed is the lowest one. -/
theorem bitsOf_head_le {word : UInt32} {first position : Nat} {others : List Nat}
    (bits : bitsOf word = first :: others) (member : position ∈ bitsOf word) :
    first ≤ position := by
  have ascending : (bitsOf word).Pairwise (· < ·) := List.pairwise_lt_range.filter _
  rw [bits] at ascending member
  rcases List.mem_cons.mp member with rfl | later
  · exact Nat.le_refl _
  · exact Nat.le_of_lt (List.rel_of_pairwise_cons ascending later)

/-- Setting the bits of a word in an empty one gives it back. -/
theorem setBits_bitsOf (word : UInt32) : setBits 0 (bitsOf word) = word := by
  apply eq_of_testBit_eq
  intro position inside
  have inRange : ∀ other ∈ bitsOf word, other < 32 := fun other member => (mem_bitsOf.mp member).1
  rw [testBit_setBits 0 inRange inside, testBit_zero, Bool.false_or]
  simp [mem_bitsOf, inside]

end Libamg.C
