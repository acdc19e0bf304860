import Libamg.C.Memory

/-!
# Searching memory

`strrchr`, `strstr` and the loops that look for one byte, as offsets into the text they
search. A search that finds no NUL to stop at leaves the array.
-/

namespace Libamg.C

/-- `strrchr`: the last occurrence of a byte. -/
def strrchr : Text → Byte → Option Nat
  | [], _ => none
  | byte :: rest, wanted =>
      match strrchr rest wanted with
      | some offset => some (offset + 1)
      | none => if byte = wanted then some 0 else none

section Last

variable {wanted : Byte} {front back text : Text}

theorem strrchr_eq_none_iff : strrchr text wanted = none ↔ wanted ∉ text := by
  induction text with
  | nil => exact iff_of_true rfl List.not_mem_nil
  | cons byte rest inductionHypothesis =>
      rw [strrchr, List.mem_cons, not_or, ← inductionHypothesis]
      cases strrchr rest wanted with
      | some offset => simp
      | none => simp [eq_comm]

theorem strrchr_append (front : Text) (found : strrchr back wanted ≠ none) :
    strrchr (front ++ back) wanted = (strrchr back wanted).map (front.length + ·) := by
  obtain ⟨offset, found⟩ := Option.ne_none_iff_exists'.mp found
  rw [found, Option.map_some]
  induction front with
  | nil => rw [List.nil_append, found, List.length_nil, Nat.zero_add]
  | cons byte rest inductionHypothesis =>
      rw [List.cons_append, strrchr, inductionHypothesis, List.length_cons]
      exact congrArg some (by omega)

/-- Nothing is found in front of the first occurrence. -/
theorem strrchr_append_of_notMem (absent : wanted ∉ front) :
    strrchr (front ++ back) wanted = (strrchr back wanted).map (front.length + ·) := by
  cases found : strrchr back wanted with
  | some offset =>
      have present : strrchr back wanted ≠ none := by
        rw [found]
        exact Option.some_ne_none offset
      rw [strrchr_append front present, found]
  | none =>
      induction front with
      | nil => exact found
      | cons byte rest inductionHypothesis =>
          rw [List.cons_append, strrchr, inductionHypothesis (List.not_mem_of_not_mem_cons absent)]
          exact if_neg (Ne.symm (List.ne_of_not_mem_cons absent))

/-- The occurrence behind which there is no other. -/
theorem strrchr_last (absent : wanted ∉ back) :
    strrchr (front ++ wanted :: back) wanted = some front.length := by
  have head : strrchr (wanted :: back) wanted = some 0 := by
    rw [strrchr, strrchr_eq_none_iff.mpr absent]
    exact if_pos rfl
  have present : strrchr (wanted :: back) wanted ≠ none := by
    rw [head]
    exact Option.some_ne_none 0
  rw [strrchr_append front present, head]
  rfl

theorem exists_of_strrchr {offset : Nat} (found : strrchr text wanted = some offset) :
    ∃ front back, text = front ++ wanted :: back ∧ front.length = offset ∧ wanted ∉ back := by
  induction text generalizing offset with
  | nil => cases found
  | cons byte rest inductionHypothesis =>
      rw [strrchr] at found
      cases later : strrchr rest wanted with
      | some inner =>
          simp only [later] at found
          obtain ⟨front, back, shape, length, absent⟩ := inductionHypothesis later
          refine ⟨byte :: front, back, by rw [shape, List.cons_append], ?_, absent⟩
          rw [List.length_cons, length]
          exact Option.some.inj found
      | none =>
          simp only [later] at found
          obtain ⟨same, zero⟩ := Option.ite_none_right_eq_some.mp found
          exact ⟨[], rest, by rw [same, List.nil_append], Option.some.inj zero,
            strrchr_eq_none_iff.mp later⟩

end Last

/-- `while (*s != stop) s++`, with the offset of `s` for the start of the memory. -/
def seek (stop : Byte) : Text → Nat → Checked Nat
  | [], _ => .error .outOfBounds
  | byte :: rest, s => if byte ≠ stop then seek stop rest (s + 1) else .ok s

section Seek

variable {stop : Byte} {front memory : Text}

theorem seek_eq (absent : stop ∉ front) (rest : Text) (s : Nat) :
    seek stop (front ++ stop :: rest) s = .ok (s + front.length) := by
  induction front generalizing s with
  | nil => exact if_neg (not_not_intro rfl)
  | cons byte front inductionHypothesis =>
      rw [List.cons_append, seek, if_pos (Ne.symm (List.ne_of_not_mem_cons absent)),
        inductionHypothesis (List.not_mem_of_not_mem_cons absent), List.length_cons]
      congr 1
      omega

/-- A search that ends has passed everything in front of what it looked for. -/
theorem exists_of_seek {s found : Nat} (returned : seek stop memory s = .ok found) :
    ∃ front rest, memory = front ++ stop :: rest ∧ stop ∉ front := by
  induction memory generalizing s with
  | nil => cases returned
  | cons byte memory inductionHypothesis =>
      by_cases other : byte ≠ stop
      · rw [seek, if_pos other] at returned
        obtain ⟨front, rest, shape, absent⟩ := inductionHypothesis returned
        refine ⟨byte :: front, rest, by rw [shape, List.cons_append], ?_⟩
        exact List.not_mem_cons_of_ne_of_not_mem (Ne.symm other) absent
      · rw [not_not] at other
        exact ⟨[], memory, by rw [other, List.nil_append], List.not_mem_nil⟩

end Seek

/-- `strstr` for a string that is not empty. -/
def strstr (needle : Text) : Text → Checked (Option Nat)
  | [] => .error .outOfBounds
  | byte :: rest =>
      if needle <+: byte :: rest then .ok (some 0)
      else if byte = 0 then .ok none
      else (strstr needle rest).map (Option.map (· + 1))

/-- The first place of a text where another one begins. -/
def FirstIn (needle memory : Text) (offset : Nat) : Prop :=
  needle <+: memory.drop offset ∧ ∀ earlier < offset, ¬ needle <+: memory.drop earlier

section Substring

variable {needle memory rest : Text} {byte : Byte} {offset : Nat}

theorem firstIn_zero (begins : needle <+: memory) : FirstIn needle memory offset ↔ offset = 0 := by
  constructor
  · intro first
    by_contra later
    exact first.2 0 (Nat.pos_of_ne_zero later) begins
  · rintro rfl
    exact ⟨begins, fun earlier impossible => absurd impossible (Nat.not_lt_zero earlier)⟩

theorem firstIn_cons (other : ¬ needle <+: byte :: rest) :
    FirstIn needle (byte :: rest) offset ↔ ∃ inner, FirstIn needle rest inner ∧ offset = inner + 1 := by
  constructor
  · rintro ⟨begins, first⟩
    cases offset with
    | zero => exact absurd begins other
    | succ inner =>
        refine ⟨inner, ⟨begins, fun earlier before => ?_⟩, rfl⟩
        exact first (earlier + 1) (Nat.succ_lt_succ before)
  · rintro ⟨inner, ⟨begins, first⟩, rfl⟩
    refine ⟨begins, fun earlier before => ?_⟩
    cases earlier with
    | zero => exact other
    | succ earlier => exact first earlier (Nat.lt_of_succ_lt_succ before)

/-- In memory without a NUL the search ends only at the first occurrence. -/
theorem strstr_eq_ok_iff (nonempty : needle ≠ []) (noNul : 0 ∉ memory) {found : Option Nat} :
    strstr needle memory = .ok found ↔ ∃ offset, found = some offset ∧ FirstIn needle memory offset := by
  induction memory generalizing found with
  | nil =>
      refine iff_of_false nofun ?_
      rintro ⟨offset, -, begins, -⟩
      rw [List.drop_nil, List.prefix_nil] at begins
      exact nonempty begins
  | cons byte rest inductionHypothesis =>
      have nonzero : byte ≠ 0 := Ne.symm (List.ne_of_not_mem_cons noNul)
      have inductionHypothesis := @inductionHypothesis (List.not_mem_of_not_mem_cons noNul)
      by_cases begins : needle <+: byte :: rest
      · rw [strstr, if_pos begins]
        simp only [firstIn_zero begins, exists_eq_right, Except.ok.injEq, eq_comm]
      · rw [strstr, if_neg begins, if_neg nonzero]
        simp only [firstIn_cons begins]
        cases inner : strstr needle rest with
        | error fault =>
            refine iff_of_false nofun ?_
            rintro ⟨offset, -, inside, first, -⟩
            rw [inductionHypothesis.mpr ⟨inside, rfl, first⟩] at inner
            cases inner
        | ok result =>
            obtain ⟨inside, rfl, first⟩ := inductionHypothesis.mp inner
            constructor
            · intro same
              cases same
              exact ⟨inside + 1, rfl, inside, first, rfl⟩
            · rintro ⟨offset, rfl, other, otherFirst, rfl⟩
              have same := inductionHypothesis.mpr ⟨other, rfl, otherFirst⟩
              rw [inner] at same
              cases same
              rfl

end Substring

end Libamg.C
