import Libamg.C.Tokens

/-!
# Lines of columns

Words with runs of blanks behind them, as conversions with a field width print them.
`tokens_columns` reads the words back, and `infix_columns` says where a text without
blanks can occur in such a line.
-/

namespace Libamg.C

/-- The bytes that end a `%s` of `sscanf`. -/
def whitespace : Text := [9, 10, 11, 12, 13, 32]

/-- A conversion like `%-16s`: blanks up to a width. -/
def padRight (width : Nat) (text : Text) : Text :=
  text ++ List.replicate (width - text.length) blank

/-- Words, each with a blank and a gap of more blanks behind it, and a last word. -/
def columns : List (Text × Nat) → Text → Text
  | [], last => last
  | (word, gap) :: rest, last => word ++ blank :: (List.replicate gap blank ++ columns rest last)

/-- Blanks in front of a text can be moved behind one of them. -/
theorem replicate_append_blank (count : Nat) (rest : Text) :
    List.replicate count blank ++ blank :: rest = blank :: (List.replicate count blank ++ rest) := by
  rw [← List.cons_append, ← List.replicate_succ, List.replicate_succ', List.append_assoc,
    List.singleton_append]

/-! ## Occurrences -/

/-- A text without the separator begins no text that begins with the separator. -/
theorem eq_nil_of_prefix_separator {separator : Byte} {text after : Text}
    (absent : separator ∉ text) (begins : text <+: separator :: after) : text = [] := by
  rcases List.prefix_cons_iff.mp begins with empty | ⟨rest, rfl, -⟩
  · exact empty
  · exact absurd List.mem_cons_self absent

/-- A text without the separator occurs on one side of it. -/
theorem infix_separator {separator : Byte} {text before after : Text} (absent : separator ∉ text) :
    text <:+: before ++ separator :: after ↔ text <:+: before ∨ text <:+: after := by
  constructor
  · intro occurs
    rcases List.infix_append_iff.mp occurs with inside | behind | ⟨first, second, rfl, ends, begins⟩
    · exact .inl inside
    · rcases List.infix_cons_iff.mp behind with begins | inside
      · rw [eq_nil_of_prefix_separator absent begins]
        exact .inl List.nil_infix
      · exact .inr inside
    · have secondAbsent : separator ∉ second := fun member =>
        absent (List.mem_append_right _ member)
      rw [eq_nil_of_prefix_separator secondAbsent begins, List.append_nil]
      exact .inl ends.isInfix
  · rintro (inside | behind)
    · exact List.infix_append_of_infix_left inside
    · exact List.infix_append_of_infix_right (List.infix_cons behind)

theorem infix_gap {text : Text} (absent : blank ∉ text) (nonempty : text ≠ []) (gap : Nat)
    (rest : Text) : text <:+: List.replicate gap blank ++ rest ↔ text <:+: rest := by
  induction gap with
  | zero => exact Iff.rfl
  | succ gap inductionHypothesis =>
      have skipped := @infix_separator blank text [] (List.replicate gap blank ++ rest) absent
      rw [List.replicate_succ, List.cons_append, ← inductionHypothesis]
      refine skipped.trans (or_iff_right fun inside => ?_)
      exact nonempty (List.infix_nil.mp inside)

/-- A text without blanks occurs in a line of columns if it occurs in one of the words. -/
theorem infix_columns {text : Text} (absent : blank ∉ text) (nonempty : text ≠ [])
    (words : List (Text × Nat)) (last : Text) :
    text <:+: columns words last ↔ (∃ word ∈ words, text <:+: word.1) ∨ text <:+: last := by
  induction words with
  | nil => simp [columns]
  | cons word words inductionHypothesis =>
      rw [columns, infix_separator absent, infix_gap absent nonempty, inductionHypothesis]
      simp only [List.mem_cons, exists_eq_or_imp, or_assoc]

/-! ## Words -/

theorem tokens_skip {delimiters : Text} {byte : Byte} (delimiter : byte ∈ delimiters) (rest : Text) :
    tokens delimiters (byte :: rest) = tokens delimiters rest := by
  have same : strtok delimiters (byte :: rest) = strtok delimiters rest := by
    simp [strtok, delimiter]
  cases found : strtok delimiters rest with
  | none => rw [tokens_eq_nil found, tokens_eq_nil (same.trans found)]
  | some parts => rw [tokens_eq_cons found, tokens_eq_cons (same.trans found)]

theorem tokens_skip_append {delimiters spaces : Text} (all : ∀ byte ∈ spaces, byte ∈ delimiters)
    (rest : Text) : tokens delimiters (spaces ++ rest) = tokens delimiters rest := by
  induction spaces with
  | nil => rfl
  | cons byte spaces inductionHypothesis =>
      obtain ⟨delimiter, others⟩ := List.forall_mem_cons.mp all
      rw [List.cons_append, tokens_skip delimiter, inductionHypothesis others]

/-- A non-empty text that `%s` reads as a whole. -/
def IsField (text : Text) : Prop := text ≠ [] ∧ ∀ byte ∈ text, byte ∉ whitespace

theorem IsField.of_isWord {text : Text} (word : IsWord text) (nonempty : text ≠ []) :
    IsField text := by
  have noneGraphic : whitespace.any isGraph = false := by decide
  refine ⟨nonempty, fun byte member space => ?_⟩
  exact List.any_eq_false.mp noneGraphic byte space (word byte member)

theorem padRight_length (width : Nat) (text : Text) :
    (padRight width text).length = max width text.length := by
  rw [padRight, List.length_append, List.length_replicate]
  omega

/-- The bytes of a line of columns. -/
theorem mem_columns {byte : Byte} {words : List (Text × Nat)} {last : Text}
    (member : byte ∈ columns words last) :
    byte = blank ∨ (∃ word ∈ words, byte ∈ word.1) ∨ byte ∈ last := by
  induction words with
  | nil => exact .inr (.inr member)
  | cons word words inductionHypothesis =>
      rw [columns, List.mem_append, List.mem_cons, List.mem_append] at member
      rcases member with inWord | isBlank | inGap | inRest
      · exact .inr (.inl ⟨word, List.mem_cons_self, inWord⟩)
      · exact .inl isBlank
      · exact .inl (List.eq_of_mem_replicate inGap)
      · rcases inductionHypothesis inRest with isBlank | ⟨other, listed, inOther⟩ | inLast
        · exact .inl isBlank
        · exact .inr (.inl ⟨other, List.mem_cons_of_mem _ listed, inOther⟩)
        · exact .inr (.inr inLast)

/-- The words of a line of columns are read back. -/
theorem tokens_columns {words : List (Text × Nat)} {last : Text} {stop : Byte}
    (fields : ∀ word ∈ words, IsField word.1) (lastField : IsField last)
    (ends : stop ∈ whitespace) :
    tokens whitespace (columns words last ++ [stop]) = words.map Prod.fst ++ [last] := by
  have blanks : ∀ gap, ∀ byte ∈ List.replicate gap blank, byte ∈ whitespace := by
    intro gap byte member
    rw [List.eq_of_mem_replicate member]
    decide
  induction words with
  | nil =>
      rw [columns, tokens_eq_cons (strtok_append [] lastField.1 lastField.2 ends),
        tokens_eq_nil (strtok_nil _)]
      rfl
  | cons word words inductionHypothesis =>
      obtain ⟨field, others⟩ := List.forall_mem_cons.mp fields
      have blankEnds : blank ∈ whitespace := by decide
      have cut := strtok_append (List.replicate word.2 blank ++ (columns words last ++ [stop]))
        field.1 field.2 blankEnds
      rw [columns, List.append_assoc, List.cons_append, List.append_assoc, tokens_eq_cons cut,
        tokens_skip_append (blanks word.2), inductionHypothesis others]
      rfl

end Libamg.C
