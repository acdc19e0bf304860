import Libamg.C.Tokens
import Mathlib.Data.List.TakeDrop

/-!
# Lines and the pieces they are read in

`splitLines` cuts a text behind its newlines. An `fgets` loop cuts longer lines further:
`Tiles` describes the buffers it may fill, and a text is tiled in one way only
(`fgetsLines_flatten`). So a byte of a tile can be overwritten without moving the others
(`Tiles.set_head`), and a text is read line by line (`fgetsLines_eq_flatMap`).
-/

namespace Libamg.C

/-- The lines of a text, each with the newline that ends it. -/
def splitLines : Text → List Text
  | [] => []
  | byte :: rest =>
      if byte = newline then [byte] :: splitLines rest
      else
        match splitLines rest with
        | [] => [[byte]]
        | line :: lines => (byte :: line) :: lines

/-- Buffers of at most `capacity` bytes that a reader of lines fills one after the other. -/
inductive Tiles (capacity : Nat) : List Text → Prop where
  | nil : Tiles capacity []
  | last {tile : Text} (nonempty : tile ≠ []) (noNewline : newline ∉ tile)
      (fits : tile.length ≤ capacity) : Tiles capacity [tile]
  | line {body : Text} {tiles : List Text} (noNewline : newline ∉ body)
      (fits : body.length < capacity) (others : Tiles capacity tiles) :
      Tiles capacity ((body ++ [newline]) :: tiles)
  | full {tile : Text} {tiles : List Text} (noNewline : newline ∉ tile)
      (fills : tile.length = capacity) (others : Tiles capacity tiles) :
      Tiles capacity (tile :: tiles)

/-! ## Reading -/

/-- Bytes that fill the buffer are handed over. -/
theorem fgetsLoop_full {capacity room : Nat} {line tile : Text} (rest : Text)
    (noNewline : newline ∉ tile) (fills : tile.length = room) (positive : 0 < room) :
    fgetsLoop capacity room line (tile ++ rest) =
      (line ++ tile) :: fgetsLoop capacity capacity [] rest := by
  induction tile generalizing room line with
  | nil =>
      rw [← fills] at positive
      exact absurd positive (Nat.lt_irrefl 0)
  | cons byte tile inductionHypothesis =>
      obtain ⟨different, others⟩ := List.ne_and_not_mem_of_not_mem_cons noNewline
      rw [List.length_cons] at fills
      rw [List.cons_append, fgetsLoop]
      by_cases empty : tile = []
      · have last : room ≤ 1 := by
          rw [← fills, empty]
          exact Nat.le_refl 1
        rw [if_pos (.inr last), empty, List.nil_append]
      · have more := List.length_pos_iff.mpr empty
        have goesOn : ¬ (byte = newline ∨ room ≤ 1) := by
          rintro (isNewline | last)
          · exact different isNewline.symm
          · omega
        rw [if_neg goesOn, inductionHypothesis others (by omega) (by omega), List.append_assoc,
          List.singleton_append]

/-- The last bytes of a file are handed over without a newline. -/
theorem fgetsLoop_last {capacity room : Nat} {line tile : Text} (nonempty : line ++ tile ≠ [])
    (noNewline : newline ∉ tile) (fits : tile.length ≤ room) :
    fgetsLoop capacity room line tile = [line ++ tile] := by
  induction tile generalizing room line with
  | nil =>
      rw [List.append_nil] at nonempty ⊢
      exact if_neg nonempty
  | cons byte tile inductionHypothesis =>
      obtain ⟨different, others⟩ := List.ne_and_not_mem_of_not_mem_cons noNewline
      rw [List.length_cons] at fits
      rw [fgetsLoop]
      split
      · rename_i ends
        have last : room ≤ 1 := ends.resolve_left fun isNewline => different isNewline.symm
        obtain rfl : tile = [] := List.eq_nil_of_length_eq_zero (by omega)
        rfl
      · rw [inductionHypothesis (by simp) others (by omega), List.append_assoc,
          List.singleton_append]

/-- A reader fills the tiles of a tiled text. -/
theorem fgetsLines_flatten {capacity : Nat} (positive : 0 < capacity) {tiles : List Text}
    (tiled : Tiles capacity tiles) : fgetsLines (capacity + 1) tiles.flatten = tiles := by
  unfold fgetsLines
  rw [Nat.add_sub_cancel]
  induction tiled with
  | nil => rfl
  | last nonempty noNewline fits =>
      rw [List.flatten_singleton]
      exact fgetsLoop_last nonempty noNewline fits
  | @line body tiles noNewline fits _ inductionHypothesis =>
      rw [List.flatten_cons, List.append_assoc, List.singleton_append,
        fgetsLoop_line _ noNewline fits, inductionHypothesis, List.nil_append]
  | @full tile tiles noNewline fills _ inductionHypothesis =>
      rw [List.flatten_cons, fgetsLoop_full _ noNewline fills positive, inductionHypothesis,
        List.nil_append]

theorem tiles_fgetsLoop {capacity room : Nat} {line : Text} (text : Text)
    (noNewline : newline ∉ line) (left : line.length + room = capacity) (positive : 0 < room) :
    Tiles capacity (fgetsLoop capacity room line text) ∧
      (fgetsLoop capacity room line text).flatten = line ++ text := by
  induction text generalizing room line with
  | nil =>
      rw [fgetsLoop, List.append_nil]
      split
      · rename_i empty
        exact ⟨.nil, empty.symm⟩
      · rename_i nonempty
        exact ⟨.last nonempty noNewline (by omega), List.flatten_singleton⟩
  | cons byte text inductionHypothesis =>
      rw [fgetsLoop]
      split
      · rename_i ends
        obtain ⟨others, whole⟩ :=
          @inductionHypothesis capacity [] List.not_mem_nil (Nat.zero_add capacity) (by omega)
        refine ⟨?_, by rw [List.flatten_cons, whole, List.append_assoc]; rfl⟩
        by_cases isNewline : byte = newline
        · rw [isNewline]
          exact .line noNewline (by omega) others
        · refine .full ?_ ?_ others
          · simpa [noNewline] using fun same => isNewline same.symm
          · have last := ends.resolve_left isNewline
            rw [List.length_append, List.length_singleton]
            omega
      · rename_i goesOn
        obtain ⟨notNewline, more⟩ := not_or.mp goesOn
        have clean : newline ∉ line ++ [byte] := by
          simpa [noNewline] using fun same => notNewline same.symm
        have room : (line ++ [byte]).length + (room - 1) = capacity := by
          rw [List.length_append, List.length_singleton]
          omega
        rw [List.append_cons line byte text]
        exact inductionHypothesis clean room (by omega)

theorem tiles_fgetsLines {capacity : Nat} (positive : 0 < capacity) (text : Text) :
    Tiles capacity (fgetsLines (capacity + 1) text) := by
  unfold fgetsLines
  rw [Nat.add_sub_cancel]
  exact (tiles_fgetsLoop text List.not_mem_nil (Nat.zero_add capacity) positive).1

theorem flatten_fgetsLines {capacity : Nat} (positive : 0 < capacity) (text : Text) :
    (fgetsLines (capacity + 1) text).flatten = text := by
  unfold fgetsLines
  rw [Nat.add_sub_cancel]
  exact (tiles_fgetsLoop text List.not_mem_nil (Nat.zero_add capacity) positive).2

theorem Tiles.length_le {capacity : Nat} {tiles : List Text} {tile : Text}
    (tiled : Tiles capacity tiles) (listed : tile ∈ tiles) : tile.length ≤ capacity := by
  induction tiled with
  | nil => cases listed
  | last _ _ fits =>
      rw [List.mem_singleton.mp listed]
      exact fits
  | line _ fits _ inductionHypothesis =>
      rcases List.mem_cons.mp listed with rfl | inOthers
      · rw [List.length_append, List.length_singleton]
        exact fits
      · exact inductionHypothesis inOthers
  | full _ fills _ inductionHypothesis =>
      rcases List.mem_cons.mp listed with rfl | inOthers
      · exact Nat.le_of_eq fills
      · exact inductionHypothesis inOthers

theorem Tiles.ne_nil {capacity : Nat} (positive : 0 < capacity) {tiles : List Text} {tile : Text}
    (tiled : Tiles capacity tiles) (listed : tile ∈ tiles) : tile ≠ [] := by
  induction tiled with
  | nil => cases listed
  | last nonempty =>
      rw [List.mem_singleton.mp listed]
      exact nonempty
  | line _ _ _ inductionHypothesis =>
      rcases List.mem_cons.mp listed with rfl | inOthers
      · exact List.append_ne_nil_of_right_ne_nil _ (List.cons_ne_nil newline [])
      · exact inductionHypothesis inOthers
  | full _ fills _ inductionHypothesis =>
      rcases List.mem_cons.mp listed with rfl | inOthers
      · exact List.ne_nil_of_length_pos (fills ▸ positive)
      · exact inductionHypothesis inOthers

/-- A newline ends its tile. -/
theorem Tiles.eq_nil_of_newline {capacity : Nat} {tiles : List Text} {rest : Text}
    (tiled : Tiles capacity tiles) (listed : (newline :: rest) ∈ tiles) : rest = [] := by
  induction tiled with
  | nil => cases listed
  | last _ noNewline =>
      rw [← List.mem_singleton.mp listed] at noNewline
      exact absurd List.mem_cons_self noNewline
  | @line body _ noNewline _ _ inductionHypothesis =>
      rcases List.mem_cons.mp listed with same | inOthers
      · cases body with
        | nil => exact (List.cons.inj same).2
        | cons first body =>
            rw [List.cons_append] at same
            rw [← (List.cons.inj same).1] at noNewline
            exact absurd List.mem_cons_self noNewline
      · exact inductionHypothesis inOthers
  | full noNewline _ _ inductionHypothesis =>
      rcases List.mem_cons.mp listed with same | inOthers
      · rw [← same] at noNewline
        exact absurd List.mem_cons_self noNewline
      · exact inductionHypothesis inOthers

/-- Overwriting the first byte of a tile, newlines apart, leaves the tiles where they are. -/
theorem Tiles.set_head {capacity : Nat} {before after : List Text} {byte mark : Byte} {rest : Text}
    (tiled : Tiles capacity (before ++ (byte :: rest) :: after)) (old : byte ≠ newline)
    (new : mark ≠ newline) : Tiles capacity (before ++ (mark :: rest) :: after) := by
  have clean {tail : Text} (noNewline : newline ∉ byte :: tail) : newline ∉ mark :: tail :=
    List.not_mem_cons_of_ne_of_not_mem (Ne.symm new) (List.not_mem_of_not_mem_cons noNewline)
  induction before with
  | nil =>
      rw [List.nil_append] at tiled ⊢
      generalize shape : byte :: rest = tile at tiled
      cases tiled with
      | last nonempty noNewline fits =>
          cases shape
          exact .last (List.cons_ne_nil _ _) (clean noNewline) fits
      | @line body _ noNewline fits others =>
          cases body with
          | nil =>
              cases shape
              exact absurd rfl old
          | cons first body =>
              cases shape
              exact .line (clean noNewline) fits others
      | full noNewline fills others =>
          cases shape
          exact .full (clean noNewline) fills others
  | cons tile before inductionHypothesis =>
      rw [List.cons_append] at tiled ⊢
      generalize shape : before ++ (byte :: rest) :: after = tiles at tiled
      cases tiled with
      | last =>
          have impossible := congrArg List.length shape
          simp at impossible
      | line noNewline fits others =>
          exact .line noNewline fits (inductionHypothesis (shape ▸ others))
      | full noNewline fills others =>
          exact .full noNewline fills (inductionHypothesis (shape ▸ others))

/-! ## Lines -/

/-- A text cut behind its newlines: only the last line may lack one. -/
inductive Lined : List Text → Prop where
  | nil : Lined []
  | last {line : Text} (nonempty : line ≠ []) (noNewline : newline ∉ line) : Lined [line]
  | line {body : Text} {lines : List Text} (noNewline : newline ∉ body) (others : Lined lines) :
      Lined ((body ++ [newline]) :: lines)

theorem lined_splitLines (text : Text) : Lined (splitLines text) := by
  induction text with
  | nil => exact .nil
  | cons byte text inductionHypothesis =>
      rw [splitLines]
      split
      · rename_i isNewline
        rw [isNewline]
        exact .line List.not_mem_nil inductionHypothesis
      · rename_i different
        have front {line : Text} (noNewline : newline ∉ line) : newline ∉ byte :: line :=
          List.not_mem_cons_of_ne_of_not_mem (fun same => different same.symm) noNewline
        revert inductionHypothesis
        generalize splitLines text = lines
        intro inductionHypothesis
        cases inductionHypothesis with
        | nil => exact .last (List.cons_ne_nil _ _) (front List.not_mem_nil)
        | last nonempty noNewline => exact .last (List.cons_ne_nil _ _) (front noNewline)
        | line noNewline others => exact .line (front noNewline) others

theorem flatten_splitLines (text : Text) : (splitLines text).flatten = text := by
  induction text with
  | nil => rfl
  | cons byte text inductionHypothesis =>
      rw [splitLines]
      split
      · rw [List.flatten_cons, inductionHypothesis]
        rfl
      · cases lines : splitLines text with
        | nil =>
            rw [lines] at inductionHypothesis
            rw [← inductionHypothesis]
            rfl
        | cons line others =>
            rw [lines] at inductionHypothesis
            rw [← inductionHypothesis]
            rfl

namespace Lined

variable {lines : List Text}

/-- Lines that fit the buffer are tiles. -/
theorem tiles {capacity : Nat} (lined : Lined lines) (short : ∀ line ∈ lines, line.length ≤ capacity) :
    Tiles capacity lines := by
  induction lined with
  | nil => exact .nil
  | last nonempty noNewline => exact .last nonempty noNewline (short _ List.mem_cons_self)
  | @line body lines noNewline _ inductionHypothesis =>
      obtain ⟨first, others⟩ := List.forall_mem_cons.mp short
      rw [List.length_append, List.length_singleton] at first
      exact .line noNewline first (inductionHypothesis others)

/-- A line is bytes without a newline, and the newline that ends it if there is one. -/
theorem shape (lined : Lined lines) {line : Text} (listed : line ∈ lines) :
    ∃ body, newline ∉ body ∧ (line = body ++ [newline] ∨ line = body ∧ line ≠ []) := by
  induction lined with
  | nil => cases listed
  | last nonempty noNewline =>
      cases List.mem_singleton.mp listed
      exact ⟨line, noNewline, .inr ⟨rfl, nonempty⟩⟩
  | line noNewline _ inductionHypothesis =>
      rcases List.mem_cons.mp listed with rfl | inOthers
      · exact ⟨_, noNewline, .inl rfl⟩
      · exact inductionHypothesis inOthers

end Lined

/-- Short lines are read one by one. -/
theorem fgetsLines_eq_splitLines {capacity : Nat} (positive : 0 < capacity) {text : Text}
    (short : ∀ line ∈ splitLines text, line.length ≤ capacity) :
    fgetsLines (capacity + 1) text = splitLines text := by
  have read := fgetsLines_flatten positive ((lined_splitLines text).tiles short)
  rwa [flatten_splitLines] at read

theorem fgetsLoop_append {capacity room : Nat} {line body : Text} (rest : Text)
    (noNewline : newline ∉ body) :
    fgetsLoop capacity room line (body ++ newline :: rest) =
      fgetsLoop capacity room line (body ++ [newline]) ++ fgetsLoop capacity capacity [] rest := by
  induction body generalizing room line with
  | nil => simp [fgetsLoop]
  | cons byte body inductionHypothesis =>
      have others := List.not_mem_of_not_mem_cons noNewline
      rw [List.cons_append, List.cons_append, fgetsLoop, fgetsLoop]
      split
      · rw [inductionHypothesis others, List.cons_append]
      · rw [inductionHypothesis others]

/-- Every line is read from its first byte on, whatever stands before it. -/
theorem fgetsLines_eq_flatMap (size : Nat) (text : Text) :
    fgetsLines size text = (splitLines text).flatMap (fgetsLines size) := by
  have all {lines : List Text} (lined : Lined lines) :
      fgetsLines size lines.flatten = lines.flatMap (fgetsLines size) := by
    induction lined with
    | nil => exact fgetsLines_nil size
    | last => simp
    | @line body lines noNewline _ inductionHypothesis =>
        rw [List.flatten_cons, List.append_assoc, List.singleton_append, List.flatMap_cons,
          ← inductionHypothesis]
        exact fgetsLoop_append _ noNewline
  have read := all (lined_splitLines text)
  rwa [flatten_splitLines] at read

@[simp] theorem splitLines_line {body : Text} (noNewline : newline ∉ body) (rest : Text) :
    splitLines (body ++ newline :: rest) = (body ++ [newline]) :: splitLines rest := by
  induction body with
  | nil => exact if_pos rfl
  | cons byte body inductionHypothesis =>
      rw [List.cons_append, splitLines, if_neg (Ne.symm (List.ne_of_not_mem_cons noNewline)),
        inductionHypothesis (List.not_mem_of_not_mem_cons noNewline)]
      rfl

/-- A line of a text or the rest of one: a newline is its last byte, if it has one. -/
def IsLine (line : Text) : Prop := line ≠ [] ∧ newline ∉ line.dropLast

theorem isLine_of_mem {text line : Text} (listed : line ∈ splitLines text) : IsLine line := by
  obtain ⟨body, noNewline, rfl | ⟨rfl, nonempty⟩⟩ := (lined_splitLines text).shape listed
  · exact ⟨List.append_ne_nil_of_right_ne_nil body (List.cons_ne_nil newline []),
      by rwa [List.dropLast_concat]⟩
  · exact ⟨nonempty, fun member => noNewline (List.dropLast_subset _ member)⟩

namespace IsLine

variable {capacity : Nat} {line : Text}

theorem drop (isLine : IsLine line) {count : Nat} (inside : count < line.length) :
    IsLine (line.drop count) := by
  refine ⟨List.ne_nil_of_length_pos (by rw [List.length_drop]; omega), fun member => ?_⟩
  rw [List.dropLast_drop_eq_drop_dropLast] at member
  exact isLine.2 (List.mem_of_mem_drop member)

/-- The first piece of a line is as much of it as fits the buffer. -/
theorem fgetsLines (isLine : IsLine line) (positive : 0 < capacity) :
    fgetsLines (capacity + 1) line =
      line.take capacity :: C.fgetsLines (capacity + 1) (line.drop capacity) := by
  obtain ⟨nonempty, clean⟩ := isLine
  by_cases fits : line.length ≤ capacity
  · have tiled : Tiles capacity [line] := by
      rw [← List.dropLast_concat_getLast nonempty] at fits ⊢
      rw [List.length_append, List.length_singleton] at fits
      by_cases ends : line.getLast nonempty = newline
      · rw [ends]
        exact .line clean fits .nil
      · refine .last (by simp) ?_ (by simpa using fits)
        simpa [clean] using fun same => ends same.symm
    have read := fgetsLines_flatten positive tiled
    rw [List.flatten_singleton] at read
    rw [List.take_of_length_le fits, List.drop_of_length_le fits, read, fgetsLines_nil]
  · have long : capacity < line.length := Nat.lt_of_not_le fits
    have front : newline ∉ line.take capacity := by
      have inBody : line.take capacity <+: line.dropLast := by
        rw [List.dropLast_eq_take]
        exact List.take_prefix_take_left (by omega)
      exact fun member => clean (inBody.subset member)
    have fills : (line.take capacity).length = capacity :=
      List.length_take_of_le (Nat.le_of_lt long)
    have read := @fgetsLoop_full capacity capacity [] _ (line.drop capacity) front fills positive
    rwa [List.take_append_drop, List.nil_append] at read

/-- Its pieces begin at the multiples of the capacity. -/
theorem mem_fgetsLines (isLine : IsLine line) (positive : 0 < capacity) (piece : Text) :
    piece ∈ C.fgetsLines (capacity + 1) line ↔
      ∃ count, capacity * count < line.length ∧
        piece = (line.drop (capacity * count)).take capacity := by
  induction length : line.length using Nat.strong_induction_on generalizing line with
  | _ _ inductionHypothesis =>
      subst length
      have nonempty := List.length_pos_iff.mpr isLine.1
      rw [isLine.fgetsLines positive, List.mem_cons]
      by_cases more : capacity < line.length
      · have shorter : (line.drop capacity).length < line.length := by
          rw [List.length_drop]
          omega
        rw [inductionHypothesis _ shorter (isLine.drop more) rfl]
        constructor
        · rintro (rfl | ⟨count, inside, rfl⟩)
          · exact ⟨0, by omega, rfl⟩
          · rw [List.length_drop] at inside
            refine ⟨count + 1, by rw [Nat.mul_succ]; omega, ?_⟩
            rw [List.drop_drop, Nat.mul_succ, Nat.add_comm]
        · rintro ⟨count, inside, rfl⟩
          cases count with
          | zero => exact .inl rfl
          | succ count =>
              rw [Nat.mul_succ] at inside ⊢
              refine .inr ⟨count, by rw [List.length_drop]; omega, ?_⟩
              rw [List.drop_drop, Nat.add_comm]
      · have whole : line.drop capacity = [] := List.drop_of_length_le (Nat.le_of_not_lt more)
        rw [whole, fgetsLines_nil]
        constructor
        · rintro (rfl | impossible)
          · exact ⟨0, by omega, rfl⟩
          · cases impossible
        · rintro ⟨count, inside, rfl⟩
          cases count with
          | zero => exact .inl rfl
          | succ count =>
              rw [Nat.mul_succ] at inside
              omega

end IsLine

/-- The first piece of a line of a text. -/
theorem fgetsLines_line {capacity : Nat} (positive : 0 < capacity) {text line : Text}
    (listed : line ∈ splitLines text) :
    ∃ pieces, fgetsLines (capacity + 1) line = line.take capacity :: pieces :=
  ⟨_, (isLine_of_mem listed).fgetsLines positive⟩

end Libamg.C
