import Libamg.C.Lines
import Libamg.Files

/-!
# Switching a line of a file

`process.c` switches a program on and off by the first byte of its line in a table of the
system. The line is looked for in buffers of 254 bytes, and the byte is reached by a seek
back over the string that was read. `FirstNaming` is a buffer that is found, and
`FirstNaming.marked` says what is read once its first byte is overwritten.
-/

namespace Libamg.Process

open C

/-- The character behind which the rest of a line is a comment. -/
def hash : Byte := 35

/-- The second argument of `fgets`. -/
def updateSize : Nat := 255

/-- The string in a buffer has the name of the program in it. -/
def Names (prog piece : Text) : Prop := prog <:+: cstr piece

instance (prog piece : Text) : Decidable (Names prog piece) :=
  inferInstanceAs (Decidable (_ <:+: _))

/-- The place to which `fseek(f, -strlen(buf), SEEK_CUR)` goes behind the first buffer that
names the program; `offset` is where the buffers begin. -/
def seekPieces (prog : Text) : Nat → List Text → Option Nat
  | _, [] => none
  | offset, piece :: pieces =>
      if Names prog piece then some (offset + (piece.length - (cstr piece).length))
      else seekPieces prog (offset + piece.length) pieces

/-- The loop that looks for the program. In an empty file the first `fgets` leaves the
buffer as the stack had it, and the seek leaves the position where it is. -/
def seekProgram (stack prog text : Text) : Option Nat :=
  match fgetsLines updateSize text with
  | [] => if Names prog stack then some 0 else none
  | pieces => seekPieces prog 0 pieces

/-- `fputc(byte, f)` at a position of the file. -/
def putByte (text : Text) (position : Nat) (byte : Byte) : Text :=
  text.take position ++ byte :: text.drop (position + 1)

/-- The part that `_process_set_inetd_program` and `_set_init_program` have in common: the
files with the mark in the table, or `none` if it cannot be opened or does not name the
program. -/
def markProgram (path : Path) (mark : Byte) (stack prog : Text) (files : Files) : Option Files :=
  match files.openUpdate path with
  | none => none
  | some text =>
      match seekProgram stack prog text with
      | none => none
      | some position => some (files.write path (putByte text position mark))

/-! ## The byte -/

theorem putByte_append (before after : Text) (old new : Byte) :
    putByte (before ++ old :: after) before.length new = before ++ new :: after := by
  rw [putByte, List.take_left, List.drop_append, List.drop_of_length_le (Nat.le_succ _),
    Nat.add_sub_cancel_left]
  rfl

/-- The byte that is put, and the others as they were. -/
theorem getElem?_putByte {text : Text} {position : Nat} (inside : position < text.length)
    (byte : Byte) (index : Nat) :
    (putByte text position byte)[index]? = if index = position then some byte else text[index]? := by
  have front : (text.take position).length = position := List.length_take_of_le (Nat.le_of_lt inside)
  rw [putByte]
  rcases Nat.lt_trichotomy index position with below | same | above
  · rw [if_neg (Nat.ne_of_lt below), List.getElem?_append_left (by omega),
      List.getElem?_take_of_lt below]
  · rw [if_pos same, List.getElem?_append_right (by omega), front, same, Nat.sub_self]
    rfl
  · obtain ⟨step, rfl⟩ : ∃ step, index = position + 1 + step := Nat.exists_eq_add_of_le above
    have shift : position + 1 + step - position = step + 1 := by omega
    rw [if_neg (Nat.ne_of_gt above), List.getElem?_append_right (by omega), front, shift,
      List.getElem?_cons_succ, List.getElem?_drop]

/-! ## The search -/

/-- Nothing is found in front of the first buffer that names the program. -/
theorem seekPieces_append {prog : Text} {before : List Text} (offset : Nat) (pieces : List Text)
    (silent : ∀ piece ∈ before, ¬ Names prog piece) :
    seekPieces prog offset (before ++ pieces) = seekPieces prog (offset + before.flatten.length) pieces := by
  induction before generalizing offset with
  | nil => rfl
  | cons piece before inductionHypothesis =>
      obtain ⟨first, others⟩ := List.forall_mem_cons.mp silent
      rw [List.cons_append, seekPieces, if_neg first, inductionHypothesis _ others,
        List.flatten_cons, List.length_append, Nat.add_assoc]

theorem seekPieces_eq_none {prog : Text} {pieces : List Text} (offset : Nat)
    (silent : ∀ piece ∈ pieces, ¬ Names prog piece) : seekPieces prog offset pieces = none := by
  have found := seekPieces_append offset [] silent
  rwa [List.append_nil] at found

/-- The place lies in the text that the buffers are read from. -/
theorem seekPieces_inside {prog : Text} {pieces : List Text} {offset position : Nat}
    (nonempty : prog ≠ []) (found : seekPieces prog offset pieces = some position) :
    offset ≤ position ∧ position < offset + pieces.flatten.length := by
  induction pieces generalizing offset with
  | nil => cases found
  | cons piece pieces inductionHypothesis =>
      rw [List.flatten_cons, List.length_append]
      rw [seekPieces] at found
      by_cases names : Names prog piece
      · rw [if_pos names, Option.some.injEq] at found
        have visible : 0 < (cstr piece).length :=
          Nat.lt_of_lt_of_le (List.length_pos_iff.mpr nonempty) names.length_le
        have shorter := (isPrefix_cstr piece).length_le
        omega
      · rw [if_neg names] at found
        have bounds := inductionHypothesis found
        omega

theorem markProgram_eq {path : Path} {files : Files} {text : Text} (mark : Byte) (stack prog : Text)
    (opened : files.openUpdate path = some text) :
    markProgram path mark stack prog files =
      (seekProgram stack prog text).map fun position =>
        files.write path (putByte text position mark) := by
  rw [markProgram, opened]
  dsimp only
  cases seekProgram stack prog text <;> rfl

/-- The buffers are the text, cut. -/
theorem flatten_buffers (text : Text) : (fgetsLines updateSize text).flatten = text :=
  flatten_fgetsLines (show 0 < 254 by decide) text

theorem exists_buffer {text : Text} (nonempty : text ≠ []) :
    ∃ piece pieces, fgetsLines updateSize text = piece :: pieces := by
  refine List.exists_cons_of_ne_nil fun empty => nonempty ?_
  rw [← flatten_buffers text, empty]
  rfl

theorem seekProgram_eq {stack prog text : Text} (nonempty : text ≠ []) :
    seekProgram stack prog text = seekPieces prog 0 (fgetsLines updateSize text) := by
  obtain ⟨piece, pieces, read⟩ := exists_buffer nonempty
  rw [seekProgram, read]

theorem seekProgram_inside {stack prog text : Text} {position : Nat} (nonempty : text ≠ [])
    (named : prog ≠ []) (found : seekProgram stack prog text = some position) :
    position < text.length := by
  rw [seekProgram_eq nonempty] at found
  have bounds := (seekPieces_inside named found).2
  rwa [flatten_buffers, Nat.zero_add] at bounds

/-- The text behind the edit. -/
theorem content_markProgram {path : Path} {files : Files} {text : Text} (mark : Byte)
    (stack prog : Text) (opened : files.openUpdate path = some text) :
    ((markProgram path mark stack prog files).getD files).content path =
      some (((seekProgram stack prog text).map (putByte text · mark)).getD text) := by
  rw [markProgram_eq mark stack prog opened]
  cases seekProgram stack prog text with
  | none => exact Files.content_of_openUpdate opened
  | some position => exact Files.write_content_self _ _ _

/-- Only the byte that the seek goes to is another one there. -/
theorem getElem?_edited {stack prog text : Text} (nonempty : text ≠ []) (named : prog ≠ [])
    (mark : Byte) (index : Nat) :
    (((seekProgram stack prog text).map (putByte text · mark)).getD text)[index]? =
      if seekProgram stack prog text = some index then some mark else text[index]? := by
  cases found : seekProgram stack prog text with
  | none => rfl
  | some position =>
      rw [Option.map_some, Option.getD_some,
        getElem?_putByte (seekProgram_inside nonempty named found)]
      simp only [Option.some.injEq, eq_comm]

/-! ## The first buffer -/

/-- The first buffer that names the program, its first byte apart. -/
structure FirstNaming (prog text : Text) (before : List Text) (byte : Byte) (tail : Text)
    (after : List Text) : Prop where
  read : fgetsLines updateSize text = before ++ (byte :: tail) :: after
  silent : ∀ piece ∈ before, ¬ Names prog piece
  names : Names prog (byte :: tail)
  noNul : 0 ∉ byte :: tail

namespace FirstNaming

variable {prog text tail : Text} {before after : List Text} {byte : Byte}

theorem text_eq (first : FirstNaming prog text before byte tail after) :
    text = before.flatten ++ byte :: (tail ++ after.flatten) := by
  have whole := flatten_buffers text
  rw [first.read, List.flatten_append, List.flatten_cons] at whole
  exact whole.symm

theorem inside (first : FirstNaming prog text before byte tail after) :
    before.flatten.length < text.length := by
  rw [first.text_eq]
  simp

/-- The seek goes to the first byte. -/
theorem seek (first : FirstNaming prog text before byte tail after) (stack : Text) :
    seekProgram stack prog text = some before.flatten.length := by
  have nonempty : text ≠ [] := by
    rw [first.text_eq]
    simp
  rw [seekProgram_eq nonempty, first.read, seekPieces_append 0 _ first.silent, seekPieces,
    if_pos first.names, cstr_eq_self first.noNul, Nat.sub_self, Nat.zero_add, Nat.add_zero]

/-- The file with a mark in the place of the byte. -/
theorem put (first : FirstNaming prog text before byte tail after) (mark : Byte) :
    putByte text before.flatten.length mark = (before ++ (mark :: tail) :: after).flatten := by
  rw [first.text_eq, putByte_append, List.flatten_append, List.flatten_cons]
  rfl

/-- The edit marks the first byte. -/
theorem markProgram {path : Path} {files : Files} (first : FirstNaming prog text before byte tail after)
    (mark : Byte) (stack : Text) (opened : files.openUpdate path = some text) :
    markProgram path mark stack prog files =
      some (files.write path (putByte text before.flatten.length mark)) := by
  rw [markProgram_eq mark stack prog opened, first.seek, Option.map_some]

theorem tiles (first : FirstNaming prog text before byte tail after) :
    Tiles 254 (before ++ (byte :: tail) :: after) := by
  rw [← first.read]
  exact tiles_fgetsLines (by decide) text

/-- The name of a program that is found fits the buffer. -/
theorem length_le (first : FirstNaming prog text before byte tail after) : prog.length ≤ 254 := by
  have visible := (isPrefix_cstr (byte :: tail)).length_le
  have fits := first.tiles.length_le (List.mem_append_right _ List.mem_cons_self)
  exact Nat.le_trans first.names.length_le (Nat.le_trans visible fits)

theorem ne_newline (first : FirstNaming prog text before byte tail after) (nonempty : prog ≠ [])
    (noNewline : newline ∉ prog) : byte ≠ newline := by
  rintro rfl
  have alone := first.tiles.eq_nil_of_newline (List.mem_append_right _ List.mem_cons_self)
  have names := first.names
  rw [Names, cstr_eq_self first.noNul, alone] at names
  obtain ⟨start, rest, rfl⟩ := List.exists_cons_of_ne_nil nonempty
  have isNewline := List.mem_singleton.mp (names.subset List.mem_cons_self)
  rw [isNewline] at noNewline
  exact noNewline List.mem_cons_self

/-- What is read once the byte is overwritten: the other buffers stay. -/
theorem marked (first : FirstNaming prog text before byte tail after) (nonempty : prog ≠ [])
    (noNewline : newline ∉ prog) {mark : Byte} (clean : mark ≠ newline) :
    fgetsLines updateSize (putByte text before.flatten.length mark) =
      before ++ (mark :: tail) :: after := by
  rw [first.put mark]
  exact fgetsLines_flatten (by decide)
    (first.tiles.set_head (first.ne_newline nonempty noNewline) clean)

/-- The buffer is found again as long as it still names the program. -/
theorem again (first : FirstNaming prog text before byte tail after) (nonempty : prog ≠ [])
    (noNewline : newline ∉ prog) {mark : Byte} (clean : mark ≠ newline) (visible : mark ≠ 0)
    (names : Names prog (mark :: tail)) :
    FirstNaming prog (putByte text before.flatten.length mark) before mark tail after where
  read := first.marked nonempty noNewline clean
  silent := first.silent
  names := names
  noNul := List.not_mem_cons_of_ne_of_not_mem (Ne.symm visible)
    (List.not_mem_of_not_mem_cons first.noNul)

end FirstNaming

theorem nul_notMem_piece {text piece : Text} (noNul : 0 ∉ text)
    (listed : piece ∈ fgetsLines updateSize text) : 0 ∉ piece := by
  intro member
  rw [← flatten_buffers text] at noNul
  exact noNul (List.mem_flatten_of_mem listed member)

/-- There is a first buffer that names the program if any does. -/
theorem exists_firstNaming {prog text : Text} (nonempty : prog ≠ []) (noNul : 0 ∉ text)
    (named : ∃ piece ∈ fgetsLines updateSize text, Names prog piece) :
    ∃ before byte tail after, FirstNaming prog text before byte tail after := by
  obtain ⟨piece, found⟩ : ∃ piece, (fgetsLines updateSize text).find? (Names prog ·) = some piece := by
    rw [← Option.isSome_iff_exists, List.find?_isSome]
    simpa using named
  obtain ⟨names, before, after, read, silent⟩ := List.find?_eq_some_iff_append.mp found
  have names : Names prog piece := of_decide_eq_true names
  have listed : piece ∈ fgetsLines updateSize text := List.mem_of_find?_eq_some found
  obtain ⟨byte, tail, rfl⟩ : ∃ byte tail, piece = byte :: tail := by
    refine List.exists_cons_of_ne_nil fun empty => nonempty ?_
    rw [Names, empty] at names
    exact List.infix_nil.mp names
  exact ⟨before, byte, tail, after, read, fun other member => by simpa using silent other member,
    names, nul_notMem_piece noNul listed⟩

end Libamg.Process
