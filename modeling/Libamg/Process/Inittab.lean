import Libamg.Process.Switch

/-!
# Switching the programs of init

`libamg_process_start_init_program` and its siblings on `/etc/inittab`. The same loop
looks for the line that is marked and for the one that is checked, but it takes a buffer
for a line: `marksLine_iff` says which lines are too long for that.
-/

namespace Libamg.Process

open C

def fileInittab : Path := "/etc/inittab"

/-- What is put in the place of the first byte: `u` or `#`. -/
def initMark (enable : Bool) : Byte := if enable then 117 else hash

/-- `_set_init_program`: the returned status and the files afterwards. `telinit` is what
`_telinit('q', 5)` returns. -/
def setInitProgram (enable : Bool) (stack : Text) (telinit : Int32) (prog : Text) (files : Files) :
    Int32 × Files :=
  match markProgram fileInittab (initMark enable) stack prog files with
  | none => (-1, files)
  | some files => (telinit, files)

/-- `libamg_process_start_init_program`. -/
def startInitProgram (stack : Text) (telinit : Int32) (prog : Text) (files : Files) :
    Int32 × Files :=
  setInitProgram true stack telinit prog files

/-- `libamg_process_stop_init_program`. -/
def stopInitProgram (stack : Text) (telinit : Int32) (prog : Text) (files : Files) :
    Int32 × Files :=
  setInitProgram false stack telinit prog files

/-- `libamg_process_check_daemon`: whether the byte behind the seek is a `u`. -/
def checkDaemon (stack prog : Text) (files : Files) : Int32 :=
  match files.openUpdate fileInittab with
  | none => 0
  | some text =>
      match seekProgram stack prog text with
      | none => 0
      | some position => if text[position]? = some (initMark true) then 1 else 0

/-! ## The lines of the table -/

def colon : Byte := 58

/-- The fields of a line, which may have further colons in the last one only. -/
structure InitFields where
  id : Text
  runlevels : Text
  action : Text
  process : Text
  named : id ≠ []
  noColon : colon ∉ id ∧ colon ∉ runlevels ∧ colon ∉ action
  noNewline : newline ∉ id ∧ newline ∉ runlevels ∧ newline ∉ action ∧ newline ∉ process

namespace InitFields

/-- `id:runlevels:action:`. -/
def front (fields : InitFields) : Text :=
  fields.id ++ colon :: (fields.runlevels ++ colon :: (fields.action ++ [colon]))

def text (fields : InitFields) : Text := fields.front ++ fields.process

/-- The line has these fields, or the same with the first byte replaced by `#`; the last
line of a file may lack its newline. -/
def Writes (fields : InitFields) (line : Text) : Prop :=
  ∃ ending, (ending = [] ∨ ending = [newline]) ∧
    (line = fields.text ++ ending ∨ line = hash :: (fields.text.tail ++ ending))

/-- Wherever the program occurs in the line, it does so in the last field. -/
def HasProcess (fields : InitFields) (prog line : Text) : Prop :=
  ∀ before after, line = before ++ prog ++ after →
    fields.front.length ≤ before.length ∧ before.length + prog.length ≤ fields.text.length

end InitFields

/-- It is enough to look at each place of the line. -/
theorem InitFields.hasProcess_iff (fields : InitFields) (prog line : Text) :
    fields.HasProcess prog line ↔ ∀ place < line.length + 1, prog <+: line.drop place →
      fields.front.length ≤ place ∧ place + prog.length ≤ fields.text.length := by
  constructor
  · rintro has place inside ⟨after, shape⟩
    have whole : line = line.take place ++ prog ++ after := by
      rw [List.append_assoc, shape, List.take_append_drop]
    have length : (line.take place).length = place := List.length_take_of_le (Nat.le_of_lt_succ inside)
    have found := has _ after whole
    rwa [length] at found
  · rintro places before after rfl
    refine places before.length ?_ ⟨after, ?_⟩
    · rw [List.append_assoc, List.length_append]
      omega
    · rw [List.append_assoc, List.drop_left]

/-- A program whose first byte is in no other field is in the last one, and ends in it unless
it has a newline. -/
theorem InitFields.hasProcess_of_first {fields : InitFields} {first : Byte} {rest ending : Text}
    (absent : first ∉ fields.front) (clean : newline ∉ first :: rest)
    (ends : ending = [] ∨ ending = [newline]) :
    fields.HasProcess (first :: rest) (fields.text ++ ending) := by
  intro before after shape
  have length := congrArg List.length shape
  rw [List.length_append, List.length_append, List.length_append] at length
  constructor
  · by_contra early
    have start : before ++ [first] <+: fields.text ++ ending :=
      ⟨rest ++ after, by rw [shape]; simp only [List.append_assoc, List.cons_append, List.nil_append]⟩
    have front : fields.front <+: fields.text ++ ending :=
      ⟨fields.process ++ ending, by rw [text, List.append_assoc]⟩
    have inside : (before ++ [first]).length ≤ fields.front.length := by
      rw [List.length_append, List.length_singleton]
      omega
    apply absent
    apply (List.prefix_of_prefix_length_le start front inside).subset
    exact List.mem_append_right before (.head _)
  · by_contra late
    rcases ends with rfl | rfl
    · rw [List.length_nil] at length
      omega
    · rw [List.length_singleton] at length
      have nothing : after = [] := List.eq_nil_of_length_eq_zero (by omega)
      have last : [newline] <:+ fields.text ++ [newline] := List.suffix_append fields.text [newline]
      have back : first :: rest <:+ fields.text ++ [newline] :=
        ⟨before, by rw [shape, nothing, List.append_nil]⟩
      apply clean
      apply (List.suffix_of_suffix_length_le last back (Nat.succ_pos rest.length)).subset
      exact List.mem_singleton_self newline

instance (fields : InitFields) (prog line : Text) : Decidable (fields.HasProcess prog line) :=
  decidable_of_iff' _ (fields.hasProcess_iff prog line)

/-- All lines are of this form, and have the program in the last field only. -/
def IsInittab (prog text : Text) : Prop :=
  ∀ line ∈ splitLines text, ∃ fields : InitFields, fields.Writes line ∧ fields.HasProcess prog line

/-- The edit changes the first byte of the line and no other, the program is then found
started or stopped as it should be, and another edit changes nothing. -/
structure MarksLine (enable : Bool) (stack : Text) (telinit : Int32) (prog : Text) (files : Files)
    (before : List Text) (line : Text) (after : List Text) : Prop where
  edits : (setInitProgram enable stack telinit prog files).2 = files.write fileInittab
    (before.flatten ++ initMark enable :: (line.tail ++ after.flatten))
  checks : checkDaemon stack prog (setInitProgram enable stack telinit prog files).2 =
    if enable then 1 else 0
  repeats : (setInitProgram enable stack telinit prog
      (setInitProgram enable stack telinit prog files).2).2.content fileInittab =
    (setInitProgram enable stack telinit prog files).2.content fileInittab

/-- The name is in the part of the line that fits the buffer, and no NUL is. -/
def NamedEarly (prog line : Text) : Prop := Names prog (line.take 254) ∧ 0 ∉ line.take 254

instance (prog line : Text) : Decidable (NamedEarly prog line) :=
  inferInstanceAs (Decidable (_ ∧ _))

/-! ## Where the program is found -/

section

variable {prog text line : Text} {before after : List Text}

theorem flatten_flatMap_fgetsLines (lines : List Text) :
    (lines.flatMap (fgetsLines updateSize)).flatten = lines.flatten := by
  induction lines with
  | nil => rfl
  | cons line lines inductionHypothesis =>
      rw [List.flatMap_cons, List.flatten_append, inductionHypothesis, List.flatten_cons]
      exact congrArg (· ++ lines.flatten) (flatten_buffers line)

/-- The buffers that a line is read into do not name what the line does not. -/
theorem not_names_of_line {piece : Text} (absent : ¬ prog <:+: line)
    (listed : piece ∈ fgetsLines updateSize line) : ¬ Names prog piece := by
  intro names
  have inside : piece <:+: line := by
    rw [← flatten_buffers line]
    exact List.infix_of_mem_flatten listed
  exact absent (names.trans ((isPrefix_cstr piece).isInfix.trans inside))

theorem mem_of_lines (lines : splitLines text = before ++ line :: after) :
    line ∈ splitLines text := by
  rw [lines]
  exact List.mem_append_right _ List.mem_cons_self

theorem text_of_lines (lines : splitLines text = before ++ line :: after) :
    text = before.flatten ++ (line ++ after.flatten) := by
  rw [← flatten_splitLines text, lines, List.flatten_append, List.flatten_cons]

/-- The buffers of a file up to the first line with the program in it. -/
theorem fgetsLines_first (lines : splitLines text = before ++ line :: after)
    (absent : ∀ other ∈ before, ¬ prog <:+: other) :
    ∃ pieces others, fgetsLines updateSize text = pieces ++ line.take 254 :: others ∧
      pieces.flatten = before.flatten ∧ ∀ piece ∈ pieces, ¬ Names prog piece := by
  obtain ⟨others, read⟩ := fgetsLines_line (show 0 < 254 by decide) (mem_of_lines lines)
  refine ⟨before.flatMap (fgetsLines updateSize),
    others ++ after.flatMap (fgetsLines updateSize), ?_, flatten_flatMap_fgetsLines before, ?_⟩
  · rw [fgetsLines_eq_flatMap, lines, List.flatMap_append, List.flatMap_cons, updateSize, read]
    rfl
  · intro piece listed
    obtain ⟨other, inBefore, inPieces⟩ := List.mem_flatMap.mp listed
    exact not_names_of_line (absent other inBefore) inPieces

theorem setInitProgram_files (enable : Bool) (stack : Text) (telinit : Int32) (prog : Text)
    (files : Files) : (setInitProgram enable stack telinit prog files).2 =
      (markProgram fileInittab (initMark enable) stack prog files).getD files := by
  rw [setInitProgram]
  cases markProgram fileInittab (initMark enable) stack prog files <;> rfl

theorem initMark_clean (enable : Bool) : initMark enable ≠ newline ∧ initMark enable ≠ 0 := by
  cases enable <;> decide

/-! ## Lines that are named early -/

theorem InitFields.front_length (fields : InitFields) : 3 ≤ fields.front.length := by
  simp only [InitFields.front, List.length_append, List.length_cons, List.length_nil]
  omega

/-- The name of a program is not empty, or it would occur in the first field. -/
theorem InitFields.HasProcess.ne_nil {fields : InitFields} (has : fields.HasProcess prog line) :
    prog ≠ [] := by
  rintro rfl
  have first := (has [] line rfl).1
  have front := fields.front_length
  rw [List.length_nil] at first
  omega

theorem InitFields.newline_notMem_text (fields : InitFields) : newline ∉ fields.text := by
  obtain ⟨id, runlevels, action, process⟩ := fields.noNewline
  have different : newline ≠ colon := by decide
  simp [InitFields.text, InitFields.front, id, runlevels, action, process, different]

/-- A line without its newline is as long as its fields. -/
theorem InitFields.Writes.body {fields : InitFields} (writes : fields.Writes line) :
    ∃ body, body <+: line ∧ body.length = fields.text.length ∧ newline ∉ body := by
  have clean := fields.newline_notMem_text
  obtain ⟨ending, -, rfl | rfl⟩ := writes
  · exact ⟨fields.text, List.prefix_append _ _, rfl, clean⟩
  · have front := fields.front_length
    have marked : (hash :: fields.text.tail).length = fields.text.length := by
      rw [List.length_cons, List.length_tail, InitFields.text, List.length_append]
      omega
    have different : newline ≠ hash := by decide
    exact ⟨hash :: fields.text.tail, List.prefix_append _ ending, marked,
      List.not_mem_cons_of_ne_of_not_mem different fun member => clean (List.mem_of_mem_tail member)⟩

/-- There is no newline in the last field. -/
theorem InitFields.HasProcess.noNewline {fields : InitFields} (has : fields.HasProcess prog line)
    (writes : fields.Writes line) (names : prog <:+: line) : newline ∉ prog := by
  obtain ⟨front, rest, shape⟩ := names
  obtain ⟨body, inLine, length, clean⟩ := writes.body
  have within : front ++ prog <+: body := by
    refine List.prefix_of_prefix_length_le ⟨rest, shape⟩ inLine ?_
    rw [List.length_append, length]
    exact (has front rest shape.symm).2
  exact fun member => clean (within.subset (List.mem_append_right _ member))

/-- The name stands behind the first byte of the line. -/
theorem NamedEarly.behind {fields : InitFields} (early : NamedEarly prog line)
    (has : fields.HasProcess prog line) :
    ∃ byte tail, line.take 254 = byte :: tail ∧ prog <:+: tail ∧
      line = byte :: (tail ++ line.drop 254) := by
  obtain ⟨names, noNul⟩ := early
  rw [Names, cstr_eq_self noNul] at names
  obtain ⟨front, rest, shape⟩ := names
  have whole : line = front ++ prog ++ (rest ++ line.drop 254) := by
    rw [← List.append_assoc, shape, List.take_append_drop]
  have place := (has front _ whole).1
  have fields := fields.front_length
  obtain ⟨byte, front, rfl⟩ : ∃ byte tail, front = byte :: tail :=
    List.exists_cons_of_length_pos (by omega)
  refine ⟨byte, front ++ prog ++ rest, shape.symm, ⟨front, rest, rfl⟩, ?_⟩
  simpa using whole

/-- Such a line is the first buffer. -/
theorem firstNaming_of_early {fields : InitFields} (lines : splitLines text = before ++ line :: after)
    (absent : ∀ other ∈ before, ¬ prog <:+: other) (early : NamedEarly prog line)
    (has : fields.HasProcess prog line) :
    ∃ pieces byte tail others, FirstNaming prog text pieces byte tail others ∧
      pieces.flatten = before.flatten ∧ prog <:+: tail ∧
      text = before.flatten ++ byte :: (line.tail ++ after.flatten) := by
  obtain ⟨pieces, others, read, same, silent⟩ := fgetsLines_first lines absent
  obtain ⟨byte, tail, piece, inTail, shape⟩ := early.behind has
  obtain ⟨names, noNul⟩ := early
  rw [piece] at read names noNul
  refine ⟨pieces, byte, tail, others, ⟨read, silent, names, noNul⟩, same, inTail, ?_⟩
  rw [text_of_lines lines, shape]
  rfl

variable {files : Files} {fields : InitFields} {stack : Text} {telinit : Int32}

/-- A line that is named early is marked. -/
theorem marksLine_of_early (enable : Bool) (opened : files.openUpdate fileInittab = some text)
    (lines : splitLines text = before ++ line :: after) (absent : ∀ other ∈ before, ¬ prog <:+: other)
    (names : prog <:+: line) (writes : fields.Writes line) (has : fields.HasProcess prog line)
    (early : NamedEarly prog line) :
    MarksLine enable stack telinit prog files before line after := by
  obtain ⟨pieces, byte, tail, others, first, same, inTail, shape⟩ :=
    firstNaming_of_early lines absent early has
  obtain ⟨notNewline, notNul⟩ := initMark_clean enable
  have noNul : 0 ∉ initMark enable :: tail :=
    List.not_mem_cons_of_ne_of_not_mem (Ne.symm notNul) (List.not_mem_of_not_mem_cons first.noNul)
  have named : Names prog (initMark enable :: tail) := by
    rw [Names, cstr_eq_self noNul]
    exact inTail.trans (List.suffix_cons _ _).isInfix
  have again := first.again has.ne_nil (has.noNewline writes names) notNewline notNul named
  have edited : (setInitProgram enable stack telinit prog files).2 =
      files.write fileInittab (putByte text pieces.flatten.length (initMark enable)) := by
    rw [setInitProgram_files, first.markProgram _ stack opened, Option.getD_some]
  have reopened := Files.openUpdate_write_self
    (putByte text pieces.flatten.length (initMark enable)) opened
  have put : (putByte text pieces.flatten.length (initMark enable))[pieces.flatten.length]? =
      some (initMark enable) := by
    rw [getElem?_putByte first.inside, if_pos rfl]
  refine ⟨?_, ?_, ?_⟩
  · rw [edited, same, shape, putByte_append]
  · rw [edited, checkDaemon, reopened]
    simp only [again.seek, put]
    cases enable <;> rfl
  · rw [edited, setInitProgram_files, again.markProgram _ stack reopened, Option.getD_some,
      Files.write_content_self, Files.write_content_self, again.put, first.put]

/-- The seek does not go to the start of a line that is not named early. -/
theorem seekProgram_ne_of_late (lines : splitLines text = before ++ line :: after)
    (absent : ∀ other ∈ before, ¬ prog <:+: other) (nonempty : prog ≠ []) (lineNonempty : line ≠ [])
    (late : ¬ NamedEarly prog line) :
    seekProgram stack prog text ≠ some before.flatten.length := by
  intro found
  obtain ⟨pieces, others, read, same, silent⟩ := fgetsLines_first lines absent
  have written : text ≠ [] := by
    rw [text_of_lines lines]
    simp [lineNonempty]
  have taken : 0 < (line.take 254).length := by
    have positive := List.length_pos_iff.mpr lineNonempty
    rw [List.length_take]
    omega
  rw [seekProgram_eq written, read, seekPieces_append 0 _ silent, same, seekPieces] at found
  by_cases named : Names prog (line.take 254)
  · -- A NUL cuts the string, and the seek goes back over the string only.
    have hasNul : 0 ∈ line.take 254 := by
      by_contra noNul
      exact late ⟨named, noNul⟩
    obtain ⟨rest, cut⟩ := exists_eq_cstr_append hasNul
    have shorter := congrArg List.length cut
    rw [List.length_append, List.length_cons] at shorter
    rw [if_pos named, Option.some.injEq] at found
    omega
  · rw [if_neg named] at found
    have bounds := (seekPieces_inside nonempty found).1
    omega

/-- A line that is not named early keeps its first byte. -/
theorem kept_of_late (enable : Bool) (opened : files.openUpdate fileInittab = some text)
    (lines : splitLines text = before ++ line :: after) (absent : ∀ other ∈ before, ¬ prog <:+: other)
    (names : prog <:+: line) (nonempty : prog ≠ []) (late : ¬ NamedEarly prog line)
    (marks : MarksLine enable stack telinit prog files before line after) :
    text[before.flatten.length]? = some (initMark enable) := by
  have lineNonempty : line ≠ [] := fun empty => nonempty (List.infix_nil.mp (empty ▸ names))
  have written : text ≠ [] := by
    rw [text_of_lines lines]
    simp [lineNonempty]
  have edited := congrArg (fun files : Files => files.content fileInittab) marks.edits
  simp only [setInitProgram_files, content_markProgram _ stack prog opened,
    Files.write_content_self, Option.some.injEq] at edited
  have elsewhere : seekProgram stack prog text ≠ some before.flatten.length :=
    seekProgram_ne_of_late lines absent nonempty lineNonempty late
  calc text[before.flatten.length]?
      = (((seekProgram stack prog text).map (putByte text · (initMark enable))).getD text)[
          before.flatten.length]? := by
        rw [getElem?_edited written nonempty, if_neg elsewhere]
    _ = (before.flatten ++ initMark enable :: (line.tail ++ after.flatten))[
          before.flatten.length]? := by rw [edited]
    _ = some (initMark enable) := by
        rw [List.getElem?_append_right (Nat.le_refl _), Nat.sub_self, List.getElem?_cons_zero]

/-- Starting and stopping work as they should exactly if the name stands in the part of the
line that is read at once. -/
theorem marksLine_iff (stack : Text) (telinit : Int32)
    (opened : files.openUpdate fileInittab = some text) (table : IsInittab prog text)
    (lines : splitLines text = before ++ line :: after) (absent : ∀ other ∈ before, ¬ prog <:+: other)
    (names : prog <:+: line) :
    (∀ enable, MarksLine enable stack telinit prog files before line after) ↔
      NamedEarly prog line := by
  obtain ⟨fields, writes, has⟩ := table line (mem_of_lines lines)
  constructor
  · intro marks
    by_contra late
    have started := kept_of_late true opened lines absent names has.ne_nil late (marks true)
    have stopped := kept_of_late false opened lines absent names has.ne_nil late (marks false)
    rw [started] at stopped
    exact absurd stopped (by decide)
  · exact fun early enable => marksLine_of_early enable opened lines absent names writes has early

end

/-- The table of a terminal and a daemon that is switched off. -/
def daemonText : Text := lit "tty1::respawn:getty\n#d::respawn:syslogd\n"

theorem marksLine_iff_witness :
    (∀ enable, MarksLine enable [] 0 (lit "syslogd") (Files.empty.write fileInittab daemonText)
        [lit "tty1::respawn:getty\n"] (lit "#d::respawn:syslogd\n") []) ↔
      NamedEarly (lit "syslogd") (lit "#d::respawn:syslogd\n") := by
  have table : IsInittab (lit "syslogd") daemonText := by
    have lines : splitLines daemonText =
        [lit "tty1::respawn:getty\n", lit "#d::respawn:syslogd\n"] := by decide
    intro line listed
    rw [lines] at listed
    simp only [List.mem_cons, List.not_mem_nil, or_false] at listed
    rcases listed with rfl | rfl
    · exact ⟨⟨lit "tty1", [], lit "respawn", lit "getty", by decide, by decide, by decide⟩,
        ⟨[newline], .inr rfl, .inl (by decide)⟩, by decide⟩
    · exact ⟨⟨lit "ld", [], lit "respawn", lit "syslogd", by decide, by decide, by decide⟩,
        ⟨[newline], .inr rfl, .inr (by decide)⟩, by decide⟩
  exact marksLine_iff [] 0 rfl table (by decide) (by decide) (by decide)

/-- A line with a long argument in front of the name. -/
def longFields : InitFields where
  id := lit "d"
  runlevels := []
  action := lit "once"
  process := List.replicate 250 120 ++ lit " udhcpd"
  named := by decide
  noColon := by decide
  noNewline := by decide

/-- Its first byte stays, or another one is overwritten. -/
theorem longLine_kept : IsInittab (lit "udhcpd") (longFields.text ++ [newline]) ∧
    ¬ ∀ enable, MarksLine enable [] 0 (lit "udhcpd")
      (Files.empty.write fileInittab (longFields.text ++ [newline])) []
      (longFields.text ++ [newline]) [] := by
  have lines : splitLines (longFields.text ++ [newline]) = [longFields.text ++ [newline]] := by
    decide +kernel
  constructor
  · intro line listed
    rw [lines] at listed
    rw [List.mem_singleton.mp listed]
    have prog : lit "udhcpd" = 117 :: lit "dhcpd" := by decide
    rw [prog]
    exact ⟨longFields, ⟨[newline], .inr rfl, .inl rfl⟩,
      InitFields.hasProcess_of_first (by decide) (by decide) (.inr rfl)⟩
  · intro marks
    have kept := kept_of_late true rfl lines (by simp) (by decide +kernel) (by decide)
      (by decide +kernel) (marks true)
    exact absurd kept (by decide)

end Libamg.Process
