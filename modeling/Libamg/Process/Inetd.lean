import Libamg.Process.Switch

/-!
# Switching the services of inetd

`libamg_process_start_inetd_program` and its siblings on `/etc/inetd.conf`. Starting and
stopping mark the first line that names the program, over its first byte; checking looks
at all lines. `switches_iff` says for which files the three belong together.
-/

namespace Libamg.Process

open C

def fileInetd : Path := "/etc/inetd.conf"

/-- What is put in the place of the first byte. -/
def inetdMark (enable : Bool) : Byte := if enable then blank else hash

/-- `_process_set_inetd_program`: the returned status and the files afterwards. `pid` is
what `libamg_process_get_pid` answers for inetd, which gets a signal if it runs. -/
def setInetdProgram (enable : Bool) (stack : Text) (pid : Int32) (prog : Text) (files : Files) :
    Int32 × Files :=
  match markProgram fileInetd (inetdMark enable) stack prog files with
  | none => (-1, files)
  | some files => if pid = 0 then (-1, files) else (0, files)

/-- `libamg_process_start_inetd_program`. -/
def startInetdProgram (stack : Text) (pid : Int32) (prog : Text) (files : Files) : Int32 × Files :=
  setInetdProgram true stack pid prog files

/-- `libamg_process_stop_inetd_program`. -/
def stopInetdProgram (stack : Text) (pid : Int32) (prog : Text) (files : Files) : Int32 × Files :=
  setInetdProgram false stack pid prog files

/-- `(*p != '#') && (strstr(buf, prog))`. -/
def IsEnabled (prog piece : Text) : Prop := (cstr piece).head? ≠ some hash ∧ Names prog piece

instance (prog piece : Text) : Decidable (IsEnabled prog piece) :=
  inferInstanceAs (Decidable (_ ∧ _))

/-- `libamg_process_check_inetd_program`. -/
def checkInetdProgram (stack prog : Text) (files : Files) : Int32 :=
  match files.openUpdate fileInetd with
  | none => -1
  | some text =>
      let buffers := match fgetsLines updateSize text with
        | [] => [stack]
        | pieces => pieces
      if ∃ piece ∈ buffers, IsEnabled prog piece then 1 else 0

/-! ## What is asked of them -/

/-- The line of a service: its name from the first column on, and a space behind it. It is
neither commented out nor indented. -/
structure IsEnabledService (prog line : Text) : Prop where
  named : ∃ space rest, line = prog ++ space :: rest ∧ isSpace space = true
  enabled : ∀ byte ∈ line.head?, byte ≠ hash ∧ isSpace byte = false

/-- A stopped program is found stopped and a started one started, and a service that was
enabled comes back as it was. -/
structure Switches (stack : Text) (pid : Int32) (prog : Text) (files : Files) (text : Text) :
    Prop where
  stops : checkInetdProgram stack prog (stopInetdProgram stack pid prog files).2 = 0
  starts : checkInetdProgram stack prog (startInetdProgram stack pid prog files).2 = 1
  restores : (∃ line ∈ splitLines text, IsEnabledService prog line) →
    (startInetdProgram stack pid prog (stopInetdProgram stack pid prog files).2).2.content fileInetd =
      some text

/-- The first buffer that names the program does so behind its first byte or with a blank
in the place of it, the others that name the program are commented out, and no line is
that of an enabled service of this name. -/
structure SingleService (prog text : Text) : Prop where
  first : ∃ before byte tail after, FirstNaming prog text before byte tail after ∧
    Names prog (blank :: tail) ∧ ∀ piece ∈ after, ¬ IsEnabled prog piece
  noService : ∀ line ∈ splitLines text, ¬ IsEnabledService prog line

/-! ## The edit -/

theorem setInetdProgram_files (enable : Bool) (stack : Text) (pid : Int32) (prog : Text)
    (files : Files) : (setInetdProgram enable stack pid prog files).2 =
      (markProgram fileInetd (inetdMark enable) stack prog files).getD files := by
  rw [setInetdProgram]
  cases markProgram fileInetd (inetdMark enable) stack prog files with
  | none => rfl
  | some files =>
      dsimp only
      split <;> rfl

theorem checkInetdProgram_eq (stack prog : Text) {files : Files} {text : Text}
    (opened : files.openUpdate fileInetd = some text) (nonempty : text ≠ []) :
    checkInetdProgram stack prog files =
      if ∃ piece ∈ fgetsLines updateSize text, IsEnabled prog piece then 1 else 0 := by
  obtain ⟨piece, pieces, read⟩ := exists_buffer nonempty
  rw [checkInetdProgram, opened]
  dsimp only
  rw [read]

section

variable {stack prog text tail : Text} {before after : List Text} {byte : Byte} {files : Files}

theorem inetdMark_clean (enable : Bool) : inetdMark enable ≠ newline := by
  cases enable <;> decide

/-- The edit marks the first buffer. -/
theorem setInetdProgram_first (first : FirstNaming prog text before byte tail after) (enable : Bool)
    (pid : Int32) (opened : files.openUpdate fileInetd = some text) :
    (setInetdProgram enable stack pid prog files).2 =
      files.write fileInetd (putByte text before.flatten.length (inetdMark enable)) := by
  rw [setInetdProgram_files, first.markProgram (inetdMark enable) stack opened, Option.getD_some]

/-- What is found behind the edit. -/
theorem checkInetdProgram_set (first : FirstNaming prog text before byte tail after)
    (nonempty : prog ≠ []) (noNewline : newline ∉ prog) (enable : Bool) (pid : Int32)
    (opened : files.openUpdate fileInetd = some text) :
    checkInetdProgram stack prog (setInetdProgram enable stack pid prog files).2 =
      if IsEnabled prog (inetdMark enable :: tail) ∨
        ∃ piece ∈ after, IsEnabled prog piece then 1 else 0 := by
  have notBefore : ¬ ∃ piece ∈ before, IsEnabled prog piece := fun ⟨piece, listed, enabled⟩ =>
    first.silent piece listed enabled.2
  have changed : putByte text before.flatten.length (inetdMark enable) ≠ [] := by
    rw [first.put]
    simp
  rw [setInetdProgram_first first enable pid opened,
    checkInetdProgram_eq stack prog (Files.openUpdate_write_self _ opened) changed,
    first.marked nonempty noNewline (inetdMark_clean enable)]
  simp only [List.mem_append, List.mem_cons, or_and_right, exists_or, exists_eq_left, notBefore,
    false_or]

theorem not_isEnabled_hash (prog tail : Text) : ¬ IsEnabled prog (hash :: tail) := by
  rintro ⟨notHash, -⟩
  rw [cstr_cons (by decide)] at notHash
  exact notHash rfl

theorem isEnabled_blank (prog tail : Text) :
    IsEnabled prog (blank :: tail) ↔ Names prog (blank :: tail) := by
  refine and_iff_right ?_
  rw [cstr_cons (by decide), List.head?_cons]
  decide

/-- The first buffer of an enabled service starts with its name. -/
theorem enabledService_piece {line : Text} (noNul : 0 ∉ text) (short : prog.length ≤ 254)
    (listed : line ∈ splitLines text) (service : IsEnabledService prog line) :
    ∃ piece ∈ fgetsLines updateSize text, IsEnabled prog piece ∧
      ∀ byte ∈ piece.head?, byte ≠ hash ∧ isSpace byte = false := by
  obtain ⟨pieces, read⟩ := fgetsLines_line (show 0 < 254 by decide) listed
  have piece : line.take 254 ∈ fgetsLines updateSize text := by
    rw [fgetsLines_eq_flatMap, List.mem_flatMap]
    exact ⟨line, listed, by rw [updateSize, read]; exact List.mem_cons_self⟩
  obtain ⟨space, rest, shape, -⟩ := service.named
  have name : prog <:+: line.take 254 := by
    rw [shape, List.take_append, List.take_of_length_le short]
    exact (List.prefix_append _ _).isInfix
  have head : (line.take 254).head? = line.head? := List.head?_take
  have string := cstr_eq_self (nul_notMem_piece noNul piece)
  refine ⟨line.take 254, piece, ⟨?_, by rw [Names, string]; exact name⟩, ?_⟩
  · rw [string, head]
    exact fun isHash => (service.enabled hash isHash).1 rfl
  · rw [head]
    exact service.enabled

/-- A byte that was neither mark does not come back. -/
theorem start_stop_ne (first : FirstNaming prog text before byte tail after) (nonempty : prog ≠ [])
    (pid : Int32) (opened : files.openUpdate fileInetd = some text) (notHash : byte ≠ hash)
    (notBlank : byte ≠ blank) :
    (startInetdProgram stack pid prog (stopInetdProgram stack pid prog files).2).2.content fileInetd ≠
      some text := by
  have inside := first.inside
  have original : text[before.flatten.length]? = some byte := by
    rw [first.text_eq, List.getElem?_append_right (Nat.le_refl _), Nat.sub_self]
    rfl
  have stopped : (stopInetdProgram stack pid prog files).2 =
      files.write fileInetd (putByte text before.flatten.length hash) :=
    setInetdProgram_first first false pid opened
  generalize before.flatten.length = place at inside original stopped
  have marked : (putByte text place hash)[place]? = some hash := by
    rw [getElem?_putByte inside, if_pos rfl]
  have changed : putByte text place hash ≠ [] := by simp [putByte]
  rw [stopped, startInetdProgram, setInetdProgram_files,
    content_markProgram _ stack prog (Files.openUpdate_write_self (putByte text place hash) opened)]
  intro same
  have behind := @getElem?_edited stack prog _ changed nonempty (inetdMark true) place
  rw [Option.some.inj same, original, marked] at behind
  split at behind
  · exact notBlank (Option.some.inj behind)
  · exact notHash (Option.some.inj behind)

/-- A started program is found, so a buffer names it. -/
theorem exists_first_of_starts (opened : files.openUpdate fileInetd = some text) (noNul : 0 ∉ text)
    (written : text ≠ []) (nonempty : prog ≠ []) (pid : Int32)
    (starts : checkInetdProgram stack prog (startInetdProgram stack pid prog files).2 = 1) :
    ∃ before byte tail after, FirstNaming prog text before byte tail after := by
  refine exists_firstNaming nonempty noNul ?_
  by_contra none
  have silent : ∀ piece ∈ fgetsLines updateSize text, ¬ Names prog piece :=
    fun piece listed names => none ⟨piece, listed, names⟩
  have untouched : (startInetdProgram stack pid prog files).2 = files := by
    rw [startInetdProgram, setInetdProgram_files, markProgram_eq _ stack prog opened,
      seekProgram_eq written, seekPieces_eq_none 0 silent]
    rfl
  rw [untouched, checkInetdProgram_eq stack prog opened written,
    if_neg fun ⟨piece, listed, enabled⟩ => silent piece listed enabled.2] at starts
  cases starts

/-- An enabled service would have to come back as it was. -/
theorem not_isEnabledService_of_restores (first : FirstNaming prog text before byte tail after)
    (noNul : 0 ∉ text) (nonempty : prog ≠ []) (pid : Int32)
    (opened : files.openUpdate fileInetd = some text)
    (others : ¬ ∃ piece ∈ after, IsEnabled prog piece)
    (restores : (∃ line ∈ splitLines text, IsEnabledService prog line) →
      (startInetdProgram stack pid prog (stopInetdProgram stack pid prog files).2).2.content
        fileInetd = some text) {line : Text} (listed : line ∈ splitLines text) :
    ¬ IsEnabledService prog line := by
  intro service
  obtain ⟨piece, inPieces, enabled, unmarked⟩ :=
    enabledService_piece noNul first.length_le listed service
  rw [first.read, List.mem_append, List.mem_cons] at inPieces
  rcases inPieces with inBefore | rfl | inAfter
  · exact first.silent piece inBefore enabled.2
  · obtain ⟨notHash, notSpace⟩ := unmarked byte rfl
    have notBlank : byte ≠ blank := by
      rintro rfl
      cases notSpace
    exact start_stop_ne first nonempty pid opened notHash notBlank
      (restores ⟨line, listed, service⟩)
  · exact others ⟨piece, inAfter, enabled⟩

/-- The three belong together exactly for a single service that is not enabled in the
first column. -/
theorem switches_iff (stack : Text) (pid : Int32)
    (opened : files.openUpdate fileInetd = some text) (noNul : 0 ∉ text) (nonempty : prog ≠ [])
    (noNewline : newline ∉ prog) (named : ∃ line ∈ splitLines text, prog <:+: line) :
    Switches stack pid prog files text ↔ SingleService prog text := by
  have written : text ≠ [] := by
    rintro rfl
    obtain ⟨line, listed, -⟩ := named
    cases listed
  constructor
  · rintro ⟨stops, starts, restores⟩
    obtain ⟨before, byte, tail, after, first⟩ :=
      exists_first_of_starts opened noNul written nonempty pid starts
    rw [stopInetdProgram, checkInetdProgram_set first nonempty noNewline false pid opened] at stops
    rw [startInetdProgram, checkInetdProgram_set first nonempty noNewline true pid opened] at starts
    have others : ¬ ∃ piece ∈ after, IsEnabled prog piece := by
      intro enabled
      rw [if_pos (.inr enabled)] at stops
      cases stops
    have marked : Names prog (blank :: tail) := by
      by_contra lost
      have disabled : ¬ IsEnabled prog (inetdMark true :: tail) := fun enabled => lost enabled.2
      rw [if_neg (not_or.mpr ⟨disabled, others⟩)] at starts
      cases starts
    exact ⟨⟨before, byte, tail, after, first, marked, fun piece listed enabled =>
      others ⟨piece, listed, enabled⟩⟩, fun line listed =>
      not_isEnabledService_of_restores first noNul nonempty pid opened others restores listed⟩
  · rintro ⟨⟨before, byte, tail, after, first, names, others⟩, noService⟩
    have others : ¬ ∃ piece ∈ after, IsEnabled prog piece := fun ⟨piece, listed, enabled⟩ =>
      others piece listed enabled
    refine ⟨?_, ?_, fun ⟨line, listed, service⟩ => absurd service (noService line listed)⟩
    · rw [stopInetdProgram, checkInetdProgram_set first nonempty noNewline false pid opened]
      exact if_neg (not_or.mpr ⟨not_isEnabled_hash prog tail, others⟩)
    · rw [startInetdProgram, checkInetdProgram_set first nonempty noNewline true pid opened]
      exact if_pos (.inl ((isEnabled_blank prog tail).mpr names))

end

/-- An indented service, and one whose name contains its name. -/
def ftpText : Text := lit "telnet stream tcp\n ftp stream tcp\n#tftp dgram udp\n"

theorem switches_iff_witness :
    Switches [] 1 (lit "ftp") (Files.empty.write fileInetd ftpText) ftpText ↔
      SingleService (lit "ftp") ftpText :=
  switches_iff [] 1 rfl (by decide) (by decide) (by decide) (by decide)

/-- A service for two protocols, and one in the first column. -/
def twoProtocols : Text := lit " ftp stream tcp\n ftp dgram udp\n"
def firstColumn : Text := lit "ftp stream tcp\n"

/-- The second line of a stopped service stays enabled, and the first letter of a name does
not come back. -/
theorem inetd_differs :
    ¬ Switches [] 1 (lit "ftp") (Files.empty.write fileInetd twoProtocols) twoProtocols ∧
      ¬ Switches [] 1 (lit "ftp") (Files.empty.write fileInetd firstColumn) firstColumn := by
  constructor
  · intro switches
    have running : checkInetdProgram [] (lit "ftp") (stopInetdProgram [] 1 (lit "ftp")
        (Files.empty.write fileInetd twoProtocols)).2 = 1 := by decide
    have stops := switches.stops
    rw [running] at stops
    cases stops
  · intro switches
    have service : ∃ line ∈ splitLines firstColumn, IsEnabledService (lit "ftp") line :=
      ⟨firstColumn, by decide, ⟨blank, lit "stream tcp\n", by decide, rfl⟩,
        forall_head_of_all (by decide)⟩
    have restored := switches.restores service
    revert restored
    decide

end Libamg.Process
