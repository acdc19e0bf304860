import Libamg.C.Lines
import Libamg.Files

/-!
# The switch of the AIS daemon

`libamg_ais_daemon_check` looks for the first line of its file that sets `host_keepalive`.
The number it returns is set in the loop over the lines only.
-/

namespace Libamg.Dahdi

open C

/-- `FILE_AISDAEMON_CONF`. -/
def fileAisdaemonConf : Path := "/etc/dahdi/aisdaemon.conf"

def keepaliveKey : Text := lit "host_keepalive="

/-- `tolower` in the C locale. -/
def toLower (byte : Byte) : Byte := if 65 ≤ byte ∧ byte ≤ 90 then byte + 32 else byte

/-- `strncasecmp(first, second, count) == 0`. -/
def strncasecmp (first second : Text) (count : Nat) : Bool :=
  ((cstr first).take count).map toLower = ((cstr second).take count).map toLower

/-- `regexec` with the pattern `^host_keepalive=\([a-zA-Z]*\)`, whose group may be empty: the
offset `matches[1].rm_so` of a match. -/
def regexec (string : Text) : Option Nat :=
  if keepaliveKey <+: string then some keepaliveKey.length else none

/-- The loop, with `ret_val` before it. -/
def checkLoop (retVal : Int32) : List Text → Int32
  | [] => retVal
  | buffer :: rest =>
      match regexec (cstr buffer) with
      | none => checkLoop 0 rest
      | some rmSo =>
          if strncasecmp (buffer.drop rmSo) (lit "yes") 3 then 1
          else if strncasecmp (buffer.drop rmSo) (lit "no") 2 then 0
          else 0

/-- `libamg_ais_daemon_check`, with what `ret_val` holds before it is set. The pattern
compiles. -/
def aisDaemonCheck (stack : Int32) (files : Files) : Int32 :=
  match files.openRead fileAisdaemonConf with
  | none => -1
  | some text => checkLoop stack (fgetsLines 255 text)

/-- `libamg_ais_daemon_set`. -/
def aisDaemonSet (enable : Int32) (files : Files) : Int32 × Files :=
  if files.writable fileAisdaemonConf then
    (0, files.write fileAisdaemonConf
      (keepaliveKey ++ (if enable ≠ 0 then lit "yes" else lit "no") ++ [newline]))
  else (-1, files)

/-! ## What the file says -/

/-- The text starts with `yes` in any letter case. -/
def StartsYes (value : Text) : Prop := (value.take 3).map toLower = lit "yes"

instance (value : Text) : Decidable (StartsYes value) := inferInstanceAs (Decidable (_ = _))

/-- The first line that sets the switch has a value that starts with `yes`. -/
def KeepsAlive (text : Text) : Prop :=
  ∃ line ∈ (splitLines text).find? (fun line => keepaliveKey <+: line),
    StartsYes (line.drop keepaliveKey.length)

instance (text : Text) : Decidable (KeepsAlive text) :=
  inferInstanceAs (Decidable (∃ line ∈ (splitLines text).find? (fun line => keepaliveKey <+: line),
    StartsYes (line.drop keepaliveKey.length)))

/-- The check returns what the file says, and after a set what was set. -/
def ChecksKeepalive (stack : Int32) (files : Files) (text : Text) : Prop :=
  aisDaemonCheck stack files = (if KeepsAlive text then 1 else 0) ∧
    ∀ enable, files.Openable fileAisdaemonConf → (aisDaemonSet enable files).1 = 0 ∧
      (aisDaemonCheck stack (aisDaemonSet enable files).2 = 1 ↔ enable ≠ 0)

/-! ## One line -/

theorem keepaliveKey_prefix_cstr {text : Text} :
    keepaliveKey <+: cstr text ↔ keepaliveKey <+: text := by
  have noNul : 0 ∉ keepaliveKey := by decide
  constructor
  · exact fun begins => begins.trans (isPrefix_cstr text)
  · rintro ⟨rest, rfl⟩
    rw [cstr_append noNul]
    exact List.prefix_append _ _

/-- The comparison with `yes` needs three bytes only, none of them a NUL. -/
theorem strncasecmp_yes (value : Text) : strncasecmp value (lit "yes") 3 = true ↔ StartsYes value := by
  have yes : ((cstr (lit "yes")).take 3).map toLower = lit "yes" := by decide
  rw [strncasecmp, yes, decide_eq_true_iff, StartsYes]
  constructor
  · intro same
    have length := congrArg List.length same
    rw [List.length_map, List.length_take] at length
    have three : (lit "yes").length = 3 := rfl
    have front : (cstr value).take 3 = value.take 3 := by
      obtain ⟨rest, shape⟩ := isPrefix_cstr value
      conv => rhs; rw [← shape]
      rw [List.take_append_of_le_length (by omega)]
    rwa [← front]
  · intro same
    have noNul : 0 ∉ value.take 3 := by
      intro member
      have image : toLower 0 ∈ lit "yes" := same ▸ List.mem_map_of_mem member
      exact absurd image (by decide)
    have length : (value.take 3).length = 3 := by
      have lengths := congrArg List.length same
      rwa [List.length_map] at lengths
    have front : (cstr value).take 3 = value.take 3 := by
      conv => lhs; rw [← List.take_append_drop 3 value, cstr_append noNul]
      exact List.take_left' length
    rwa [front]

/-- A buffer that does not start with the key is passed over. -/
theorem checkLoop_other {buffer : Text} (other : ¬ keepaliveKey <+: buffer) (retVal : Int32)
    (rest : List Text) : checkLoop retVal (buffer :: rest) = checkLoop 0 rest := by
  have missed : regexec (cstr buffer) = none :=
    if_neg fun begins => other (keepaliveKey_prefix_cstr.mp begins)
  rw [checkLoop, missed]

/-- One that does decides. -/
theorem checkLoop_key {buffer : Text} (begins : keepaliveKey <+: buffer) (retVal : Int32)
    (rest : List Text) : checkLoop retVal (buffer :: rest) =
      if StartsYes (buffer.drop keepaliveKey.length) then 1 else 0 := by
  have matched : regexec (cstr buffer) = some keepaliveKey.length :=
    if_pos (keepaliveKey_prefix_cstr.mpr begins)
  rw [checkLoop, matched]
  dsimp only
  rw [ite_self]
  exact if_congr (strncasecmp_yes _) rfl rfl

theorem checkLoop_others {buffers : List Text} (others : ∀ buffer ∈ buffers, ¬ keepaliveKey <+: buffer)
    (rest : List Text) : checkLoop 0 (buffers ++ rest) = checkLoop 0 rest := by
  induction buffers with
  | nil => rfl
  | cons buffer buffers inductionHypothesis =>
      obtain ⟨other, others⟩ := List.forall_mem_cons.mp others
      rw [List.cons_append, checkLoop_other other]
      exact inductionHypothesis others

/-- A line that is shorter than the buffer is read in one piece, or in two of which the second
is a single byte. -/
theorem checkLoop_line {text line : Text} (listed : line ∈ splitLines text)
    (short : line.length < 256) (retVal : Int32) (rest : List Text) :
    checkLoop retVal (fgetsLines 255 line ++ rest) = if keepaliveKey <+: line then
      if StartsYes (line.drop keepaliveKey.length) then 1 else 0 else checkLoop 0 rest := by
  obtain ⟨pieces, read⟩ := @fgetsLines_line 254 (by decide) _ _ listed
  have whole := @flatten_fgetsLines 254 (by decide) line
  have keyLength : keepaliveKey.length = 15 := by decide
  have begins : keepaliveKey <+: line.take 254 ↔ keepaliveKey <+: line := by
    rw [List.prefix_take_iff]
    exact and_iff_left (by rw [keyLength]; decide)
  rw [read] at whole ⊢
  rw [List.cons_append]
  by_cases key : keepaliveKey <+: line
  · have value : ((line.take 254).drop keepaliveKey.length).take 3 =
        (line.drop keepaliveKey.length).take 3 := by
      rw [List.drop_take, List.take_take, keyLength]
      rfl
    have same : StartsYes ((line.take 254).drop keepaliveKey.length) ↔
        StartsYes (line.drop keepaliveKey.length) := by
      rw [StartsYes, value]
      rfl
    rw [if_pos key, checkLoop_key (begins.mpr key)]
    exact if_congr same rfl rfl
  · rw [if_neg key, checkLoop_other (fun inside => key (begins.mp inside))]
    refine checkLoop_others ?_ rest
    intro piece member inside
    have total := congrArg List.length whole
    rw [List.flatten_cons, List.length_append, List.length_take] at total
    have single := (List.sublist_flatten_of_mem member).length_le
    have long := inside.length_le
    omega

/-- The loop over a whole file that has lines. -/
theorem checkLoop_lines {text : Text} {lines : List Text} (listed : ∀ line ∈ lines, line ∈ splitLines text)
    (short : ∀ line ∈ lines, line.length < 256) (retVal : Int32) :
    checkLoop retVal (lines.flatMap (fgetsLines 255)) =
      if lines = [] then retVal
      else if ∃ line ∈ lines.find? (fun line => keepaliveKey <+: line),
        StartsYes (line.drop keepaliveKey.length) then 1 else 0 := by
  induction lines generalizing retVal with
  | nil => rfl
  | cons line lines inductionHypothesis =>
      obtain ⟨lineListed, othersListed⟩ := List.forall_mem_cons.mp listed
      obtain ⟨lineShort, othersShort⟩ := List.forall_mem_cons.mp short
      rw [List.flatMap_cons, checkLoop_line lineListed lineShort,
        inductionHypothesis othersListed othersShort, if_neg (List.cons_ne_nil line lines)]
      by_cases key : keepaliveKey <+: line
      · have found : (line :: lines).find? (fun line => keepaliveKey <+: line) = some line := by
          rw [List.find?_cons, decide_eq_true key]
        rw [if_pos key, found]
        simp only [Option.mem_some_iff, exists_eq_left']
      · have later : (line :: lines).find? (fun line => keepaliveKey <+: line) =
            lines.find? (fun line => keepaliveKey <+: line) := by
          rw [List.find?_cons, decide_eq_false key]
        rw [if_neg key, later]
        cases lines with
        | nil => simp
        | cons next lines => rw [if_neg (List.cons_ne_nil next lines)]

/-- What the check returns for a file without long lines. -/
theorem aisDaemonCheck_eq {files : Files} {text : Text}
    (opens : files.openRead fileAisdaemonConf = some text)
    (short : ∀ line ∈ splitLines text, line.length < 256) (stack : Int32) :
    aisDaemonCheck stack files =
      if text = [] then stack else if KeepsAlive text then 1 else 0 := by
  rw [aisDaemonCheck, opens]
  dsimp only
  rw [fgetsLines_eq_flatMap, checkLoop_lines (fun _ listed => listed) short]
  cases text with
  | nil => rfl
  | cons byte rest =>
      have some : splitLines (byte :: rest) ≠ [] := by
        intro nothing
        have whole := flatten_splitLines (byte :: rest)
        rw [nothing] at whole
        cases whole
      rw [if_neg some, if_neg (List.cons_ne_nil byte rest)]
      rfl

/-! ## After a set -/

/-- The line that a set writes. -/
def setLine (enable : Int32) : Text :=
  keepaliveKey ++ (if enable ≠ 0 then lit "yes" else lit "no") ++ [newline]

theorem splitLines_setLine (enable : Int32) : splitLines (setLine enable) = [setLine enable] := by
  rw [setLine]
  split <;> decide

theorem keepsAlive_setLine (enable : Int32) : KeepsAlive (setLine enable) ↔ enable ≠ 0 := by
  rw [KeepsAlive, splitLines_setLine, setLine]
  by_cases on : enable ≠ 0
  · rw [if_pos on]
    exact iff_of_true (by decide) on
  · rw [if_neg on]
    exact iff_of_false (by decide) on

/-- What was set is what the check returns. -/
theorem check_after_set (stack enable : Int32) {files : Files}
    (openable : files.Openable fileAisdaemonConf) : (aisDaemonSet enable files).1 = 0 ∧
      (aisDaemonCheck stack (aisDaemonSet enable files).2 = 1 ↔ enable ≠ 0) := by
  have opens : (files.write fileAisdaemonConf (setLine enable)).openRead fileAisdaemonConf =
      some (setLine enable) := Files.openRead_write_self _ openable.1
  have short : ∀ line ∈ splitLines (setLine enable), line.length < 256 := by
    intro line listed
    rw [splitLines_setLine] at listed
    rw [List.mem_singleton.mp listed, setLine]
    split <;> decide
  have nonempty : setLine enable ≠ [] := List.append_ne_nil_of_right_ne_nil _ (by decide)
  rw [aisDaemonSet, if_pos openable.2]
  refine ⟨rfl, ?_⟩
  change aisDaemonCheck stack (files.write fileAisdaemonConf (setLine enable)) = 1 ↔ _
  rw [aisDaemonCheck_eq opens short, if_neg nonempty, ← keepsAlive_setLine enable]
  split
  · exact iff_of_true rfl ‹_›
  · exact iff_of_false (by decide) ‹_›

/-- The check returns what the file says exactly if the file has a line, or the variable that
is returned holds 0 by chance. -/
theorem checksKeepalive_iff (stack : Int32) {files : Files} {text : Text}
    (opens : files.openRead fileAisdaemonConf = some text)
    (short : ∀ line ∈ splitLines text, line.length < 256) :
    ChecksKeepalive stack files text ↔ text ≠ [] ∨ stack = 0 := by
  rw [ChecksKeepalive, and_iff_left fun enable openable => check_after_set stack enable openable,
    aisDaemonCheck_eq opens short]
  by_cases empty : text = []
  · have nothing : ¬ KeepsAlive [] := by decide
    rw [if_pos empty, empty, if_neg nothing]
    exact ⟨.inr, fun either => either.resolve_left (not_not_intro rfl)⟩
  · rw [if_neg empty]
    exact iff_of_true rfl (.inl empty)

/-- A configuration whose switch stands behind a comment. -/
def commentText : Text := lit "# alarms\nhost_keepalive=Yes\n"

def commentConf : Files := Files.empty.write fileAisdaemonConf commentText

theorem checksKeepalive_comment : commentConf.openRead fileAisdaemonConf = some commentText ∧
    (∀ line ∈ splitLines commentText, line.length < 256) ∧
    (ChecksKeepalive 7 commentConf commentText ↔ commentText ≠ [] ∨ (7 : Int32) = 0) :=
  have short : ∀ line ∈ splitLines commentText, line.length < 256 := forall_mem_of_all (by decide)
  ⟨rfl, short, checksKeepalive_iff 7 rfl short⟩

/-- A configuration without a line. -/
def emptyConf : Files := Files.empty.write fileAisdaemonConf []

/-- The check hands on whatever the variable held. -/
theorem empty_hands_on_stack : ¬ ChecksKeepalive 7 emptyConf [] := by
  rintro ⟨same, -⟩
  exact absurd same (by decide)

end Libamg.Dahdi
