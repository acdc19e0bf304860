import Libamg.Config.Value
import Libamg.Files

/-!
# extensions.conf

The dial plan file of `extensions.c`. `parseConfig` keeps no more than the last
line with an `=`: every line whose key is not `PREFIX` resets the configuration.
`parse_save` follows that through a whole written file.
-/

namespace Libamg.Extensions

open C

def fileExtensionsConf : Path := "/etc/asterisk/extensions.conf"

/-- `BUF_SIZE` of `extensions.c`. -/
def bufSize : Nat := 256

/-- `struct libamg_extensions_config`. -/
structure ExtensionsConfig where
  prefixEnable : Int32
  dialPrefix : Int32
deriving DecidableEq

/-! The text macros of `extensions.h`, as they stand there. -/

def extensionsGeneralContent : Text := lit
  "[general]\nstatic=yes\nwriteprotect=no\nautofallthrough=yes\nclearglobalvars=no\npriorityjumping=no\n"

def extensionsGlobalsContent : Text := lit "\n[globals]"

def extensionsGlobalsPrefix : Text := lit "PREFIX="

def extensionsAccountFromSpan1Content : Text := lit
  "\n[from-span1]\nexten => _X.,1,Noop()\nexten => _X.,n,Answer()\nexten => _X.,n,Ringing()\n"

def extensionsAccountFromSpan1DialStand : Text := lit
  "exten => _X.,n,Dial(SIP/${EXTEN}@User1&Local/s@nop)\n"

def extensionsAccountFromSpan1DialPrefix : Text := lit
  "exten => _X.,n,Dial(SIP/${PREFIX}${EXTEN}@User1&Local/s@nop)\n"

def extensionsAccountNopContent : Text := lit "\n[nop]\nexten => s,1,Hangup()\n"

def extensionsAccountFromSipContent : Text := lit
  "\n[from-sip]\nexten => _X.,1,Noop()\nexten => _X.,n,Dial(DAHDI/g1/${EXTEN})\n"

/-- What one `key=value` line does to the configuration. -/
def applySetting (key value : Text) (_conf : ExtensionsConfig) : ExtensionsConfig :=
  if key = lit "PREFIX" then
    { dialPrefix := atoi value, prefixEnable := 1 }
  else
    { dialPrefix := -1, prefixEnable := 0 }

/-- `libamg_extensions_parse_config`; `none` is the NULL it returns when the file
cannot be opened. -/
def parseConfig (files : Files) : Option ExtensionsConfig :=
  (files.openRead fileExtensionsConf).map
    (parseLines bufSize cropDelimiters applySetting { prefixEnable := 0, dialPrefix := 0 })

/-- The text that `libamg_extensions_save_config` prints. -/
def saveText (conf : ExtensionsConfig) : Text :=
  extensionsGeneralContent ++
  extensionsGlobalsContent ++
  (if conf.prefixEnable ≠ 0 then
    extensionsGlobalsPrefix ++ lit "=" ++ printShort conf.dialPrefix ++ lit "\n"
  else []) ++
  extensionsAccountFromSpan1Content ++
  (if conf.prefixEnable ≠ 0 then extensionsAccountFromSpan1DialPrefix
  else extensionsAccountFromSpan1DialStand) ++
  extensionsAccountNopContent ++
  extensionsAccountFromSipContent

/-- `libamg_extensions_save_config`: the returned status and the files afterwards. -/
def saveConfig (files : Files) (conf : ExtensionsConfig) : Int32 × Files :=
  if files.writable fileExtensionsConf then
    (0, files.write fileExtensionsConf (saveText conf))
  else
    (-1, files)

/-! ## The written file, line by line -/

def generalLines : List Entry :=
  [.other (lit "[general]"), .setting (lit "static") (lit "yes"),
    .setting (lit "writeprotect") (lit "no"), .setting (lit "autofallthrough") (lit "yes"),
    .setting (lit "clearglobalvars") (lit "no"), .setting (lit "priorityjumping") (lit "no")]

/-- The globals section. Its header lacks a newline, so the prefix setting runs
into it and gets another key; the second `=` is the one of the macro. -/
def globalsLines (conf : ExtensionsConfig) : List Entry :=
  if conf.prefixEnable ≠ 0 then
    [.other [], .setting (lit "[globals]PREFIX") (lit "=" ++ printShort conf.dialPrefix), .other []]
  else
    [.other [], .other (lit "[globals]")]

def fromSpan1Lines : List Entry :=
  [.other (lit "[from-span1]"), .setting (lit "exten ") (lit "> _X.,1,Noop()"),
    .setting (lit "exten ") (lit "> _X.,n,Answer()"),
    .setting (lit "exten ") (lit "> _X.,n,Ringing()")]

def dialLine (conf : ExtensionsConfig) : Entry :=
  .setting (lit "exten ")
    (if conf.prefixEnable ≠ 0 then lit "> _X.,n,Dial(SIP/${PREFIX}${EXTEN}@User1&Local/s@nop)"
    else lit "> _X.,n,Dial(SIP/${EXTEN}@User1&Local/s@nop)")

def nopLines : List Entry :=
  [.other [], .other (lit "[nop]"), .setting (lit "exten ") (lit "> s,1,Hangup()")]

def fromSipLines : List Entry :=
  [.other [], .other (lit "[from-sip]"), .setting (lit "exten ") (lit "> _X.,1,Noop()")]

/-- The last line of every written file. -/
def lastLine : Entry := .setting (lit "exten ") (lit "> _X.,n,Dial(DAHDI/g1/${EXTEN})")

/-- Everything before the last line. -/
def earlierLines (conf : ExtensionsConfig) : List Entry :=
  generalLines ++ (globalsLines conf ++ fromSpan1Lines) ++ dialLine conf :: (nopLines ++ fromSipLines)

theorem globals_text (conf : ExtensionsConfig) :
    extensionsGlobalsContent ++
      (if conf.prefixEnable ≠ 0 then
        extensionsGlobalsPrefix ++ lit "=" ++ printShort conf.dialPrefix ++ lit "\n"
      else []) ++ extensionsAccountFromSpan1Content =
    render (globalsLines conf ++ fromSpan1Lines) := by
  have fromSpan1 : extensionsAccountFromSpan1Content = newline :: render fromSpan1Lines := by
    decide
  by_cases enabled : conf.prefixEnable ≠ 0
  · rw [globalsLines, if_pos enabled, if_pos enabled, fromSpan1]
    simp only [render_cons, Entry.line, List.append_assoc, List.cons_append, List.nil_append]
    rfl
  · rw [globalsLines, if_neg enabled, if_neg enabled, fromSpan1]
    simp only [render_cons, Entry.line, List.append_assoc, List.cons_append, List.nil_append]
    rfl

theorem dial_text (conf : ExtensionsConfig) :
    (if conf.prefixEnable ≠ 0 then extensionsAccountFromSpan1DialPrefix
      else extensionsAccountFromSpan1DialStand) = render [dialLine conf] := by
  by_cases enabled : conf.prefixEnable ≠ 0
  · rw [dialLine, if_pos enabled, if_pos enabled]
    decide
  · rw [dialLine, if_neg enabled, if_neg enabled]
    decide

theorem saveText_eq_render (conf : ExtensionsConfig) :
    saveText conf = render (earlierLines conf ++ [lastLine]) := by
  have general : extensionsGeneralContent = render generalLines := by decide
  have tail : extensionsAccountNopContent ++ extensionsAccountFromSipContent =
      render (nopLines ++ fromSipLines ++ [lastLine]) := by decide
  calc saveText conf
      = extensionsGeneralContent ++
          (extensionsGlobalsContent ++
            (if conf.prefixEnable ≠ 0 then
              extensionsGlobalsPrefix ++ lit "=" ++ printShort conf.dialPrefix ++ lit "\n"
            else []) ++ extensionsAccountFromSpan1Content) ++
          (if conf.prefixEnable ≠ 0 then extensionsAccountFromSpan1DialPrefix
            else extensionsAccountFromSpan1DialStand) ++
          (extensionsAccountNopContent ++ extensionsAccountFromSipContent) := by
        simp only [saveText, List.append_assoc]
    _ = render generalLines ++ render (globalsLines conf ++ fromSpan1Lines) ++
          render [dialLine conf] ++ render (nopLines ++ fromSipLines ++ [lastLine]) := by
        rw [general, globals_text, dial_text, tail]
    _ = render (earlierLines conf ++ [lastLine]) := by
        simp only [earlierLines, ← render_append, List.append_assoc, List.cons_append,
          List.nil_append]

theorem globalsLines_wellFormed (conf : ExtensionsConfig) :
    ∀ entry ∈ globalsLines conf, entry.WellFormed bufSize := by
  intro entry member
  unfold globalsLines at member
  split at member
  · have number := printShort_isWord conf.dialPrefix
    have width := printShort_length_le conf.dialPrefix
    have prefixLine : Entry.WellFormed bufSize
        (.setting (lit "[globals]PREFIX") (lit "=" ++ printShort conf.dialPrefix)) := by
      have value : IsWord (lit "=" ++ printShort conf.dialPrefix) :=
        IsWord.append (by decide) number
      refine .ofSetting (by decide) ⟨value.newline_notMem, value.nul_notMem⟩ ?_
      have keyLength : (lit "[globals]PREFIX").length = 15 := rfl
      have equalsLength : (lit "=").length = 1 := rfl
      rw [List.length_append, keyLength, equalsLength, bufSize]
      omega
    simp only [List.mem_cons, List.not_mem_nil, or_false] at member
    rcases member with rfl | rfl | rfl
    · decide
    · exact prefixLine
    · decide
  · simp only [List.mem_cons, List.not_mem_nil, or_false] at member
    rcases member with rfl | rfl <;> decide

theorem fileLines_wellFormed (conf : ExtensionsConfig) :
    ∀ entry ∈ earlierLines conf ++ [lastLine], entry.WellFormed bufSize := by
  have fixed : ∀ entry ∈ generalLines ++ fromSpan1Lines ++ nopLines ++ fromSipLines ++ [lastLine],
      entry.WellFormed bufSize := by decide
  have dial : (dialLine conf).WellFormed bufSize := by
    by_cases enabled : conf.prefixEnable ≠ 0
    · rw [dialLine, if_pos enabled]
      decide
    · rw [dialLine, if_neg enabled]
      decide
  have globals := globalsLines_wellFormed conf
  intro entry member
  simp only [earlierLines, List.mem_append, List.mem_cons] at member fixed
  grind

/-- The last line decides: any key but `PREFIX` leaves the prefix disabled. -/
theorem parseLines_last {earlier : List Entry} {key value : Text} (init : ExtensionsConfig)
    (wellFormed : ∀ entry ∈ earlier ++ [.setting key value], entry.WellFormed bufSize)
    (otherKey : key ≠ lit "PREFIX") :
    parseLines bufSize cropDelimiters applySetting init
      (render (earlier ++ [.setting key value])) = { prefixEnable := 0, dialPrefix := -1 } := by
  rw [parseLines_render applySetting init wellFormed, List.foldl_append, List.foldl_cons,
    List.foldl_nil, applyEntry, applySetting, if_neg otherKey]

/-- Reading back a written file finds the prefix disabled, whatever was saved. -/
theorem parse_save {files : Files} (openable : files.Openable fileExtensionsConf)
    (conf : ExtensionsConfig) :
    saveConfig files conf = (0, files.write fileExtensionsConf (saveText conf)) ∧
      parseConfig (files.write fileExtensionsConf (saveText conf)) =
        some { prefixEnable := 0, dialPrefix := -1 } := by
  constructor
  · rw [saveConfig, if_pos openable.2]
  · have lastKey : lit "exten " ≠ lit "PREFIX" := by decide
    rw [parseConfig, Files.openRead_write_self _ openable.1, Option.map_some, saveText_eq_render,
      lastLine, parseLines_last _ (fileLines_wellFormed conf) lastKey]

/-! ## Parse undoes save -/

/-- Saving a configuration and parsing the file gives back its prefix setting. -/
def Restores (files : Files) (conf : ExtensionsConfig) : Prop :=
  ∃ saved reread, saveConfig files conf = (0, saved) ∧ parseConfig saved = some reread ∧
    (conf.prefixEnable = 1 → reread.prefixEnable = 1 ∧ reread.dialPrefix = conf.dialPrefix) ∧
    (conf.prefixEnable = 0 → reread.prefixEnable = 0)

/-- The configurations that a round trip is expected of. -/
structure Representable (conf : ExtensionsConfig) : Prop where
  flag : conf.prefixEnable = 0 ∨ conf.prefixEnable = 1
  range : conf.prefixEnable = 1 → 0 ≤ conf.dialPrefix ∧ conf.dialPrefix ≤ 32767

instance (conf : ExtensionsConfig) : Decidable (Representable conf) :=
  decidable_of_iff
    ((conf.prefixEnable = 0 ∨ conf.prefixEnable = 1) ∧
      (conf.prefixEnable = 1 → 0 ≤ conf.dialPrefix ∧ conf.dialPrefix ≤ 32767))
    ⟨fun parts => ⟨parts.1, parts.2⟩, fun domain => ⟨domain.flag, domain.range⟩⟩

/-- The round trip works exactly for the configurations without a prefix. -/
theorem restores_iff_prefix_disabled {files : Files}
    (openable : files.Openable fileExtensionsConf) {conf : ExtensionsConfig}
    (representable : Representable conf) : Restores files conf ↔ conf.prefixEnable = 0 := by
  obtain ⟨saved, reread⟩ := parse_save openable conf
  constructor
  · rintro ⟨savedFiles, rereadConf, saveEq, parseEq, enabled, _⟩
    rw [saved] at saveEq
    obtain ⟨_, rfl⟩ := Prod.mk.inj saveEq
    rw [reread] at parseEq
    cases parseEq
    rcases representable.flag with off | on
    · exact off
    · exact absurd (enabled on).1 (by decide)
  · intro off
    refine ⟨_, _, saved, reread, ?_, fun _ => rfl⟩
    intro on
    rw [off] at on
    exact absurd on (by decide)

theorem restores_iff_prefix_disabled_witness :
    Files.empty.Openable fileExtensionsConf ∧ Representable ⟨1, 55⟩ ∧
      (Restores Files.empty ⟨1, 55⟩ ↔ (1 : Int32) = 0) :=
  ⟨by decide, by decide, restores_iff_prefix_disabled (by decide) (by decide)⟩

/-- Prefix 55 is written and read back as disabled. -/
theorem prefix_lost :
    Representable ⟨1, 55⟩ ∧ Files.empty.Openable fileExtensionsConf ∧
      ¬ Restores Files.empty ⟨1, 55⟩ := by
  refine ⟨by decide, by decide, ?_⟩
  rintro ⟨saved, reread, saveEq, parseEq, enabled, _⟩
  obtain ⟨savedEq, rereadEq⟩ := @parse_save Files.empty (by decide) ⟨1, 55⟩
  rw [savedEq] at saveEq
  obtain ⟨_, rfl⟩ := Prod.mk.inj saveEq
  rw [rereadEq] at parseEq
  cases parseEq
  exact absurd (enabled rfl).1 (by decide)

end Libamg.Extensions
