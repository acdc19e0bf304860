import Libamg.Config.Extensions
import Libamg.Config.MissingFiles
import Libamg.Dahdi.RoundTrip
import Libamg.Semantics.Placement
import Libamg.Semantics.Run

/-!
# The configuration files as a store

Callers parse, change and save the configurations in any order, and what `fopen` answers
changes under them. The files are then a store that remembers what was saved last
(`configRun_same`): a parse answers the normal form of that, a save of `comcerto.conf`
saves the SIP configuration once more with another jitter buffer, and a save of the spans
that fails half-way leaves the one file new and the other one old.
-/

namespace Libamg

open C Semantics

/-! ## What a file says -/

namespace Sip

theorem Printable.strncpy_cropped {size count : Nat} {array : CharArray size}
    (printable : Printable array) (fits : count ≤ size) (room : size ≤ count + 1)
    (several : 2 ≤ size) :
    Printable ((CharArray.zero size).strncpy (cropped (bare array.str)) count fits) := by
  rcases printable.shape with isNewline | word
  · have short : ([newline] : Text).length ≤ count := by
      rw [List.length_singleton]
      omega
    have inside : ([newline] : Text).length < size := several
    rw [isNewline]
    exact ⟨CharArray.strncpy_zero_terminated fits short inside,
      .inl (CharArray.str_strncpy_zero fits (by decide) short inside)⟩
  · exact Comcerto.printable_strncpy_cropped ⟨printable.terminated, word⟩ fits room several

/-- What was parsed can be saved again, with any jitter buffer. -/
theorem PrintableStrings.reread {conf : SipConfig} (strings : PrintableStrings conf)
    (jbConf : Comcerto.JbConfig) : PrintableStrings { conf.reread with jbConf := jbConf } where
  sessionTimers := strings.sessionTimers.strncpy_cropped (by decide) (by decide) (by decide)
  sessionRefresher := strings.sessionRefresher.strncpy_cropped (by decide) (by decide) (by decide)
  registerUsername := strings.registerUsername.strncpy_cropped (by decide) (by decide) (by decide)
  registerSecret := strings.registerSecret.strncpy_cropped (by decide) (by decide) (by decide)
  registerHost := strings.registerHost.strncpy_cropped (by decide) (by decide) (by decide)
  host := Comcerto.word_strncpy strings.host (by decide) (by decide)
  username := Comcerto.word_strncpy strings.username (by decide) (by decide)
  secret := Comcerto.word_strncpy strings.secret (by decide) (by decide)
  dtmfmode := strings.dtmfmode.strncpy_cropped (by decide) (by decide) (by decide)
  callerid := Comcerto.word_strncpy strings.callerid (by decide) (by decide)
  fromuser := Comcerto.word_strncpy strings.fromuser (by decide) (by decide)
  insecure := Comcerto.word_strncpy strings.insecure (by decide) (by decide)
  transport := Comcerto.word_strncpy strings.transport (by decide) (by decide)

end Sip

namespace Extensions

/-- Whatever was saved, the prefix is found disabled. -/
theorem parseConfig_text {files : Files} {conf : ExtensionsConfig}
    (opened : files.openRead fileExtensionsConf = some (saveText conf)) :
    parseConfig files = some { prefixEnable := 0, dialPrefix := -1 } := by
  have lastKey : lit "exten " ≠ lit "PREFIX" := by decide
  rw [parseConfig, opened, Option.map_some, saveText_eq_render, lastLine,
    parseLines_last _ (fileLines_wellFormed conf) lastKey]

end Extensions

namespace Comcerto

theorem parseConfig_text {files : Files} {conf : ComcertoConfig}
    (opened : files.openRead fileComcertoConf = some (saveText conf)) :
    parseConfig files = some conf.reread := by
  rw [parseConfig, opened, Option.map_some, parseLines_saveText]

/-- Without `sip.conf` a save goes wrong, behind the write of its own file. -/
theorem saveConfig_noSip (charSigned : Bool) {files : Files} {conf : ComcertoConfig}
    (writable : files.writable fileComcertoConf = true)
    (missing : files.openRead Sip.fileSipConf = none) :
    saveConfig charSigned files conf = .error .nullPointer := by
  have different : Sip.fileSipConf ≠ fileComcertoConf := by decide
  have stillMissing : (files.write fileComcertoConf (saveText conf)).openRead Sip.fileSipConf = none := by
    rw [Files.openRead_write_of_ne _ _ different]
    exact missing
  rw [saveConfig, if_pos writable]
  simp only [Sip.parseConfig, stillMissing]
  rfl

/-- A save behind a save of `sip`, which it carries the jitter buffer over to. -/
theorem saveConfig_carries (charSigned : Bool) {files other : Files} {sip : Sip.SipConfig}
    {conf : ComcertoConfig} (writable : files.writable fileComcertoConf = true)
    (opened : files.openRead Sip.fileSipConf = some (render (Sip.fileLines other sip)))
    (strings : Sip.PrintableStrings sip) :
    saveConfig charSigned files conf =
      if files.writable Sip.fileSipConf then
        .ok (0, (files.write fileComcertoConf (saveText conf)).write Sip.fileSipConf
          (render (Sip.fileLines (files.write fileComcertoConf (saveText conf)) (carried sip conf))))
      else .ok (-1, files.write fileComcertoConf (saveText conf)) := by
  have different : Sip.fileSipConf ≠ fileComcertoConf := by decide
  have reopened : (files.write fileComcertoConf (saveText conf)).openRead Sip.fileSipConf =
      some (render (Sip.fileLines other sip)) := by
    rw [Files.openRead_write_of_ne _ _ different]
    exact opened
  have parsed := Sip.parseConfig_eq charSigned reopened strings
  rw [saveConfig, if_pos writable]
  simp only [parsed]
  by_cases sipWritable : files.writable Sip.fileSipConf = true
  · have saved := @Sip.saveConfig_eq charSigned (files.write fileComcertoConf (saveText conf))
      (carried sip conf) sipWritable (strings.reread conf.jbConf)
    rw [if_pos sipWritable]
    change (Sip.saveConfig charSigned _ (carried sip conf) >>= _) = _
    rw [saved]
    rfl
  · have refused : Sip.saveConfig charSigned (files.write fileComcertoConf (saveText conf))
        (carried sip conf) =
        .ok (-1, carried sip conf, files.write fileComcertoConf (saveText conf)) := if_neg sipWritable
    rw [if_neg sipWritable]
    change (Sip.saveConfig charSigned _ (carried sip conf) >>= _) = _
    rw [refused]
    rfl

end Comcerto

namespace SysLog

/-- The lines of the file where a host may be a lone newline. -/
def textLines (conf : SysLogConfig) : List Entry :=
  [.setting (lit "remote_enable") (printInt conf.remoteEnable.toInt),
    .setting (lit "loglevel") (printInt conf.loglevel.toInt)] ++
    Sip.textLines "remote_host" conf.remoteHost.str

theorem saveText_eq_textLines {conf : SysLogConfig} (printable : Sip.Printable conf.remoteHost) :
    saveText conf = .ok (render (textLines conf)) := by
  have host := Sip.stringField_eq "remote_host" printable
  rw [Sip.stringField, CharArray.read_eq_str printable.terminated] at host
  rw [saveText, CharArray.read_eq_str printable.terminated, textLines, render_append, render_setting,
    render_setting, render_nil, List.append_nil, ← Except.ok.inj host]
  rfl

theorem parseConfig_text {files : Files} {conf : SysLogConfig} {text : Text}
    (printable : Sip.Printable conf.remoteHost) (saved : saveText conf = .ok text)
    (opened : files.openRead fileSysLogConf = some text) : parseConfig files = some conf.reread := by
  have wellFormed : ∀ entry ∈ textLines conf, entry.WellFormed bufSize := by
    simp only [textLines, List.forall_mem_append, List.forall_mem_cons]
    exact ⟨⟨(Plain.printInt _).wellFormed (by decide), (Plain.printInt _).wellFormed (by decide),
      by simp⟩, Sip.textLines_wellFormed printable (by decide) (by decide)⟩
  rw [saveText_eq_textLines printable] at saved
  cases saved
  have host : cropped (Sip.bare conf.remoteHost.str) = cropped conf.remoteHost.str := by
    rcases printable.shape with isNewline | word
    · rw [isNewline]
      rfl
    · rw [Sip.bare_of_word word]
  rw [parseConfig, opened, Option.map_some, parseLines_render applySetting .zero wellFormed, textLines,
    List.foldl_append, Sip.textLines]
  split <;>
    simp only [List.foldl_cons, List.foldl_nil, applyEntry, applySetting, lit_inj,
      String.reduceEq, ↓reduceIte, (Plain.printInt _).crop, crop_bare printable.bare_isWord,
      atoi_printInt, host] <;>
    rfl

end SysLog

namespace Dahdi

/-- A span that can be saved: one that is switched off, or one that a round trip keeps. -/
def Saveable (span : Span) : Prop := span.enable = 0 ∨ Representable span

/-- What is found in `chan_dahdi.conf` behind a save. The lines in front of the spans enable
the first one, also if it was switched off. -/
def Span.readChannels (span : Span) : Span :=
  if span.enable = 0 then { Span.zero with enable := 1 } else span.rereadChannels

/-- What `system.conf` adds to that. -/
def Span.readClock (span read : Span) : Span :=
  if span.enable = 0 then read
  else { read with clock := span.clock, crc := truth span.crc, enable := 1 }

theorem chanDahdiText_disabled {spans : Spans} (disabled : spans.first.enable = 0) :
    chanDahdiText false spans = .ok (render headerLines) := by
  have printed : chanDahdiSpanText false 0 spans.first = .ok [] := if_pos disabled
  have indices : List.finRange numSpans = [⟨0, Nat.one_pos⟩] := rfl
  rw [chanDahdiText, indices, List.mapM_cons, List.mapM_nil]
  change ((chanDahdiSpanText false 0 spans.first >>= _) >>= _) = _
  rw [printed, chanDahdiContent_eq]
  change Except.ok (render headerLines ++ [([] : Text)].flatten) = _
  rw [List.flatten_singleton, List.append_nil]

theorem systemText_disabled {spans : Spans} (disabled : spans.first.enable = 0) :
    systemText spans = render [.setting (lit "loadzone") (lit "br"),
      .setting (lit "defaultzone") (lit "br")] := by
  have spanText : systemSpanText 0 spans.first = [] := if_pos disabled
  have spansText : systemText spans =
      dahdiSystemContent ++ (systemSpanText 0 spans.first ++ []) := rfl
  have header : dahdiSystemContent = render [.setting (lit "loadzone") (lit "br"),
      .setting (lit "defaultzone") (lit "br")] := by decide
  rw [spansText, spanText, header]
  rfl

theorem parseChanDahdiConf_text {files : Files} {spans : Spans} {text : Text}
    (saveable : Saveable spans.first) (saved : chanDahdiText false spans = .ok text)
    (opened : files.openRead fileChanDahdiConf = some text) :
    parseChanDahdiConf false files .zero =
      .ok (0, Spans.zero.update fun _ => spans.first.readChannels) := by
  rcases saveable with disabled | representable
  · have wellFormed : ∀ entry ∈ headerLines, entry.WellFormed bufSize := by decide
    rw [chanDahdiText_disabled disabled] at saved
    cases saved
    rw [parseChanDahdiConf, opened]
    simp only [parseLines_render _ _ wellFormed]
    rw [← readLines, readLines_headerLines, Span.readChannels, if_pos disabled]
    rfl
  · rw [chanDahdiText_eq representable.enable representable.terminated] at saved
    cases saved
    rw [parseChanDahdiConf_saved representable opened, Span.readChannels,
      if_neg representable.enable]

theorem parseSystemConf_text {files : Files} {spans : Spans} (read : Spans)
    (saveable : Saveable spans.first)
    (opened : files.openRead fileDahdiSystemConf = some (systemText spans)) :
    parseSystemConf files read = .ok (0, read.update spans.first.readClock) := by
  rcases saveable with disabled | representable
  · have wellFormed : ∀ entry ∈ [Entry.setting (lit "loadzone") (lit "br"),
        .setting (lit "defaultzone") (lit "br")], entry.WellFormed bufSize := by decide
    have loadzone : systemStep (.ok read)
        ((Entry.setting (lit "loadzone") (lit "br")).line ++ [newline]) = .ok read :=
      systemStep_other (by decide)
    have defaultzone : systemStep (.ok read)
        ((Entry.setting (lit "defaultzone") (lit "br")).line ++ [newline]) = .ok read :=
      systemStep_other (by decide)
    have unchanged : read.update spans.first.readClock = read :=
      Spans.ext_first (by rw [Spans.first_update, Span.readClock, if_pos disabled])
    rw [parseSystemConf, opened, systemText_disabled disabled]
    simp only [fgetsLines_render wellFormed, List.map_cons, List.map_nil, List.foldl_cons,
      List.foldl_nil]
    rw [loadzone, defaultzone, unchanged]
    rfl
  · rw [systemText_eq representable.enable] at opened
    have changed : (fun read : Span => spans.first.readClock read) = fun read => { read with
        clock := spans.first.clock
        crc := truth spans.first.crc
        enable := 1 } := by
      funext read
      rw [Span.readClock, if_neg representable.enable]
    rw [parseSystemConf_saved read representable.clock opened, ← changed]

/-- What is found in the two files, which need not be of the same save. -/
def rereadSpans (chanDahdi system : Spans) : Spans :=
  Spans.zero.update fun _ => system.first.readClock chanDahdi.first.readChannels

theorem parseConfig_texts {files : Files} {chanDahdi system : Spans} {text : Text}
    (chanSaveable : Saveable chanDahdi.first) (saved : chanDahdiText false chanDahdi = .ok text)
    (chanOpened : files.openRead fileChanDahdiConf = some text) (saveable : Saveable system.first)
    (opened : files.openRead fileDahdiSystemConf = some (systemText system)) :
    parseConfig false files = .ok (some (rereadSpans chanDahdi system)) := by
  rw [parseConfig, parseChanDahdiConf_text chanSaveable saved chanOpened, Checked.ok_bind]
  simp only [ne_eq, not_true_eq_false, ↓reduceIte]
  rw [parseSystemConf_text _ saveable opened, Checked.ok_bind]
  simp only [not_true_eq_false, ↓reduceIte]
  refine congrArg (fun spans => Except.ok (some spans)) (Spans.ext_first ?_)
  rw [rereadSpans]
  simp only [Spans.first_update]

theorem parseConfig_noChannels {files : Files} (missing : files.openRead fileChanDahdiConf = none) :
    parseConfig false files = .ok none := by
  rw [parseConfig, parseChanDahdiConf, missing]
  rfl

theorem parseConfig_noSystem {files : Files} {chanDahdi : Spans} {text : Text}
    (saveable : Saveable chanDahdi.first) (saved : chanDahdiText false chanDahdi = .ok text)
    (opened : files.openRead fileChanDahdiConf = some text)
    (missing : files.openRead fileDahdiSystemConf = none) :
    parseConfig false files = .ok none := by
  rw [parseConfig, parseChanDahdiConf_text saveable saved opened, Checked.ok_bind]
  simp only [ne_eq, not_true_eq_false, ↓reduceIte]
  rw [parseSystemConf, missing]
  rfl

theorem chanDahdiText_saveable {spans : Spans} (saveable : Saveable spans.first) :
    ∃ text, chanDahdiText false spans = .ok text := by
  rcases saveable with disabled | representable
  · exact ⟨_, chanDahdiText_disabled disabled⟩
  · exact ⟨_, chanDahdiText_eq representable.enable representable.terminated⟩

end Dahdi

/-! ## The store -/

/-- The files that the library writes. -/
inductive ConfigFile where
  | sip
  | comcerto
  | extensions
  | sysLog
  | system
  | chanDahdi
deriving DecidableEq

namespace ConfigFile

def path : ConfigFile → Path
  | sip => Sip.fileSipConf
  | comcerto => Comcerto.fileComcertoConf
  | extensions => Extensions.fileExtensionsConf
  | sysLog => SysLog.fileSysLogConf
  | system => Dahdi.fileDahdiSystemConf
  | chanDahdi => Dahdi.fileChanDahdiConf

theorem path_injective : Function.Injective path := by
  intro first second same
  cases first <;> cases second <;> first | rfl | exact absurd same (by decide)

/-- What is saved in a file. -/
abbrev Value : ConfigFile → Type
  | sip => Sip.SipConfig
  | comcerto => Comcerto.ComcertoConfig
  | extensions => Extensions.ExtensionsConfig
  | sysLog => SysLog.SysLogConfig
  | system => Dahdi.Spans
  | chanDahdi => Dahdi.Spans

/-- The text is one that a save of the value prints. The text of a SIP configuration also
depends on the intervals that `comcerto.conf` held at the time. -/
def Printed : (file : ConfigFile) → file.Value → Text → Prop
  | sip, conf, text =>
      Sip.PrintableStrings conf ∧ ∃ files, text = render (Sip.fileLines files conf)
  | comcerto, conf, text => text = Comcerto.saveText conf
  | extensions, conf, text => text = Extensions.saveText conf
  | sysLog, conf, text => Sip.Printable conf.remoteHost ∧ SysLog.saveText conf = .ok text
  | system, spans, text => Dahdi.Saveable spans.first ∧ text = Dahdi.systemText spans
  | chanDahdi, spans, text =>
      Dahdi.Saveable spans.first ∧ Dahdi.chanDahdiText false spans = .ok text

end ConfigFile

/-- Each configuration is printed into its file. -/
def configPlacement : Placement ConfigFile ConfigFile.Value Path Text where
  place := ConfigFile.path
  apart := ConfigFile.path_injective
  Printed := ConfigFile.Printed

/-- What was saved last, and what `fopen` answers. -/
structure ConfigStore where
  readable : Path → Bool
  writable : Path → Bool
  saved : (file : ConfigFile) → Option file.Value

/-- A call of the library, or a change of what `fopen` answers. -/
inductive ConfigCall where
  | permit (path : Path) (readable writable : Bool)
  | sipParse
  | sipSave (conf : Sip.SipConfig)
  | minCodecIntvl
  | comcertoParse
  | comcertoSave (conf : Comcerto.ComcertoConfig)
  | cngEnable
  | vadEnable
  | packetizationInterval (codecCode : Int32)
  | extensionsParse
  | extensionsSave (conf : Extensions.ExtensionsConfig)
  | sysLogParse
  | sysLogSave (conf : SysLog.SysLogConfig)
  | sysLogApply
  | dahdiParse
  | dahdiSave (spans : Dahdi.Spans)

inductive ConfigAnswer where
  | done
  | number (value : Int32)
  | sip (conf : Option Sip.SipConfig)
  | sipSaved (status : Int32) (conf : Sip.SipConfig)
  | comcerto (conf : Option Comcerto.ComcertoConfig)
  | extensions (conf : Option Extensions.ExtensionsConfig)
  | sysLog (conf : Option SysLog.SysLogConfig)
  | applied (commands : List Text) (status : Int32)
  | dahdi (spans : Option Dahdi.Spans)

/-- A call on the files. The spans are those of the build without
`DAHDI_CHANNEL_STANDARD_MODE`. -/
def configStep (charSigned : Bool) (files : Files) : ConfigCall → Checked (ConfigAnswer × Files)
  | .permit path readable writable => .ok (.done,
      ⟨files.content, Function.update files.readable path readable,
        Function.update files.writable path writable⟩)
  | .sipParse => do
      let conf ← Sip.parseConfig charSigned files
      return (.sip conf, files)
  | .sipSave conf => do
      let (status, stripped, files) ← Sip.saveConfig charSigned files conf
      return (.sipSaved status stripped, files)
  | .minCodecIntvl => do
      let interval ← Sip.getMinCodecIntvl charSigned files
      return (.number interval, files)
  | .comcertoParse => .ok (.comcerto (Comcerto.parseConfig files), files)
  | .comcertoSave conf => do
      let (status, files) ← Comcerto.saveConfig charSigned files conf
      return (.number status, files)
  | .cngEnable => do
      let enable ← Comcerto.getCngEnable files
      return (.number enable, files)
  | .vadEnable => do
      let enable ← Comcerto.getVadEnable files
      return (.number enable, files)
  | .packetizationInterval codecCode =>
      .ok (.number (Comcerto.getCodecPacketizationInterval files codecCode), files)
  | .extensionsParse => .ok (.extensions (Extensions.parseConfig files), files)
  | .extensionsSave conf =>
      .ok (.number (Extensions.saveConfig files conf).1, (Extensions.saveConfig files conf).2)
  | .sysLogParse => .ok (.sysLog (SysLog.parseConfig files), files)
  | .sysLogSave conf => do
      let (status, files) ← SysLog.saveConfig files conf
      return (.number status, files)
  | .sysLogApply => do
      let (commands, status) ← SysLog.daemonApplyConfig files
      return (.applied commands status, files)
  | .dahdiParse => do
      let spans ← Dahdi.parseConfig false files
      return (.dahdi spans, files)
  | .dahdiSave spans => do
      let (status, files) ← Dahdi.saveConfig false files spans
      return (.number status, files)

namespace ConfigStore

/-- What was saved in a file that can be opened. -/
def read (store : ConfigStore) (file : ConfigFile) : Option file.Value :=
  if store.readable file.path then store.saved file else none

def put (store : ConfigStore) (file : ConfigFile) (value : file.Value) : ConfigStore :=
  { store with saved := Function.update store.saved file (some value) }

/-! What each parser finds. -/

def sip (store : ConfigStore) : Option Sip.SipConfig := (store.read .sip).map Sip.SipConfig.reread

def comcerto (store : ConfigStore) : Option Comcerto.ComcertoConfig :=
  (store.read .comcerto).map Comcerto.ComcertoConfig.reread

def extensions (store : ConfigStore) : Option Extensions.ExtensionsConfig :=
  (store.read .extensions).map fun _ => { prefixEnable := 0, dialPrefix := -1 }

def sysLog (store : ConfigStore) : Option SysLog.SysLogConfig :=
  (store.read .sysLog).map SysLog.SysLogConfig.reread

def dahdi (store : ConfigStore) : Option Dahdi.Spans := do
  let chanDahdi ← store.read .chanDahdi
  let system ← store.read .system
  return Dahdi.rereadSpans chanDahdi system

/-- A save that writes one file. -/
def save (store : ConfigStore) (file : ConfigFile) (value : file.Value) : Int32 × ConfigStore :=
  if store.writable file.path then (0, store.put file value) else (-1, store)

/-- The jitter buffer goes to the SIP configuration, which is parsed and saved for that. -/
def saveComcerto (store : ConfigStore) (conf : Comcerto.ComcertoConfig) :
    Checked (Int32 × ConfigStore) :=
  if store.writable Comcerto.fileComcertoConf then do
    let sip ← deref store.sip
    return (store.put .comcerto conf).save .sip { sip with jbConf := conf.jbConf }
  else return (-1, store)

/-- The second file is not written behind a failure of the first one, and the first one stays
written behind a failure of the second. -/
def saveDahdi (store : ConfigStore) (spans : Dahdi.Spans) : Int32 × ConfigStore :=
  let (status, store) := store.save .system spans
  if status ≠ 0 then (status, store) else store.save .chanDahdi spans

/-- A call on the store. -/
def step (charSigned : Bool) (store : ConfigStore) :
    ConfigCall → Checked (ConfigAnswer × ConfigStore)
  | .permit path readable writable => .ok (.done,
      ⟨Function.update store.readable path readable, Function.update store.writable path writable,
        store.saved⟩)
  | .sipParse => .ok (.sip store.sip, store)
  | .sipSave conf =>
      if store.writable Sip.fileSipConf then
        .ok (.sipSaved 0 (conf.stripped charSigned), store.put .sip conf)
      else .ok (.sipSaved (-1) conf, store)
  | .minCodecIntvl => do
      let conf ← deref store.comcerto
      let sip ← deref store.sip
      let table := Sip.codecsIntvlArray conf.codecsIntvl
      let interval ← sip.account.allow.toList.foldlM (Sip.allowStep table) 0
      return (.number interval, store)
  | .comcertoParse => .ok (.comcerto store.comcerto, store)
  | .comcertoSave conf => do
      let (status, store) ← store.saveComcerto conf
      return (.number status, store)
  | .cngEnable => do
      let conf ← deref store.comcerto
      return (.number conf.cngEnable, store)
  | .vadEnable => do
      let conf ← deref store.comcerto
      return (.number conf.vadEnable, store)
  | .packetizationInterval codecCode =>
      let interval := store.comcerto.bind fun conf => conf.codecsIntvl.ofCode codecCode
      .ok (.number (interval.getD 20), store)
  | .extensionsParse => .ok (.extensions store.extensions, store)
  | .extensionsSave conf =>
      .ok (.number (store.save .extensions conf).1, (store.save .extensions conf).2)
  | .sysLogParse => .ok (.sysLog store.sysLog, store)
  | .sysLogSave conf => .ok (.number (store.save .sysLog conf).1, (store.save .sysLog conf).2)
  | .sysLogApply => do
      let conf ← deref store.sysLog
      return (.applied (SysLog.commands conf) 0, store)
  | .dahdiParse => .ok (.dahdi store.dahdi, store)
  | .dahdiSave spans => .ok (.number (store.saveDahdi spans).1, (store.saveDahdi spans).2)

theorem save_granted (store : ConfigStore) (file : ConfigFile) (value : file.Value)
    (writable : store.writable file.path = true) :
    store.save file value = (0, store.put file value) := if_pos writable

theorem save_refused (store : ConfigStore) (file : ConfigFile) (value : file.Value)
    (readOnly : ¬ store.writable file.path = true) : store.save file value = (-1, store) :=
  if_neg readOnly

end ConfigStore

/-- The configurations that can be saved: their strings are words, or a lone newline where
the parser leaves one. -/
def ConfigCall.Admitted : ConfigCall → Prop
  | sipSave conf => Sip.PrintableStrings conf
  | sysLogSave conf => Sip.Printable conf.remoteHost
  | dahdiSave spans => Dahdi.Saveable spans.first
  | _ => True

/-! ## The files hold what the store remembers -/

/-- The files hold what was saved in the store. -/
structure ConfigStore.InFiles (store : ConfigStore) (files : Files) : Prop where
  readable : files.readable = store.readable
  writable : files.writable = store.writable
  keeps : configPlacement.Keeps files.content store.saved

section Calls

variable {charSigned : Bool} {files : Files} {store : ConfigStore}

theorem Files.write_content (files : Files) (path : Path) (text : Text) :
    (files.write path text).content = Function.update files.content path (some text) := by
  funext other
  rw [Function.update_apply]
  rfl

namespace ConfigStore.InFiles

/-- A file that cannot be opened, or one with the text of what was saved last. -/
theorem cases (inFiles : store.InFiles files) (file : ConfigFile) :
    (store.read file = none ∧ files.openRead file.path = none) ∨
      ∃ value text, store.read file = some value ∧ files.openRead file.path = some text ∧
        file.Printed value text := by
  rw [ConfigStore.read, Files.openRead, inFiles.readable]
  by_cases readable : store.readable file.path = true
  · rw [if_pos readable, if_pos readable]
    have kept : Option.Rel file.Printed (store.saved file) (files.content file.path) :=
      inFiles.keeps file
    generalize store.saved file = saved at kept ⊢
    generalize files.content file.path = content at kept ⊢
    cases kept with
    | none => exact .inl ⟨rfl, rfl⟩
    | some printed => exact .inr ⟨_, _, rfl, rfl, printed⟩
  · rw [if_neg readable, if_neg readable]
    exact .inl ⟨rfl, rfl⟩

theorem put (inFiles : store.InFiles files) (file : ConfigFile) {value : file.Value} {text : Text}
    (printed : file.Printed value text) :
    (store.put file value).InFiles (files.write file.path text) where
  readable := inFiles.readable
  writable := inFiles.writable
  keeps := by
    rw [Files.write_content]
    exact Placement.Keeps.put inFiles.keeps printed

theorem permit (inFiles : store.InFiles files) (path : Path) (readable writable : Bool) :
    InFiles ⟨Function.update store.readable path readable,
      Function.update store.writable path writable, store.saved⟩
      ⟨files.content, Function.update files.readable path readable,
        Function.update files.writable path writable⟩ where
  readable := by rw [inFiles.readable]
  writable := by rw [inFiles.writable]
  keeps := inFiles.keeps

/-! What the parsers find. -/

theorem sipParse (inFiles : store.InFiles files) (charSigned : Bool) :
    Sip.parseConfig charSigned files = .ok store.sip := by
  rw [ConfigStore.sip]
  rcases inFiles.cases .sip with ⟨read, opened⟩ | ⟨conf, text, read, opened, strings, other, rfl⟩
  · rw [read, Sip.parseConfig, show files.openRead Sip.fileSipConf = none from opened]
    rfl
  · rw [read]
    exact Sip.parseConfig_eq charSigned opened strings

theorem comcertoParse (inFiles : store.InFiles files) :
    Comcerto.parseConfig files = store.comcerto := by
  rw [ConfigStore.comcerto]
  rcases inFiles.cases .comcerto with ⟨read, opened⟩ | ⟨conf, text, read, opened, rfl⟩
  · rw [read, Comcerto.parseConfig, show files.openRead Comcerto.fileComcertoConf = none from opened]
    rfl
  · rw [read]
    exact Comcerto.parseConfig_text opened

theorem extensionsParse (inFiles : store.InFiles files) :
    Extensions.parseConfig files = store.extensions := by
  rw [ConfigStore.extensions]
  rcases inFiles.cases .extensions with ⟨read, opened⟩ | ⟨conf, text, read, opened, rfl⟩
  · rw [read, Extensions.parseConfig,
      show files.openRead Extensions.fileExtensionsConf = none from opened]
    rfl
  · rw [read]
    exact Extensions.parseConfig_text opened

theorem sysLogParse (inFiles : store.InFiles files) : SysLog.parseConfig files = store.sysLog := by
  rw [ConfigStore.sysLog]
  rcases inFiles.cases .sysLog with ⟨read, opened⟩ | ⟨conf, text, read, opened, printable, saved⟩
  · rw [read, SysLog.parseConfig, show files.openRead SysLog.fileSysLogConf = none from opened]
    rfl
  · rw [read]
    exact SysLog.parseConfig_text printable saved opened

theorem dahdiParse (inFiles : store.InFiles files) :
    Dahdi.parseConfig false files = .ok store.dahdi := by
  rw [ConfigStore.dahdi]
  rcases inFiles.cases .chanDahdi with ⟨read, opened⟩ | ⟨chan, text, read, opened, saveable, saved⟩
  · rw [read, Dahdi.parseConfig_noChannels opened]
    rfl
  · rw [read]
    rcases inFiles.cases .system with
      ⟨systemRead, systemOpened⟩ | ⟨system, _, systemRead, systemOpened, systemSaveable, rfl⟩
    · rw [systemRead, Dahdi.parseConfig_noSystem saveable saved opened systemOpened]
      rfl
    · rw [systemRead, Dahdi.parseConfig_texts saveable saved opened systemSaveable systemOpened]
      rfl

/-! What the saves do. -/

/-- A save of one file, behind which its configuration is the new one or all is as before. -/
theorem save (inFiles : store.InFiles files) (file : ConfigFile) {value : file.Value} {text : Text}
    (printed : file.Printed value text) :
    ∃ after, (if files.writable file.path then ((0 : Int32), files.write file.path text)
        else (-1, files)) = ((store.save file value).1, after) ∧
      (store.save file value).2.InFiles after := by
  rw [inFiles.writable, ConfigStore.save]
  by_cases writable : store.writable file.path = true
  · rw [if_pos writable, if_pos writable]
    exact ⟨_, rfl, inFiles.put file printed⟩
  · rw [if_neg writable, if_neg writable]
    exact ⟨_, rfl, inFiles⟩

theorem sipSave (inFiles : store.InFiles files) {conf : Sip.SipConfig}
    (strings : Sip.PrintableStrings conf) (charSigned : Bool) :
    Same (fun files store => store.InFiles files) (configStep charSigned files (.sipSave conf))
      (store.step charSigned (.sipSave conf)) := by
  rw [configStep, ConfigStore.step, ← inFiles.writable]
  by_cases writable : files.writable Sip.fileSipConf = true
  · rw [if_pos writable, Sip.saveConfig_eq charSigned writable strings]
    exact .ok _ (inFiles.put .sip ⟨strings, files, rfl⟩)
  · have refused : Sip.saveConfig charSigned files conf = .ok (-1, conf, files) := if_neg writable
    rw [if_neg writable, refused]
    exact .ok _ inFiles

theorem comcertoSave (inFiles : store.InFiles files) (conf : Comcerto.ComcertoConfig)
    (charSigned : Bool) :
    Same (fun files store => store.InFiles files) (configStep charSigned files (.comcertoSave conf))
      (store.step charSigned (.comcertoSave conf)) := by
  rw [configStep, ConfigStore.step, ConfigStore.saveComcerto, ← inFiles.writable]
  by_cases writable : files.writable Comcerto.fileComcertoConf = true
  · rw [if_pos writable, ConfigStore.sip]
    rcases inFiles.cases .sip with ⟨read, opened⟩ | ⟨sip, text, read, opened, strings, other, rfl⟩
    · rw [read, Comcerto.saveConfig_noSip charSigned writable opened]
      exact .error Fault.nullPointer
    · have written : (store.put .comcerto conf).InFiles
          (files.write Comcerto.fileComcertoConf (Comcerto.saveText conf)) :=
        inFiles.put .comcerto rfl
      rw [read, Comcerto.saveConfig_carries charSigned writable opened strings]
      change Same _ _ (.ok (ConfigAnswer.number ((store.put .comcerto conf).save .sip
        (Comcerto.carried sip conf)).1,
          ((store.put .comcerto conf).save .sip (Comcerto.carried sip conf)).2))
      by_cases sipWritable : files.writable Sip.fileSipConf = true
      · rw [if_pos sipWritable, ConfigStore.save_granted _ .sip _
          ((congrFun written.writable _).symm.trans sipWritable)]
        exact .ok _ (written.put .sip ⟨strings.reread conf.jbConf, _, rfl⟩)
      · rw [if_neg sipWritable, ConfigStore.save_refused _ .sip _ fun granted =>
          sipWritable ((congrFun written.writable _).trans granted)]
        exact .ok _ written
  · have refused : Comcerto.saveConfig charSigned files conf = .ok (-1, files) := if_neg writable
    rw [if_neg writable, refused]
    exact .ok _ inFiles

theorem dahdiSave (inFiles : store.InFiles files) {spans : Dahdi.Spans}
    (saveable : Dahdi.Saveable spans.first) (charSigned : Bool) :
    Same (fun files store => store.InFiles files) (configStep charSigned files (.dahdiSave spans))
      (store.step charSigned (.dahdiSave spans)) := by
  obtain ⟨text, printed⟩ := Dahdi.chanDahdiText_saveable saveable
  rw [configStep, ConfigStore.step]
  by_cases system : files.writable Dahdi.fileDahdiSystemConf = true
  · have applied : Dahdi.applySystemConf files spans =
        (0, files.write Dahdi.fileDahdiSystemConf (Dahdi.systemText spans)) := if_pos system
    have written : (store.put .system spans).InFiles
        (files.write Dahdi.fileDahdiSystemConf (Dahdi.systemText spans)) :=
      inFiles.put .system ⟨saveable, rfl⟩
    have first : store.saveDahdi spans = (store.put .system spans).save .chanDahdi spans := by
      rw [ConfigStore.saveDahdi,
        store.save_granted .system spans ((congrFun inFiles.writable _).symm.trans system)]
      rfl
    rw [first, Dahdi.saveConfig, applied]
    by_cases chanDahdi : files.writable Dahdi.fileChanDahdiConf = true
    · have saved : Dahdi.saveChanDahdiConf false
          (files.write Dahdi.fileDahdiSystemConf (Dahdi.systemText spans)) spans =
          .ok (0, (files.write Dahdi.fileDahdiSystemConf (Dahdi.systemText spans)).write
            Dahdi.fileChanDahdiConf text) := by
        rw [Dahdi.saveChanDahdiConf, Files.write_writable, if_pos chanDahdi, printed]
        rfl
      rw [ConfigStore.save_granted _ .chanDahdi spans
        ((congrFun written.writable _).symm.trans chanDahdi)]
      simp only [ne_eq, not_true_eq_false, ↓reduceIte, saved]
      exact .ok _ (written.put .chanDahdi ⟨saveable, printed⟩)
    · have refused : Dahdi.saveChanDahdiConf false
          (files.write Dahdi.fileDahdiSystemConf (Dahdi.systemText spans)) spans =
          .ok (-1, files.write Dahdi.fileDahdiSystemConf (Dahdi.systemText spans)) := if_neg chanDahdi
      rw [ConfigStore.save_refused _ .chanDahdi spans fun granted =>
        chanDahdi ((congrFun written.writable _).trans granted)]
      simp only [ne_eq, not_true_eq_false, ↓reduceIte, refused]
      exact .ok _ written
  · have refused : Dahdi.applySystemConf files spans = (-1, files) := if_neg system
    have same : store.saveDahdi spans = (-1, store) := by
      rw [ConfigStore.saveDahdi, store.save_refused .system spans fun granted =>
        system ((congrFun inFiles.writable _).trans granted)]
      rfl
    rw [same, Dahdi.saveConfig, refused]
    exact .ok _ inFiles

end ConfigStore.InFiles

/-- A call on the files comes to what the call on the store comes to. -/
theorem configStep_same (call : ConfigCall) (admitted : call.Admitted)
    (inFiles : store.InFiles files) :
    Same (fun files store => store.InFiles files) (configStep charSigned files call)
      (store.step charSigned call) := by
  cases call with
  | permit path readable writable => exact .ok _ (inFiles.permit path readable writable)
  | sipParse =>
      rw [configStep, inFiles.sipParse]
      exact .ok _ inFiles
  | sipSave conf => exact inFiles.sipSave admitted charSigned
  | minCodecIntvl =>
      rw [configStep, ConfigStore.step, Sip.getMinCodecIntvl, inFiles.sipParse, inFiles.comcertoParse,
        Checked.ok_bind]
      cases store.comcerto with
      | none => exact .error Fault.nullPointer
      | some conf =>
          cases store.sip with
          | none => exact .error Fault.nullPointer
          | some sip =>
              simp only [deref, Checked.ok_bind]
              cases sip.account.allow.toList.foldlM
                  (Sip.allowStep (Sip.codecsIntvlArray conf.codecsIntvl)) 0 with
              | error fault => exact .error fault
              | ok interval => exact .ok _ inFiles
  | comcertoParse =>
      rw [configStep, inFiles.comcertoParse]
      exact .ok _ inFiles
  | comcertoSave conf => exact inFiles.comcertoSave conf charSigned
  | cngEnable =>
      rw [configStep, ConfigStore.step, Comcerto.getCngEnable, inFiles.comcertoParse]
      cases store.comcerto with
      | none => exact .error Fault.nullPointer
      | some conf => exact .ok _ inFiles
  | vadEnable =>
      rw [configStep, ConfigStore.step, Comcerto.getVadEnable, inFiles.comcertoParse]
      cases store.comcerto with
      | none => exact .error Fault.nullPointer
      | some conf => exact .ok _ inFiles
  | packetizationInterval codecCode =>
      rw [configStep, ConfigStore.step, Comcerto.getCodecPacketizationInterval, inFiles.comcertoParse]
      cases store.comcerto with
      | none => exact .ok _ inFiles
      | some conf => exact .ok _ inFiles
  | extensionsParse =>
      rw [configStep, inFiles.extensionsParse]
      exact .ok _ inFiles
  | extensionsSave conf =>
      obtain ⟨after, saved, inAfter⟩ := @ConfigStore.InFiles.save _ _ inFiles .extensions conf _ rfl
      have saved : Extensions.saveConfig files conf = ((store.save .extensions conf).1, after) := saved
      rw [configStep, saved]
      exact .ok _ inAfter
  | sysLogParse =>
      rw [configStep, inFiles.sysLogParse]
      exact .ok _ inFiles
  | sysLogSave conf =>
      have printed := SysLog.saveText_eq_textLines admitted
      obtain ⟨after, saved, inAfter⟩ := inFiles.save .sysLog ⟨admitted, printed⟩
      have saved : SysLog.saveConfig files conf = .ok ((store.save .sysLog conf).1, after) := by
        refine Eq.trans ?_ (congrArg Except.ok saved)
        by_cases writable : files.writable SysLog.fileSysLogConf = true
        · rw [SysLog.saveConfig, if_pos writable, printed]
          exact congrArg Except.ok (if_pos writable).symm
        · rw [SysLog.saveConfig, if_neg writable]
          exact congrArg Except.ok (if_neg writable).symm
      rw [configStep, saved]
      exact .ok _ inAfter
  | sysLogApply =>
      have parsed := inFiles.sysLogParse
      rw [configStep, ConfigStore.step]
      cases found : store.sysLog with
      | none =>
          rw [SysLog.daemonApplyConfig, parsed, found]
          exact .error Fault.nullPointer
      | some conf =>
          rw [found] at parsed
          rw [SysLog.daemonApplyConfig_eq parsed (SysLog.parseConfig_terminated parsed)]
          exact .ok _ inFiles
  | dahdiParse =>
      rw [configStep, inFiles.dahdiParse]
      exact .ok _ inFiles
  | dahdiSave spans => exact inFiles.dahdiSave admitted charSigned

/-- Over any run of calls the files are a store: the same answers and the same faults, and
behind the run the files hold what was saved last. -/
theorem configRun_same (charSigned : Bool) {calls : List ConfigCall}
    (admitted : ∀ call ∈ calls, call.Admitted) (inFiles : store.InFiles files) :
    Same (fun files store => store.InFiles files) (runChecked (configStep charSigned) files calls)
      (runChecked (ConfigStore.step charSigned) store calls) :=
  runChecked_same (fun _ _ call admitted inFiles => configStep_same call admitted inFiles) admitted
    inFiles

/-- No configuration was saved yet. -/
def emptyStore : ConfigStore := ⟨Files.empty.readable, Files.empty.writable, fun _ => none⟩

theorem emptyStore_inFiles : emptyStore.InFiles Files.empty where
  readable := rfl
  writable := rfl
  keeps := Placement.keeps_none fun _ => rfl

/-- The jitter buffer of `comcerto.conf` is found in the SIP configuration. -/
def jitterCalls : List ConfigCall :=
  [.sipSave Sip.sampleConfig, .comcertoSave Comcerto.sampleComcerto, .sipParse]

theorem jitterCalls_admitted : ∀ call ∈ jitterCalls, call.Admitted := by
  intro call listed
  rcases listed with _ | ⟨_, _ | ⟨_, _ | ⟨_, listed⟩⟩⟩
  · exact Sip.sampleConfig_words.printable
  · trivial
  · trivial
  · cases listed

theorem jitterCalls_returns : ∃ answers last,
    runChecked (configStep true) Files.empty jitterCalls = .ok (answers, last) := by
  have inStore : ∃ answers last,
      runChecked (ConfigStore.step true) emptyStore jitterCalls = .ok (answers, last) := ⟨_, _, rfl⟩
  have same : Same (fun files store => store.InFiles files)
      (runChecked (configStep true) Files.empty jitterCalls)
      (runChecked (ConfigStore.step true) emptyStore jitterCalls) :=
    runChecked_same (fun _ _ call admitted inFiles => configStep_same call admitted inFiles)
      jitterCalls_admitted emptyStore_inFiles
  obtain ⟨answers, store, stored⟩ := inStore
  rw [stored] at same
  generalize ran : runChecked (configStep true) Files.empty jitterCalls = result at same ⊢
  cases same with
  | ok answers related => exact ⟨_, _, rfl⟩

theorem configRun_same_jitterCalls :
    Same (fun files store => store.InFiles files)
      (runChecked (configStep true) Files.empty jitterCalls)
      (runChecked (ConfigStore.step true) emptyStore jitterCalls) :=
  configRun_same true jitterCalls_admitted emptyStore_inFiles

end Calls

/-! ## The intervals in sip.conf -/

section Intervals

variable {charSigned : Bool} {files after : Files}

/-- The lines of `sip.conf` depend on what `comcerto.conf` holds. -/
theorem Sip.fileLines_congr {other : Files} (conf : Sip.SipConfig)
    (same : files.openRead Comcerto.fileComcertoConf = other.openRead Comcerto.fileComcertoConf) :
    Sip.fileLines files conf = Sip.fileLines other conf := by
  have intervals (code : Int32) : Comcerto.getCodecPacketizationInterval files code =
      Comcerto.getCodecPacketizationInterval other code := by
    rw [Comcerto.getCodecPacketizationInterval, Comcerto.getCodecPacketizationInterval,
      Comcerto.parseConfig, Comcerto.parseConfig, same]
  simp only [Sip.fileLines, Sip.allowLines, Sip.allowValue, intervals]

/-- The file `sip.conf` is what a save prints now. -/
def UpToDate (files : Files) : Prop :=
  ∀ text, files.content Sip.fileSipConf = some text →
    ∃ conf, Sip.PrintableStrings conf ∧ text = render (Sip.fileLines files conf)

/-- The two files can be opened, and `sip.conf` is what a save prints now. -/
structure Agree (files : Files) : Prop where
  sip : files.Openable Sip.fileSipConf
  comcerto : files.Openable Comcerto.fileComcertoConf
  upToDate : UpToDate files

theorem Agree.write (agree : Agree files) {path : Path} (text : Text)
    (notSip : Sip.fileSipConf ≠ path) (notComcerto : Comcerto.fileComcertoConf ≠ path) :
    Agree (files.write path text) where
  sip := agree.sip
  comcerto := agree.comcerto
  upToDate := by
    intro found content
    rw [Files.write_content_of_ne files text notSip] at content
    obtain ⟨conf, strings, printed⟩ := agree.upToDate found content
    have same := Sip.fileLines_congr conf (Files.openRead_write_of_ne files text notComcerto)
    exact ⟨conf, strings, by rw [same, printed]⟩

theorem Agree.writeSip {conf : Sip.SipConfig} (sip : files.Openable Sip.fileSipConf)
    (comcerto : files.Openable Comcerto.fileComcertoConf) (strings : Sip.PrintableStrings conf) :
    Agree (files.write Sip.fileSipConf (render (Sip.fileLines files conf))) where
  sip := sip
  comcerto := comcerto
  upToDate := by
    intro found content
    have different : Comcerto.fileComcertoConf ≠ Sip.fileSipConf := by decide
    have same := Sip.fileLines_congr conf (Files.openRead_write_of_ne files
      (render (Sip.fileLines files conf)) different)
    rw [Files.write_content_self] at content
    cases content
    exact ⟨conf, strings, by rw [same]⟩

/-- A call that does not change what `fopen` answers. -/
def ConfigCall.Permitted : ConfigCall → Prop
  | permit .. => False
  | _ => True

theorem Agree.step (agree : Agree files) {call : ConfigCall} {answer : ConfigAnswer}
    (admitted : call.Admitted ∧ call.Permitted)
    (stepped : configStep charSigned files call = .ok (answer, after)) : Agree after := by
  obtain ⟨admitted, permitted⟩ := admitted
  cases call with
  | permit path readable writable => exact permitted.elim
  | sipSave conf =>
      rw [configStep, Sip.saveConfig_eq charSigned agree.sip.2 admitted] at stepped
      cases stepped
      exact Agree.writeSip agree.sip agree.comcerto admitted
  | comcertoSave conf =>
      rw [configStep] at stepped
      cases opened : files.openRead Sip.fileSipConf with
      | none =>
          rw [Comcerto.saveConfig_noSip charSigned agree.comcerto.2 opened] at stepped
          cases stepped
      | some text =>
          have content : files.content Sip.fileSipConf = some text := by
            rwa [Files.openRead, if_pos agree.sip.1] at opened
          obtain ⟨sip, strings, rfl⟩ := agree.upToDate text content
          rw [Comcerto.saveConfig_carries charSigned agree.comcerto.2 opened strings,
            if_pos agree.sip.2] at stepped
          cases stepped
          exact Agree.writeSip agree.sip agree.comcerto (strings.reread conf.jbConf)
  | extensionsSave conf =>
      cases stepped
      rw [Extensions.saveConfig]
      split
      · exact agree.write _ (by decide) (by decide)
      · exact agree
  | sysLogSave conf =>
      rw [configStep, SysLog.saveConfig, SysLog.saveText_eq_textLines admitted] at stepped
      split at stepped
      · cases stepped
        exact agree.write _ (by decide) (by decide)
      · cases stepped
        exact agree
  | dahdiSave spans =>
      obtain ⟨⟨status, saved⟩, save, returned⟩ := Checked.bind_eq_ok stepped
      cases returned
      rcases Dahdi.saveConfig_cases save with ⟨-, -, rfl⟩ | ⟨-, -, -, rfl⟩ | ⟨-, -, -, text, -, rfl⟩
      · exact agree
      · exact agree.write _ (by decide) (by decide)
      · exact (agree.write _ (by decide) (by decide)).write _ (by decide) (by decide)
  | sipParse | minCodecIntvl | cngEnable | vadEnable | sysLogApply | dahdiParse =>
      obtain ⟨found, -, returned⟩ := Checked.bind_eq_ok stepped
      cases returned
      exact agree
  | comcertoParse | packetizationInterval | extensionsParse | sysLogParse =>
      cases stepped
      exact agree

/-- The value of an `allow` line of a file that was saved. -/
theorem Sip.allow_of_fileLines {conf : Sip.SipConfig} {value : Text}
    (listed : .setting (lit "allow") value ∈ Sip.fileLines files conf) :
    ∃ code, value = Sip.allowValue files code := by
  simp only [Sip.fileLines, Sip.headerLines, Sip.serverLines, Sip.timerLines, Sip.sessionLines,
    Sip.registerLines, Sip.accountHeaderLines, Sip.peerLines, Sip.optionLines, Sip.allowLines,
    Sip.nonzeroLine, Sip.nonemptyLine, Sip.textLines, List.mem_append, List.mem_cons,
    List.not_mem_nil, List.mem_ite_nil_right, List.mem_map, Entry.setting.injEq, lit_inj,
    String.reduceEq, reduceCtorEq, false_and, and_false, true_and, or_false, false_or] at listed
  obtain ⟨code, -, same⟩ := listed
  exact ⟨code, same.symm⟩

/-- In every run that keeps the two files open, each `allow` line of `sip.conf` has the
interval that `comcerto.conf` holds for its codec. -/
theorem configRun_agrees {calls : List ConfigCall} {answers : List ConfigAnswer} {last : Files}
    (sip : files.Openable Sip.fileSipConf) (comcerto : files.Openable Comcerto.fileComcertoConf)
    (noSip : files.content Sip.fileSipConf = none)
    (admitted : ∀ call ∈ calls, call.Admitted ∧ call.Permitted)
    (ran : runChecked (configStep charSigned) files calls = .ok (answers, last)) {text value : Text}
    (content : last.content Sip.fileSipConf = some text)
    (allow : (lit "allow", value) ∈ settings text) :
    ∃ code, value = printName (Sip.getCodecName code) ++ lit ":" ++
      printInt (Comcerto.getCodecPacketizationInterval last code).toInt := by
  have initial : Agree files := ⟨sip, comcerto, fun text content => by
    rw [noSip] at content
    cases content⟩
  have agree : Agree last := runChecked_preserves
    (fun _ _ _ _ admitted agree stepped => Agree.step agree admitted stepped) admitted initial ran
  obtain ⟨conf, strings, rfl⟩ := agree.upToDate text content
  rw [settings_render (Sip.fileLines_wellFormed last strings)] at allow
  exact Sip.allow_of_fileLines (Comcerto.mem_settingsOf.mp allow)

theorem configRun_agrees_jitterCalls :
    ∃ answers last, runChecked (configStep true) Files.empty jitterCalls = .ok (answers, last) ∧
      ∀ text value, last.content Sip.fileSipConf = some text → (lit "allow", value) ∈ settings text →
        ∃ code, value = printName (Sip.getCodecName code) ++ lit ":" ++
          printInt (Comcerto.getCodecPacketizationInterval last code).toInt := by
  have permitted : ∀ call ∈ jitterCalls, call.Admitted ∧ call.Permitted := by
    intro call listed
    refine ⟨jitterCalls_admitted call listed, ?_⟩
    rcases listed with _ | ⟨_, _ | ⟨_, _ | ⟨_, listed⟩⟩⟩
    · trivial
    · trivial
    · trivial
    · cases listed
  obtain ⟨answers, last, ran⟩ := jitterCalls_returns
  exact ⟨answers, last, ran, fun text value content allow =>
    configRun_agrees ⟨rfl, rfl⟩ ⟨rfl, rfl⟩ rfl permitted ran content allow⟩

end Intervals

end Libamg
