import Libamg.Config.ComcertoRoundTrip
import Libamg.Config.Store

/-!
# Saving what was parsed

A first save may lose settings, a second one loses nothing more: what a parser answers can
be saved, and the parser answers it again (`configRun_settles`). Only a codec that was not
recognised is left out by the next save.
-/

namespace Libamg

open C Semantics

/-! ## Normal forms -/

namespace Sip

section Strings

variable {size count : Nat} {array : CharArray size}

theorem Printable.str_strncpy (printable : Printable array) (fits : count ≤ size)
    (room : size ≤ count + 1) (several : 2 ≤ size) :
    ((CharArray.zero size).strncpy (cropped (bare array.str)) count fits).str =
      cropped (bare array.str) := by
  have word := printable.bare_isWord
  have length := printable.bare_length_lt
  by_cases empty : bare array.str = []
  · have short : ([newline] : Text).length ≤ count := by
      rw [List.length_singleton]
      omega
    rw [cropped, if_pos empty]
    exact CharArray.str_strncpy_zero fits (by decide) short several
  · rw [cropped_eq_self empty]
    exact CharArray.str_strncpy_zero fits word.nul_notMem (by omega) length

theorem Printable.bare_strncpy (printable : Printable array) (fits : count ≤ size)
    (room : size ≤ count + 1) (several : 2 ≤ size) :
    bare ((CharArray.zero size).strncpy (cropped (bare array.str)) count fits).str =
      bare array.str := by
  rw [printable.str_strncpy fits room several, bare_cropped printable.bare_isWord]

end Strings

section Reread

variable {conf : SipConfig}

theorem registers_reread (strings : PrintableStrings conf) :
    Registers conf.reread ↔ Registers conf := by
  have username : bare conf.reread.registerUsername.str = bare conf.registerUsername.str :=
    strings.registerUsername.bare_strncpy (by decide) (by decide) (by decide)
  have secret : bare conf.reread.registerSecret.str = bare conf.registerSecret.str :=
    strings.registerSecret.bare_strncpy (by decide) (by decide) (by decide)
  have host : bare conf.reread.registerHost.str = bare conf.registerHost.str :=
    strings.registerHost.bare_strncpy (by decide) (by decide) (by decide)
  have enable : conf.reread.registerEnable = if Registers conf then 1 else 0 := rfl
  by_cases registers : Registers conf
  · rw [if_pos registers] at enable
    refine iff_of_true ⟨?_, ?_⟩ registers
    · rw [enable]
      decide
    · rw [username, secret, host]
      exact registers.2
  · rw [if_neg registers] at enable
    exact iff_of_false (fun both => both.1 enable) registers

/-- The account as it is parsed, where its codecs are all recognised. -/
def Recognised (account : SipAccount) : Prop := ∀ code ∈ account.allow.toList, code ≠ -1

theorem reread_allow (account : SipAccount) :
    account.reread.allow.toList = account.allowed.map recognised ++
      List.replicate (9 - account.allowed.length) 0 := by
  have fits : (account.allowed.map recognised).length ≤ 9 := by
    rw [List.length_map]
    exact account.allowed_length
  have array : account.reread.allow.toList = (padded (account.allowed.map recognised)).toList := rfl
  rw [array, padded_toList fits, List.length_map]

theorem map_recognised_allowed {account : SipAccount} (known : Recognised account.reread) :
    account.allowed.map recognised = account.allowed := by
  refine (List.map_congr_left fun code member => ?_).trans (List.map_id _)
  have kept : recognised code ∈ account.reread.allow.toList := by
    rw [reread_allow]
    exact List.mem_append_left _ (List.mem_map_of_mem member)
  by_cases inTable : code ∈ codecCodes
  · exact if_pos inTable
  · exact absurd (if_neg inTable) (known _ kept)

theorem allowed_reread {account : SipAccount} (known : Recognised account.reread) :
    account.reread.allowed = account.allowed := by
  have positive : ∀ code ∈ account.allowed, decide (0 < code) = true :=
    fun code member => (List.mem_filter.mp member).2
  have zeros : (List.replicate (9 - account.allowed.length) (0 : Int32)).filter
      (fun code => decide (0 < code)) = [] := by
    rw [List.filter_eq_nil_iff]
    intro code member
    rw [List.eq_of_mem_replicate member]
    decide
  rw [SipAccount.allowed, reread_allow, map_recognised_allowed known, List.filter_append,
    List.filter_eq_self.mpr positive, zeros, List.append_nil]

theorem reread_reread_account (strings : PrintableStrings conf)
    (known : Recognised conf.account.reread) :
    conf.account.reread.reread = conf.account.reread := by
  have word {array : CharArray 64} (isWord : array.Word) :
      (CharArray.filled 63 array.str).str = array.str :=
    CharArray.str_filled isWord.isWord.nul_notMem (Nat.le_of_lt_succ isWord.length_lt)
  have insecure : (CharArray.filled 31 conf.account.insecure.str).str = conf.account.insecure.str :=
    CharArray.str_filled strings.insecure.isWord.nul_notMem
      (Nat.le_of_lt_succ strings.insecure.length_lt)
  have transport : (CharArray.filled 7 conf.account.transport.str).str = conf.account.transport.str :=
    CharArray.str_filled strings.transport.isWord.nul_notMem
      (Nat.le_of_lt_succ strings.transport.length_lt)
  have dtmfmode : bare (CharArray.filled 31 (cropped (bare conf.account.dtmfmode.str))).str =
      bare conf.account.dtmfmode.str :=
    strings.dtmfmode.bare_strncpy (by decide) (by decide) (by decide)
  have allow : padded (conf.account.reread.allowed.map recognised) =
      padded (conf.account.allowed.map recognised) := by
    rw [allowed_reread known]
  calc conf.account.reread.reread
      = { conf.account.reread.reread with
          allow := padded (conf.account.reread.allowed.map recognised) } := rfl
    _ = conf.account.reread := by
      rw [allow]
      simp only [SipAccount.reread, truth_truth, word strings.callerid, word strings.fromuser,
        word strings.username, word strings.secret, word strings.host, insecure, transport, dtmfmode]

theorem reread_reread (strings : PrintableStrings conf) (known : Recognised conf.account.reread) :
    conf.reread.reread = conf.reread := by
  have sessionTimers : bare (CharArray.full 16 (cropped (bare conf.sessionTimers.str))).str =
      bare conf.sessionTimers.str :=
    strings.sessionTimers.bare_strncpy (by decide) (by decide) (by decide)
  have sessionRefresher : bare (CharArray.full 8 (cropped (bare conf.sessionRefresher.str))).str =
      bare conf.sessionRefresher.str :=
    strings.sessionRefresher.bare_strncpy (by decide) (by decide) (by decide)
  have name {array : CharArray 64} (printable : Printable array) :
      bare (CharArray.filled 63 (cropped (bare array.str))).str = bare array.str :=
    printable.bare_strncpy (by decide) (by decide) (by decide)
  have register : (if Registers conf.reread then (1 : Int32) else 0) = if Registers conf then 1 else 0 :=
    if_congr (registers_reread strings) rfl rfl
  have expiry : lowShort (rereadExpiry conf) = rereadExpiry conf := by
    unfold rereadExpiry
    split
    · exact Comcerto.lowShort_lowShort _
    · split <;> exact Comcerto.lowShort_lowShort _
  have account := reread_reread_account strings known
  calc conf.reread.reread
      = { conf.reread.reread with
          defaultexpiry := lowShort (rereadExpiry conf)
          registerEnable := if Registers conf.reread then 1 else 0
          account := conf.account.reread.reread } := rfl
    _ = conf.reread := by
      rw [register, expiry, account]
      simp only [SipConfig.reread, truth_truth, Comcerto.lowShort_lowShort, sessionTimers,
        sessionRefresher, name strings.registerUsername, name strings.registerSecret,
        name strings.registerHost]

end Reread

end Sip

namespace Comcerto

theorem ComcertoConfig.reread_reread (conf : ComcertoConfig) : conf.reread.reread = conf.reread := by
  have passThrough : conf.reread.reread.passThrough = conf.reread.passThrough := by
    have found : conf.reread.passThrough =
        if conf.passThrough = codecG711ACod ∨ conf.passThrough = codecG711UCod then conf.passThrough
        else 0 := rfl
    by_cases known : conf.passThrough = codecG711ACod ∨ conf.passThrough = codecG711UCod
    · rw [if_pos known] at found
      refine if_pos ?_
      rw [found]
      exact known
    · rw [if_neg known] at found
      have unknown : ¬ (conf.reread.passThrough = codecG711ACod ∨
          conf.reread.passThrough = codecG711UCod) := by
        rw [found]
        decide
      exact (if_neg unknown).trans found.symm
  calc conf.reread.reread
      = { conf.reread.reread with passThrough := conf.reread.passThrough } := by rw [← passThrough]
    _ = conf.reread := by
      simp only [ComcertoConfig.reread, lowShort_lowShort, truth_truth, JbConfig.reread_reread,
        CodecsIntvl.reread_reread]

end Comcerto

namespace SysLog

variable {conf : SysLogConfig}

theorem printable_reread (printable : Sip.Printable conf.remoteHost) :
    Sip.Printable conf.reread.remoteHost ∧ conf.reread.reread = conf.reread := by
  have bare : cropped conf.remoteHost.str = cropped (Sip.bare conf.remoteHost.str) := by
    rcases printable.shape with isNewline | word
    · rw [isNewline]
      rfl
    · rw [Sip.bare_of_word word]
  have host : conf.reread.remoteHost = .filled 63 (cropped (Sip.bare conf.remoteHost.str)) :=
    congrArg (CharArray.filled 63) bare
  have str : conf.reread.remoteHost.str = cropped (Sip.bare conf.remoteHost.str) := by
    rw [host]
    exact printable.str_strncpy (by decide) (by decide) (by decide)
  refine ⟨?_, ?_⟩
  · rw [host]
    exact printable.strncpy_cropped (by decide) (by decide) (by decide)
  · have twice : cropped conf.reread.remoteHost.str = cropped conf.remoteHost.str := by
      rw [str, bare]
      by_cases empty : Sip.bare conf.remoteHost.str = []
      · rw [empty]
        rfl
      · rw [cropped_eq_self empty, cropped_eq_self empty]
    calc conf.reread.reread
        = { conf.reread with remoteHost := .filled 63 (cropped conf.reread.remoteHost.str) } := rfl
      _ = conf.reread := by
        rw [twice]
        rfl

end SysLog

namespace Dahdi

/-- A span that comes back as itself. -/
structure Settled (span : Span) : Prop where
  representable : Representable span
  same : span.reread = span

theorem settled_readChannels {span : Span} (saveable : Saveable span) : Settled span.readChannels := by
  rcases saveable with disabled | representable
  · have read : span.readChannels = { Span.zero with enable := 1 } := if_pos disabled
    rw [read]
    exact ⟨⟨by decide, .inl rfl, .inl rfl, by decide, by decide, .inl rfl⟩, by decide⟩
  · have read : span.readChannels = span.rereadChannels := if_neg representable.enable
    have room := CharArray.str_length_lt representable.terminated
    have short : span.isdn.switchtype.str.length ≤ 15 := Nat.le_of_lt_succ room
    have switchtype : (CharArray.filled 15 span.isdn.switchtype.str).str = span.isdn.switchtype.str :=
      CharArray.str_filled span.isdn.switchtype.nul_notMem_str short
    have clean : Clean (CharArray.filled 15 span.isdn.switchtype.str).str := by
      rw [switchtype]
      exact representable.switchtype
    rw [read]
    refine ⟨⟨(by decide : (1 : Int32) ≠ 0), .inl rfl, representable.signalling,
      CharArray.filled_terminated short, clean, representable.channels⟩, ?_⟩
    simp only [Span.reread, Span.rereadChannels, truth_truth, switchtype]
    rfl

theorem Settled.readClock {span clocked : Span} (settled : Settled span) (enabled : span.enable = 1)
    (saveable : Saveable clocked) : Settled (clocked.readClock span) := by
  rcases saveable with disabled | representable
  · rw [Span.readClock, if_pos disabled]
    exact settled
  · rw [Span.readClock, if_neg representable.enable]
    refine ⟨{ settled.representable with
      enable := (by decide : (1 : Int32) ≠ 0)
      clock := representable.clock }, ?_⟩
    calc Span.reread { span with clock := clocked.clock, crc := truth clocked.crc, enable := 1 }
        = { span.reread with clock := clocked.clock, crc := truth (truth clocked.crc) } := rfl
      _ = _ := by rw [settled.same, truth_truth, enabled.symm]

theorem settled_rereadSpans {chanDahdi system : Spans} (chanSaveable : Saveable chanDahdi.first)
    (saveable : Saveable system.first) : Settled (rereadSpans chanDahdi system).first := by
  have enabled : chanDahdi.first.readChannels.enable = 1 := by
    unfold Span.readChannels
    split <;> rfl
  rw [rereadSpans, Spans.first_update]
  exact (settled_readChannels chanSaveable).readClock enabled saveable

/-- Spans that were parsed are parsed again behind a save. -/
theorem rereadSpans_self {spans : Spans} (settled : Settled spans.first) :
    rereadSpans spans spans = spans := by
  refine Spans.ext_first ?_
  have enabled : spans.first.enable = 1 := by
    rw [← settled.same]
    rfl
  have nonzero : ¬ spans.first.enable = 0 := settled.representable.enable
  rw [rereadSpans, Spans.first_update, Span.readClock, if_neg nonzero, Span.readChannels,
    if_neg nonzero]
  exact settled.same

end Dahdi

/-! ## Any run -/

/-- Save what was parsed. -/
def ConfigAnswer.again : ConfigAnswer → Option ConfigCall
  | sip conf => conf.map .sipSave
  | comcerto conf => conf.map .comcertoSave
  | extensions conf => conf.map .extensionsSave
  | sysLog conf => conf.map .sysLogSave
  | dahdi spans => spans.map .dahdiSave
  | _ => none

/-- The save reports no failure. -/
def ConfigAnswer.Succeeded : ConfigAnswer → Prop
  | number status => status = 0
  | sipSaved status _ => status = 0
  | _ => False

/-- All codecs were recognised. -/
def ConfigCall.Recognised : ConfigCall → Prop
  | sipSave conf => Sip.Recognised conf.account
  | _ => True

section Settles

variable {charSigned : Bool} {files last : Files} {store : ConfigStore}

/-- What was parsed is saved, and parsed again. -/
def SavesAgain (charSigned : Bool) (files : Files) (parse : ConfigCall) (answer : ConfigAnswer)
    (save : ConfigCall) : Prop :=
  ∃ saved after last, configStep charSigned files save = .ok (saved, after) ∧ saved.Succeeded ∧
    configStep charSigned after parse = .ok (answer, last)

/-- A call on the files, from what the call on the store comes to. -/
theorem configStep_of_step {call : ConfigCall} {answer : ConfigAnswer} {next : ConfigStore}
    (inFiles : store.InFiles files) (admitted : call.Admitted)
    (stepped : store.step charSigned call = .ok (answer, next)) :
    ∃ after, configStep charSigned files call = .ok (answer, after) ∧ next.InFiles after := by
  have same := @configStep_same charSigned _ _ call admitted inFiles
  rw [stepped] at same
  generalize configStep charSigned files call = result at same ⊢
  cases same with
  | ok answer related => exact ⟨_, rfl, related⟩

theorem savesAgain_of_step {parse save : ConfigCall} {answer saved : ConfigAnswer}
    {next after : ConfigStore} (inFiles : store.InFiles files) (admitted : save.Admitted)
    (parseAdmitted : parse.Admitted) (stepped : store.step charSigned save = .ok (saved, next))
    (succeeded : saved.Succeeded) (found : next.step charSigned parse = .ok (answer, after)) :
    SavesAgain charSigned files parse answer save := by
  obtain ⟨written, saving, inWritten⟩ := configStep_of_step inFiles admitted stepped
  obtain ⟨last, parsing, -⟩ := configStep_of_step inWritten parseAdmitted found
  exact ⟨saved, written, last, saving, succeeded, parsing⟩

theorem ConfigStore.read_put (store : ConfigStore) (file : ConfigFile) (value : file.Value)
    (readable : store.readable file.path = true) : (store.put file value).read file = some value := by
  have saved : (store.put file value).saved file = some value := Function.update_self _ _ _
  rw [ConfigStore.read, saved]
  exact if_pos readable

theorem ConfigStore.read_put_of_ne (store : ConfigStore) {file other : ConfigFile} (value : file.Value)
    (different : other ≠ file) : (store.put file value).read other = store.read other := by
  have saved : (store.put file value).saved other = store.saved other :=
    Function.update_of_ne different _ _
  rw [ConfigStore.read, ConfigStore.read, saved]
  rfl

/-- All configurations can be opened. -/
structure ConfigStore.Openable (store : ConfigStore) : Prop where
  readable : ∀ file : ConfigFile, store.readable file.path = true
  writable : ∀ file : ConfigFile, store.writable file.path = true

/-! Each of the configurations. -/

theorem sip_savesAgain (inFiles : store.InFiles files) (openable : store.Openable)
    {conf : Sip.SipConfig} (parsed : store.sip = some conf)
    (recognised : Sip.Recognised conf.account) :
    SavesAgain charSigned files .sipParse (.sip (some conf)) (.sipSave conf) := by
  rw [ConfigStore.sip] at parsed
  rcases inFiles.cases .sip with ⟨read, -⟩ | ⟨sip, text, read, -, strings, -⟩
  · rw [read] at parsed
    cases parsed
  · rw [read] at parsed
    cases parsed
    have again : Sip.PrintableStrings sip.reread := strings.reread sip.reread.jbConf
    have found : (store.put .sip sip.reread).sip = some sip.reread := by
      rw [ConfigStore.sip, store.read_put .sip _ (openable.readable .sip)]
      exact congrArg some (Sip.reread_reread strings recognised)
    exact savesAgain_of_step inFiles again trivial (if_pos (openable.writable .sip)) rfl
      (congrArg (fun conf => Except.ok (ConfigAnswer.sip conf, _)) found)

theorem comcerto_savesAgain (inFiles : store.InFiles files) (openable : store.Openable)
    {sip : Sip.SipConfig} (sipParsed : store.sip = some sip) {conf : Comcerto.ComcertoConfig}
    (parsed : store.comcerto = some conf) :
    SavesAgain charSigned files .comcertoParse (.comcerto (some conf)) (.comcertoSave conf) := by
  obtain ⟨saved, -, rfl⟩ := Option.map_eq_some_iff.mp parsed
  have stepped : store.step charSigned (.comcertoSave saved.reread) = .ok (.number 0,
      (store.put .comcerto saved.reread).put .sip { sip with jbConf := saved.reread.jbConf }) := by
    have sipSaved := (store.put .comcerto saved.reread).save_granted .sip
      { sip with jbConf := saved.reread.jbConf } (openable.writable .sip)
    have own : store.writable Comcerto.fileComcertoConf = true := openable.writable .comcerto
    rw [ConfigStore.step, ConfigStore.saveComcerto, if_pos own, sipParsed]
    simp only [deref, Checked.ok_bind, sipSaved]
    rfl
  have found : ((store.put .comcerto saved.reread).put .sip
      { sip with jbConf := saved.reread.jbConf }).comcerto = some saved.reread := by
    have different : ConfigFile.comcerto ≠ .sip := by decide
    rw [ConfigStore.comcerto, ConfigStore.read_put_of_ne _ _ different,
      store.read_put .comcerto _ (openable.readable .comcerto)]
    exact congrArg some saved.reread_reread
  exact savesAgain_of_step inFiles trivial trivial stepped rfl
    (congrArg (fun conf => Except.ok (ConfigAnswer.comcerto conf, _)) found)

theorem extensions_savesAgain (inFiles : store.InFiles files) (openable : store.Openable)
    {conf : Extensions.ExtensionsConfig} (parsed : store.extensions = some conf) :
    SavesAgain charSigned files .extensionsParse (.extensions (some conf)) (.extensionsSave conf) := by
  obtain ⟨saved, -, rfl⟩ := Option.map_eq_some_iff.mp parsed
  have stepped : store.step charSigned (.extensionsSave ⟨0, -1⟩) =
      .ok (.number 0, store.put .extensions ⟨0, -1⟩) := by
    rw [ConfigStore.step, store.save_granted .extensions _ (openable.writable .extensions)]
  have found : (store.put .extensions ⟨0, -1⟩).extensions = some ⟨0, -1⟩ := by
    rw [ConfigStore.extensions, store.read_put .extensions _ (openable.readable .extensions)]
    rfl
  exact savesAgain_of_step inFiles trivial trivial stepped rfl
    (congrArg (fun conf => Except.ok (ConfigAnswer.extensions conf, _)) found)

theorem sysLog_savesAgain (inFiles : store.InFiles files) (openable : store.Openable)
    {conf : SysLog.SysLogConfig} (parsed : store.sysLog = some conf) :
    SavesAgain charSigned files .sysLogParse (.sysLog (some conf)) (.sysLogSave conf) := by
  rw [ConfigStore.sysLog] at parsed
  rcases inFiles.cases .sysLog with ⟨read, -⟩ | ⟨saved, text, read, -, printable, -⟩
  · rw [read] at parsed
    cases parsed
  · rw [read] at parsed
    cases parsed
    obtain ⟨again, same⟩ := SysLog.printable_reread printable
    have stepped : store.step charSigned (.sysLogSave saved.reread) =
        .ok (.number 0, store.put .sysLog saved.reread) := by
      rw [ConfigStore.step, store.save_granted .sysLog _ (openable.writable .sysLog)]
    have found : (store.put .sysLog saved.reread).sysLog = some saved.reread := by
      rw [ConfigStore.sysLog, store.read_put .sysLog _ (openable.readable .sysLog)]
      exact congrArg some same
    exact savesAgain_of_step inFiles again trivial stepped rfl
      (congrArg (fun conf => Except.ok (ConfigAnswer.sysLog conf, _)) found)

theorem dahdi_savesAgain (inFiles : store.InFiles files) (openable : store.Openable)
    {spans : Dahdi.Spans} (parsed : store.dahdi = some spans) :
    SavesAgain charSigned files .dahdiParse (.dahdi (some spans)) (.dahdiSave spans) := by
  have settled : Dahdi.Settled spans.first := by
    rw [ConfigStore.dahdi] at parsed
    rcases inFiles.cases .chanDahdi with ⟨read, -⟩ | ⟨chanDahdi, _, read, -, chanSaveable, -⟩
    · rw [read] at parsed
      cases parsed
    · rw [read] at parsed
      rcases inFiles.cases .system with ⟨read, -⟩ | ⟨system, _, read, -, saveable, -⟩
      · rw [read] at parsed
        cases parsed
      · rw [read] at parsed
        cases parsed
        exact Dahdi.settled_rereadSpans chanSaveable saveable
  have stepped : store.step charSigned (.dahdiSave spans) =
      .ok (.number 0, (store.put .system spans).put .chanDahdi spans) := by
    have granted := (store.put .system spans).save_granted .chanDahdi spans
      (openable.writable .chanDahdi)
    rw [ConfigStore.step, ConfigStore.saveDahdi,
      store.save_granted .system _ (openable.writable .system)]
    simp only [ne_eq, not_true_eq_false, ↓reduceIte, granted]
  have found : ((store.put .system spans).put .chanDahdi spans).dahdi = some spans := by
    have different : ConfigFile.system ≠ .chanDahdi := by decide
    have read := (store.put .system spans).read_put .chanDahdi spans (openable.readable .chanDahdi)
    rw [ConfigStore.dahdi, read,
      ConfigStore.read_put_of_ne _ _ different, store.read_put .system _ (openable.readable .system)]
    exact congrArg some (Dahdi.rereadSpans_self settled)
  exact savesAgain_of_step inFiles (.inr settled.representable) trivial stepped rfl
    (congrArg (fun spans => Except.ok (ConfigAnswer.dahdi spans, _)) found)

/-- Behind any run, from files that were not saved yet, there is a store in the files. -/
theorem configRun_inFiles {calls : List ConfigCall} {answers : List ConfigAnswer}
    (noFiles : ∀ file : ConfigFile, files.content file.path = none)
    (admitted : ∀ call ∈ calls, call.Admitted)
    (ran : runChecked (configStep charSigned) files calls = .ok (answers, last)) :
    ∃ store : ConfigStore, store.InFiles last := by
  have initial : ConfigStore.InFiles ⟨files.readable, files.writable, fun _ => none⟩ files :=
    ⟨rfl, rfl, Placement.keeps_none noFiles⟩
  have same := runChecked_same (fun _ _ call admitted inFiles =>
    @configStep_same charSigned _ _ call admitted inFiles) admitted initial
  rw [ran] at same
  generalize runChecked (ConfigStore.step charSigned) _ calls = expected at same
  cases same with
  | ok answers related => exact ⟨_, related⟩

/-- A store in files that can be opened. -/
theorem ConfigStore.InFiles.openable (inFiles : store.InFiles last)
    (openable : ∀ file : ConfigFile, last.Openable file.path) : store.Openable where
  readable file := (congrFun inFiles.readable file.path).symm.trans (openable file).1
  writable file := (congrFun inFiles.writable file.path).symm.trans (openable file).2

theorem ConfigStore.InFiles.sip_isSome (inFiles : store.InFiles last)
    (readable : last.readable Sip.fileSipConf = true) (saved : last.content Sip.fileSipConf ≠ none) :
    ∃ sip, store.sip = some sip := by
  rw [ConfigStore.sip]
  rcases inFiles.cases .sip with ⟨-, opened⟩ | ⟨sip, text, read, -⟩
  · exact absurd ((if_pos readable).symm.trans opened) saved
  · exact ⟨sip.reread, by rw [read]; rfl⟩

/-- Behind any run, where the files can be opened and `sip.conf` was saved, what a parser
answers can be saved, and the parser answers it again. -/
theorem configRun_settles {calls : List ConfigCall} {answers : List ConfigAnswer}
    (noFiles : ∀ file : ConfigFile, files.content file.path = none)
    (admitted : ∀ call ∈ calls, call.Admitted)
    (ran : runChecked (configStep charSigned) files calls = .ok (answers, last))
    (openable : ∀ file : ConfigFile, last.Openable file.path)
    (sipSaved : last.content Sip.fileSipConf ≠ none) {parse save : ConfigCall} {answer : ConfigAnswer}
    {after : Files} (parsed : configStep charSigned last parse = .ok (answer, after))
    (again : answer.again = some save) (recognised : save.Recognised) :
    SavesAgain charSigned last parse answer save := by
  obtain ⟨store, inFiles⟩ := configRun_inFiles noFiles admitted ran
  have storeOpenable := inFiles.openable openable
  cases parse with
  | sipParse =>
      rw [configStep, inFiles.sipParse] at parsed
      cases parsed
      obtain ⟨conf, found, rfl⟩ := Option.map_eq_some_iff.mp again
      rw [found]
      exact sip_savesAgain inFiles storeOpenable found recognised
  | comcertoParse =>
      rw [configStep, inFiles.comcertoParse] at parsed
      cases parsed
      obtain ⟨conf, found, rfl⟩ := Option.map_eq_some_iff.mp again
      obtain ⟨sip, sipFound⟩ := inFiles.sip_isSome (openable .sip).1 sipSaved
      rw [found]
      exact comcerto_savesAgain inFiles storeOpenable sipFound found
  | extensionsParse =>
      rw [configStep, inFiles.extensionsParse] at parsed
      cases parsed
      obtain ⟨conf, found, rfl⟩ := Option.map_eq_some_iff.mp again
      rw [found]
      exact extensions_savesAgain inFiles storeOpenable found
  | sysLogParse =>
      rw [configStep, inFiles.sysLogParse] at parsed
      cases parsed
      obtain ⟨conf, found, rfl⟩ := Option.map_eq_some_iff.mp again
      rw [found]
      exact sysLog_savesAgain inFiles storeOpenable found
  | dahdiParse =>
      rw [configStep, inFiles.dahdiParse] at parsed
      cases parsed
      obtain ⟨spans, found, rfl⟩ := Option.map_eq_some_iff.mp again
      rw [found]
      exact dahdi_savesAgain inFiles storeOpenable found
  | permit path readable writable =>
      cases parsed
      cases again
  | extensionsSave conf =>
      cases parsed
      cases again
  | packetizationInterval codecCode =>
      cases parsed
      cases again
  | sipSave conf | comcertoSave conf | minCodecIntvl | cngEnable | vadEnable | sysLogSave conf
  | sysLogApply | dahdiSave spans =>
      obtain ⟨found, -, returned⟩ := Checked.bind_eq_ok parsed
      cases returned
      cases again

theorem configRun_settles_sampleConfig :
    SavesAgain true (Files.empty.write Sip.fileSipConf (render (Sip.fileLines Files.empty Sip.sampleConfig)))
      .sipParse (.sip (some Sip.sampleConfig.reread)) (.sipSave Sip.sampleConfig.reread) := by
  have printable := Sip.sampleConfig_words.printable
  have saved := Sip.saveConfig_eq true (by rfl : Files.empty.writable Sip.fileSipConf = true) printable
  have content := Files.write_content_self Files.empty Sip.fileSipConf
    (render (Sip.fileLines Files.empty Sip.sampleConfig))
  have ran : runChecked (configStep true) Files.empty [.sipSave Sip.sampleConfig] =
      .ok ([.sipSaved 0 (Sip.sampleConfig.stripped true)], Files.empty.write Sip.fileSipConf
        (render (Sip.fileLines Files.empty Sip.sampleConfig))) := by
    rw [runChecked, configStep, saved]
    rfl
  have opened : (Files.empty.write Sip.fileSipConf
      (render (Sip.fileLines Files.empty Sip.sampleConfig))).openRead Sip.fileSipConf =
      some (render (Sip.fileLines Files.empty Sip.sampleConfig)) :=
    (if_pos rfl).trans content
  have parsed := Sip.parseConfig_eq true opened printable
  have recognised : Sip.Recognised Sip.sampleConfig.reread.account := by
    have all : Sip.sampleConfig.reread.account.allow.toList.all (fun code => code ≠ -1) = true := by
      decide
    exact fun code member => of_decide_eq_true (List.all_eq_true.mp all code member)
  have found : configStep true (Files.empty.write Sip.fileSipConf
      (render (Sip.fileLines Files.empty Sip.sampleConfig))) .sipParse =
      .ok (.sip (some Sip.sampleConfig.reread), Files.empty.write Sip.fileSipConf
        (render (Sip.fileLines Files.empty Sip.sampleConfig))) := by
    rw [configStep, parsed]
    rfl
  refine configRun_settles (fun _ => rfl) ?_ ran (fun _ => ⟨rfl, rfl⟩) ?_ found rfl recognised
  · intro call listed
    rw [List.mem_singleton.mp listed]
    exact printable
  · rw [content]
    exact Option.some_ne_none _

end Settles

end Libamg
