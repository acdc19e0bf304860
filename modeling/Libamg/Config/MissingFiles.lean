import Libamg.Config.ComcertoSave
import Libamg.Config.MinInterval
import Libamg.Config.SysLog

/-!
# Operations without their configuration

The parsers return NULL when a file cannot be opened. `Operation` collects the calls that
use what a parser returned, and `toleratesMissing_iff` says which of them need their
files to be there.
-/

namespace Libamg

open C

/-! ## comcerto.c -/

namespace Comcerto

def g723_1Bitrate63Name : Text := lit "6.3"
def g723_1Bitrate53Name : Text := lit "5.3"

def debugSip : Int32 := 0x1
def debugMfcr2 : Int32 := 0x2
def debugIsdn : Int32 := 0x4
def debugDtmf : Int32 := 0x8

/-- `libamg_comcerto_get_cng_enable`. -/
def getCngEnable (files : Files) : Checked Int32 := do
  let config ← deref (parseConfig files)
  return config.cngEnable

/-- `libamg_comcerto_get_vad_enable`. -/
def getVadEnable (files : Files) : Checked Int32 := do
  let config ← deref (parseConfig files)
  return config.vadEnable

/-- `libamg_comcerto_get_codec_g723_1_bitrate_name`. -/
def getCodecG723_1BitrateName (files : Files) : Checked Text := do
  let config ← deref (parseConfig files)
  return if config.codecG723_1 ≠ 0 then g723_1Bitrate63Name else g723_1Bitrate53Name

/-- `libamg_comcerto_set_debugging`: the commands it hands to `system` and the returned
status. -/
def setDebugging (files : Files) : Checked (List Text × Int32) := do
  let config ← deref (parseConfig files)
  let commandFor (mask : Int32) (command : String) : List Text :=
    if config.debug &&& mask ≠ 0 then [lit command] else []
  let commands := List.flatten
    -- Any debug raises the verbose level.
    [if config.debug ≠ 0 then [lit "/sbin/asterisk -rx 'core set verbose 99'"] else [],
      commandFor debugSip "/sbin/asterisk -rx 'sip set debug on'",
      commandFor debugMfcr2 "/sbin/asterisk -rx 'mfcr2 set debug all'",
      commandFor debugIsdn "/sbin/asterisk -rx 'pri set debug on span 1'",
      commandFor debugDtmf "/sbin/asterisk -rx 'core set debug 99'"]
  return (commands, 0)

end Comcerto

/-! ## All operations -/

/-- The calls that use a parsed configuration. -/
inductive Operation where
  | getCngEnable
  | getVadEnable
  | getCodecG723_1BitrateName
  | setDebugging
  | getCodecPacketizationInterval (codecCode : Int32)
  | saveComcerto (conf : Comcerto.ComcertoConfig)
  | getMinCodecIntvl
  | saveSip (conf : Sip.SipConfig)
  | daemonApplyConfig

/-- What a call returns. -/
inductive Answer where
  | number (value : Int32)
  | name (text : Text)

namespace Operation

/-- The answer of a call. -/
def call (charSigned : Bool) (files : Files) : Operation → Checked Answer
  | .getCngEnable => do return .number (← Comcerto.getCngEnable files)
  | .getVadEnable => do return .number (← Comcerto.getVadEnable files)
  | .getCodecG723_1BitrateName => do return .name (← Comcerto.getCodecG723_1BitrateName files)
  | .setDebugging => do return .number (← Comcerto.setDebugging files).2
  | .getCodecPacketizationInterval codecCode =>
      .ok (.number (Comcerto.getCodecPacketizationInterval files codecCode))
  | .saveComcerto conf => do return .number (← Comcerto.saveConfig charSigned files conf).1
  | .getMinCodecIntvl => do return .number (← Sip.getMinCodecIntvl charSigned files)
  | .saveSip conf => do return .number (← Sip.saveConfig charSigned files conf).1
  | .daemonApplyConfig => do return .number (← SysLog.daemonApplyConfig files).2

/-- The files whose parsers a call runs. A save of `sip.conf` only asks for intervals. -/
def parses : Operation → List Path
  | .saveComcerto _ => [Sip.fileSipConf]
  | .getMinCodecIntvl => [Sip.fileSipConf, Comcerto.fileComcertoConf]
  | .saveSip _ => []
  | .daemonApplyConfig => [SysLog.fileSysLogConf]
  | _ => [Comcerto.fileComcertoConf]

/-- A parser that the call runs returns NULL. -/
def Missing (files : Files) (operation : Operation) : Prop :=
  ∃ path ∈ operation.parses, files.openRead path = none

/-- The calls whose headers promise a negative number for an error. -/
def documentsError : Operation → Bool
  | .setDebugging | .saveComcerto _ | .getMinCodecIntvl | .saveSip _ => true
  | _ => false

/-- No NULL is used as a configuration, and where the header promises an error for the
missing configuration, it is returned. -/
structure ToleratesMissing (charSigned : Bool) (files : Files) (operation : Operation) : Prop where
  noNull : operation.call charSigned files ≠ .error .nullPointer
  reported : operation.documentsError = true → operation.Missing files →
    ∃ status, operation.call charSigned files = .ok (.number status) ∧ status < 0

/-- Where that is so: the packetization interval has a test for NULL, a save of
`comcerto.conf` that cannot open its own file comes to nothing, and everything else
needs its files. -/
def Provided (files : Files) : Operation → Prop
  | .getCodecPacketizationInterval _ => True
  | .saveComcerto conf =>
      files.writable Comcerto.fileComcertoConf = false ∨ ¬ Missing files (.saveComcerto conf)
  | operation => ¬ operation.Missing files

end Operation

/-! ## Faults other than NULL -/

namespace Str

theorem striplfField_onlyFaults {size : Nat} (charSigned : Bool) (array : CharArray size) :
    (striplfField charSigned array).OnlyFaults .outOfBounds := .ite .ok .error

end Str

namespace Sip

theorem read_onlyFaults {size : Nat} (array : CharArray size) :
    array.read.OnlyFaults .outOfBounds := .ite .ok .error

theorem stripFields_onlyFaults (charSigned : Bool) (conf : SipConfig) :
    (stripFields charSigned conf).OnlyFaults .outOfBounds := by
  unfold stripFields
  repeat' refine .bind (Str.striplfField_onlyFaults _ _) fun _ => ?_
  exact .ok

theorem stringField_onlyFaults {size : Nat} (key : String) (array : CharArray size) :
    (stringField key array).OnlyFaults .outOfBounds := .bind (read_onlyFaults array) fun _ => .ok

theorem nonemptyField_onlyFaults {size : Nat} (key : String) (array : CharArray size) :
    (nonemptyField key array).OnlyFaults .outOfBounds := .bind (read_onlyFaults array) fun _ => .ok

theorem registerField_onlyFaults (conf : SipConfig) :
    (registerField conf).OnlyFaults .outOfBounds := by
  refine .bind (read_onlyFaults _) fun _ => .bind (read_onlyFaults _) fun _ => ?_
  refine .bind (read_onlyFaults _) fun _ => .ite (.bind (read_onlyFaults _) fun _ => .ok) .ok

theorem printAll_onlyFaults {pieces : List (Checked Text)}
    (only : ∀ piece ∈ pieces, piece.OnlyFaults .outOfBounds) :
    (printAll pieces).OnlyFaults .outOfBounds := by
  induction pieces with
  | nil => exact .ok
  | cons piece pieces inductionHypothesis =>
      obtain ⟨first, rest⟩ := List.forall_mem_cons.mp only
      exact .bind first fun _ => .bind (inductionHypothesis rest) fun _ => .ok

theorem saveText_onlyFaults (files : Files) (conf : SipConfig) :
    (saveText files conf).OnlyFaults .outOfBounds := by
  apply printAll_onlyFaults
  simp only [serverFields, timerFields, sessionFields, registerFields, accountFields,
    List.forall_mem_append, List.forall_mem_cons, List.not_mem_nil, IsEmpty.forall_iff,
    implies_true, Checked.OnlyFaults.ok, stringField_onlyFaults, nonemptyField_onlyFaults,
    registerField_onlyFaults, and_self]

theorem saveConfig_onlyFaults (charSigned : Bool) (files : Files) (conf : SipConfig) :
    (saveConfig charSigned files conf).OnlyFaults .outOfBounds :=
  .ite (.bind (stripFields_onlyFaults charSigned conf) fun stripped =>
    .bind (saveText_onlyFaults files stripped) fun _ => .ok) .ok

/-- A file that opens is parsed into a configuration, or codecs overrun their array. -/
theorem parseConfig_present (charSigned : Bool) {files : Files} {text : Text}
    (opened : files.openRead fileSipConf = some text) :
    (∃ conf, parseConfig charSigned files = .ok (some conf)) ∨
      parseConfig charSigned files = .error .outOfBounds := by
  rw [parseConfig_eq_readAll charSigned opened]
  by_cases few : (allowCodes (linesOf text)).length ≤ 9
  · obtain ⟨state, soFar, -⟩ := @readAll_ok charSigned _ (noNul_linesOf text) few
    rw [soFar]
    exact .inl ⟨state.conf, rfl⟩
  · rw [readAll_overrun (noNul_linesOf text) (Nat.lt_of_not_le few)]
    exact .inr rfl

theorem parseConfig_missing (charSigned : Bool) {files : Files}
    (missing : files.openRead fileSipConf = none) : parseConfig charSigned files = .ok none := by
  rw [parseConfig, missing]

/-- With both files the array of codecs is all that can be overrun. -/
theorem getMinCodecIntvl_onlyFaults (charSigned : Bool) {files : Files} {sipText comcertoText : Text}
    (sip : files.openRead fileSipConf = some sipText)
    (comcerto : files.openRead Comcerto.fileComcertoConf = some comcertoText) :
    (getMinCodecIntvl charSigned files).OnlyFaults .outOfBounds := by
  rw [getMinCodecIntvl, Comcerto.parseConfig, comcerto]
  rcases parseConfig_present charSigned sip with ⟨conf, parsed⟩ | overrun
  · rw [parsed]
    exact .foldlM allowStep_onlyFaults
  · rw [overrun]
    exact .error

/-- Without one of them the minimum is never returned. -/
theorem getMinCodecIntvl_faults (charSigned : Bool) {files : Files}
    (missing : files.openRead fileSipConf = none ∨
      files.openRead Comcerto.fileComcertoConf = none) :
    ∃ fault, getMinCodecIntvl charSigned files = .error fault := by
  cases sip : files.openRead fileSipConf with
  | none =>
      rw [getMinCodecIntvl, parseConfig_missing charSigned sip]
      cases Comcerto.parseConfig files <;> exact ⟨_, rfl⟩
  | some text =>
      have comcerto : files.openRead Comcerto.fileComcertoConf = none := by
        rw [sip] at missing
        exact missing.resolve_left (Option.some_ne_none text)
      rw [getMinCodecIntvl, Comcerto.parseConfig, comcerto]
      rcases parseConfig_present charSigned sip with ⟨conf, parsed⟩ | overrun
      · rw [parsed]
        exact ⟨_, rfl⟩
      · rw [overrun]
        exact ⟨_, rfl⟩

end Sip

/-! ## Which operations need which files -/

namespace Operation

variable {charSigned : Bool} {files : Files} {operation : Operation}

/-- A call that needs its files meets the requirement if they are there and it then
takes no NULL, and misses it if it ends in a NULL dereference without them. -/
theorem toleratesMissing_iff_present
    (present : ¬ operation.Missing files → operation.call charSigned files ≠ .error .nullPointer)
    (absent : operation.Missing files → ¬ ToleratesMissing charSigned files operation) :
    ToleratesMissing charSigned files operation ↔ ¬ operation.Missing files := by
  constructor
  · exact fun tolerates missing => absent missing tolerates
  · exact fun provided => ⟨present provided, fun _ missing => absurd missing provided⟩

theorem missing_singleton {path : Path} (only : operation.parses = [path]) :
    operation.Missing files ↔ files.openRead path = none := by
  rw [Missing, only]
  simp only [List.mem_singleton, exists_eq_left]

theorem noNull_of_onlyFaults (only : (operation.call charSigned files).OnlyFaults .outOfBounds) :
    operation.call charSigned files ≠ .error .nullPointer := by
  intro null
  cases only _ null

/-- The calls that only read `comcerto.conf`: the structure is used as it comes. -/
theorem toleratesMissing_of_comcerto {answer : Comcerto.ComcertoConfig → Answer}
    (only : operation.parses = [Comcerto.fileComcertoConf])
    (same : operation.call charSigned files =
      deref (Comcerto.parseConfig files) >>= fun config => .ok (answer config)) :
    ToleratesMissing charSigned files operation ↔ ¬ operation.Missing files := by
  apply toleratesMissing_iff_present
  · intro provided
    rw [missing_singleton only] at provided
    obtain ⟨text, opened⟩ := Option.ne_none_iff_exists'.mp provided
    rw [same, Comcerto.parseConfig, opened]
    intro impossible
    cases impossible
  · intro missing tolerates
    rw [missing_singleton only] at missing
    apply tolerates.noNull
    rw [same, Comcerto.parseConfig, missing]
    rfl

theorem saveComcerto_tolerates (conf : Comcerto.ComcertoConfig) :
    ToleratesMissing charSigned files (.saveComcerto conf) ↔ Provided files (.saveComcerto conf) := by
  have result : call charSigned files (.saveComcerto conf) =
      Comcerto.saveConfig charSigned files conf >>= fun saved => .ok (.number saved.1) := rfl
  have onlySip : parses (.saveComcerto conf) = [Sip.fileSipConf] := rfl
  have unchanged (text : Text) : (files.write Comcerto.fileComcertoConf text).openRead
      Sip.fileSipConf = files.openRead Sip.fileSipConf := files.openRead_write_of_ne text (by decide)
  by_cases writable : files.writable Comcerto.fileComcertoConf = true
  · rw [Provided, or_iff_right (by rw [writable]; exact Bool.noConfusion)]
    apply toleratesMissing_iff_present
    · intro provided
      rw [missing_singleton onlySip] at provided
      obtain ⟨text, opened⟩ := Option.ne_none_iff_exists'.mp provided
      have stillOpened := (unchanged (Comcerto.saveText conf)).trans opened
      have parsed := Sip.parseConfig_present charSigned stillOpened
      apply noNull_of_onlyFaults
      rw [result, Comcerto.saveConfig, if_pos writable]
      refine .bind ?_ fun _ => .ok
      rcases parsed with ⟨sipConf, parsed⟩ | overrun
      · simp only [parsed, Checked.ok_bind]
        exact .bind (Sip.saveConfig_onlyFaults _ _ _) fun _ => .ok
      · simp only [overrun]
        exact .error
    · intro missing tolerates
      rw [missing_singleton onlySip] at missing
      apply tolerates.noNull
      rw [result, Comcerto.saveConfig, if_pos writable]
      simp only [Sip.parseConfig_missing charSigned ((unchanged _).trans missing)]
      rfl
  · have refused : call charSigned files (.saveComcerto conf) = .ok (.number (-1)) := by
      rw [result, Comcerto.saveConfig, if_neg writable]
      rfl
    refine iff_of_true ⟨?_, fun _ _ => ⟨-1, refused, by decide⟩⟩ (.inl (Bool.not_eq_true _ ▸ writable))
    rw [refused]
    intro impossible
    cases impossible

theorem saveSip_tolerates (conf : Sip.SipConfig) :
    ToleratesMissing charSigned files (.saveSip conf) := by
  have only : (call charSigned files (.saveSip conf)).OnlyFaults .outOfBounds :=
    .bind (Sip.saveConfig_onlyFaults charSigned files conf) fun _ => .ok
  refine ⟨noNull_of_onlyFaults only, ?_⟩
  · rintro - ⟨path, parsed, -⟩
    cases parsed

theorem getMinCodecIntvl_tolerates :
    ToleratesMissing charSigned files .getMinCodecIntvl ↔ ¬ Missing files .getMinCodecIntvl := by
  have result : call charSigned files .getMinCodecIntvl =
      Sip.getMinCodecIntvl charSigned files >>= fun interval => .ok (.number interval) := rfl
  have needs : Missing files .getMinCodecIntvl ↔ files.openRead Sip.fileSipConf = none ∨
      files.openRead Comcerto.fileComcertoConf = none := by
    simp only [Missing, parses, List.mem_cons, List.not_mem_nil, or_false, exists_eq_or_imp,
      exists_eq_left]
  apply toleratesMissing_iff_present
  · rw [needs, not_or]
    rintro ⟨sip, comcerto⟩
    obtain ⟨sipText, sipOpened⟩ := Option.ne_none_iff_exists'.mp sip
    obtain ⟨comcertoText, comcertoOpened⟩ := Option.ne_none_iff_exists'.mp comcerto
    have only := Sip.getMinCodecIntvl_onlyFaults charSigned sipOpened comcertoOpened
    exact noNull_of_onlyFaults (.bind only fun _ => .ok)
  · intro missing tolerates
    obtain ⟨status, returned, -⟩ := tolerates.reported rfl missing
    obtain ⟨fault, faults⟩ := Sip.getMinCodecIntvl_faults charSigned (needs.mp missing)
    rw [result, faults] at returned
    cases returned

theorem daemonApplyConfig_tolerates :
    ToleratesMissing charSigned files .daemonApplyConfig ↔ ¬ Missing files .daemonApplyConfig := by
  have result : call charSigned files .daemonApplyConfig =
      SysLog.daemonApplyConfig files >>= fun applied => .ok (.number applied.2) := rfl
  have onlySysLog : parses .daemonApplyConfig = [SysLog.fileSysLogConf] := rfl
  apply toleratesMissing_iff_present
  · intro provided
    rw [missing_singleton onlySysLog] at provided
    obtain ⟨text, opened⟩ := Option.ne_none_iff_exists'.mp provided
    apply noNull_of_onlyFaults
    refine .bind ?_ fun _ => .ok
    rw [SysLog.daemonApplyConfig, SysLog.parseConfig, opened]
    exact .bind (Sip.read_onlyFaults _) fun _ => .bind (.ite .ok .error) fun _ => .ok
  · intro missing tolerates
    rw [missing_singleton onlySysLog] at missing
    apply tolerates.noNull
    rw [result, SysLog.daemonApplyConfig, SysLog.parseConfig, missing]
    rfl

/-- A missing file is tolerated exactly where `Provided` says. -/
theorem toleratesMissing_iff (charSigned : Bool) (files : Files) (operation : Operation) :
    ToleratesMissing charSigned files operation ↔ operation.Provided files := by
  cases operation with
  | getCngEnable =>
      have same : call charSigned files .getCngEnable = deref (Comcerto.parseConfig files) >>=
          fun config => .ok (.number config.cngEnable) := by
        cases parsed : Comcerto.parseConfig files <;> rw [call, Comcerto.getCngEnable, parsed] <;> rfl
      exact toleratesMissing_of_comcerto rfl same
  | getVadEnable =>
      have same : call charSigned files .getVadEnable = deref (Comcerto.parseConfig files) >>=
          fun config => .ok (.number config.vadEnable) := by
        cases parsed : Comcerto.parseConfig files <;> rw [call, Comcerto.getVadEnable, parsed] <;> rfl
      exact toleratesMissing_of_comcerto rfl same
  | getCodecG723_1BitrateName =>
      have same : call charSigned files .getCodecG723_1BitrateName =
          deref (Comcerto.parseConfig files) >>= fun config =>
            .ok (.name (if config.codecG723_1 ≠ 0 then Comcerto.g723_1Bitrate63Name
              else Comcerto.g723_1Bitrate53Name)) := by
        cases parsed : Comcerto.parseConfig files <;>
          rw [call, Comcerto.getCodecG723_1BitrateName, parsed] <;> rfl
      exact toleratesMissing_of_comcerto rfl same
  | setDebugging =>
      have same : call charSigned files .setDebugging =
          deref (Comcerto.parseConfig files) >>= fun _ => .ok (.number 0) := by
        cases parsed : Comcerto.parseConfig files <;>
          rw [call, Comcerto.setDebugging, parsed] <;> rfl
      exact toleratesMissing_of_comcerto rfl same
  | getCodecPacketizationInterval codecCode =>
      refine iff_of_true ⟨?_, ?_⟩ trivial
      · intro null
        cases null
      · intro impossible
        cases impossible
  | saveComcerto conf => exact saveComcerto_tolerates conf
  | getMinCodecIntvl => exact getMinCodecIntvl_tolerates
  | saveSip conf =>
      refine iff_of_true (saveSip_tolerates conf) ?_
      rintro ⟨path, parsed, -⟩
      cases parsed
  | daemonApplyConfig => exact daemonApplyConfig_tolerates

/-- Without files the first call already reads through NULL. -/
theorem missing_comcerto_faults :
    call true Files.empty .getCngEnable = .error .nullPointer ∧
      ¬ ToleratesMissing true Files.empty .getCngEnable := by
  have null : call true Files.empty .getCngEnable = .error .nullPointer := rfl
  exact ⟨null, fun tolerates => tolerates.noNull null⟩

end Operation

end Libamg
