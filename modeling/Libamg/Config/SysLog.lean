import Libamg.C.Memory
import Libamg.Config.Value
import Libamg.Files

/-!
# sys_log.conf

The configuration of the logging daemon in `sys_log.c` and the command line that is
made from it. A host is printed and cropped like every other value, and an empty one
leaves nothing to crop: `reread` shows what then comes back.
-/

namespace Libamg.SysLog

open C

def fileSysLogConf : Path := "/etc/sys_log.conf"

/-- `BUF_SIZE` of `sys_log.c`. -/
def bufSize : Nat := 256

def daemonSysLog : Text := lit "/sbin/syslogd"

def daemonPortSysLog : Int32 := 172

/-- `struct libamg_sys_log_config`. -/
structure SysLogConfig where
  remoteEnable : Int32
  loglevel : Int32
  remoteHost : CharArray 64
deriving DecidableEq

/-- The structure cleared by `memset`. -/
def SysLogConfig.zero : SysLogConfig := ⟨0, 0, .zero 64⟩

/-- What one `key=value` line does to the configuration. -/
def applySetting (key value : Text) (conf : SysLogConfig) : SysLogConfig :=
  if key = lit "remote_enable" then { conf with remoteEnable := atoi value }
  else if key = lit "loglevel" then { conf with loglevel := atoi value }
  else if key = lit "remote_host" then
    { conf with remoteHost := conf.remoteHost.strncpy value 63 (Nat.le_succ 63) }
  else conf

/-- `libamg_sys_log_parse_config`; `none` is the NULL it returns when the file cannot
be opened. -/
def parseConfig (files : Files) : Option SysLogConfig :=
  (files.openRead fileSysLogConf).map (parseLines bufSize cropDelimiters applySetting .zero)

/-- The text that `libamg_sys_log_save_config` prints. -/
def saveText (conf : SysLogConfig) : Checked Text := do
  let host ← conf.remoteHost.read
  return field "remote_enable" (printInt conf.remoteEnable.toInt) ++
    field "loglevel" (printInt conf.loglevel.toInt) ++ field "remote_host" host

/-- `libamg_sys_log_save_config`: the returned status and the files afterwards. -/
def saveConfig (files : Files) (conf : SysLogConfig) : Checked (Int32 × Files) :=
  if files.writable fileSysLogConf then do
    let text ← saveText conf
    return (0, files.write fileSysLogConf text)
  else return (-1, files)

/-- `libamg_sys_log_daemon_apply_config`: the commands it hands to `system` and the
returned status. The parsed configuration is used without a test for NULL. -/
def daemonApplyConfig (files : Files) : Checked (List Text × Int32) :=
  match parseConfig files with
  | none => .error .nullPointer
  | some config => do
      let host ← config.remoteHost.read
      let options :=
        if config.remoteEnable ≠ 0 then
          (if config.loglevel ≠ 0 then lit " -l " ++ printInt config.loglevel.toInt else []) ++
          (if host.length > 0 then
            lit " -L -R " ++ host ++ lit ":" ++ printInt daemonPortSysLog.toInt
          else [])
        else []
      let command ← sprintf bufSize (daemonSysLog ++ options)
      return ([lit "/bin/pkill syslogd", command], 0)

/-! ## The written file -/

def fileLines (conf : SysLogConfig) : List Entry :=
  [.setting (lit "remote_enable") (printInt conf.remoteEnable.toInt),
    .setting (lit "loglevel") (printInt conf.loglevel.toInt),
    .setting (lit "remote_host") conf.remoteHost.str]

theorem saveText_eq_render {conf : SysLogConfig} (terminated : conf.remoteHost.Terminated) :
    saveText conf = .ok (render (fileLines conf)) := by
  rw [saveText, CharArray.read_eq_str terminated, fileLines, render_setting, render_setting,
    render_setting, render_nil, List.append_nil, ← List.append_assoc]
  rfl

/-- A word in a host field makes a line that is read back whole. -/
theorem fileLines_wellFormed {conf : SysLogConfig} (word : conf.remoteHost.Word) :
    ∀ entry ∈ fileLines conf, entry.WellFormed bufSize := by
  have short := word.length_lt
  have keyLength : (lit "remote_host").length = 11 := by decide
  have host : (Entry.setting (lit "remote_host") conf.remoteHost.str).WellFormed bufSize := by
    apply Entry.WellFormed.ofSetting
    · decide
    · exact ⟨word.isWord.newline_notMem, word.isWord.nul_notMem⟩
    · rw [keyLength, bufSize]
      omega
  simp only [fileLines, List.forall_mem_cons]
  exact ⟨(Plain.printInt _).wellFormed (by decide), (Plain.printInt _).wellFormed (by decide),
    host, by simp⟩

/-- The configuration that parsing finds in the file a save of `conf` wrote. -/
def SysLogConfig.reread (conf : SysLogConfig) : SysLogConfig where
  remoteEnable := conf.remoteEnable
  loglevel := conf.loglevel
  remoteHost := .filled 63 (cropped conf.remoteHost.str)

theorem parseLines_fileLines {conf : SysLogConfig} (word : conf.remoteHost.Word) :
    parseLines bufSize cropDelimiters applySetting .zero (render (fileLines conf)) =
      conf.reread := by
  rw [parseLines_render applySetting .zero (fileLines_wellFormed word)]
  simp only [fileLines, List.foldl_cons, List.foldl_nil, applyEntry, applySetting, lit_inj,
    String.reduceEq, ↓reduceIte, (Plain.printInt _).crop, crop_bare word.isWord, atoi_printInt]
  rfl

theorem parseConfig_saved {files : Files} {conf : SysLogConfig}
    (readable : files.readable fileSysLogConf = true) (word : conf.remoteHost.Word) :
    parseConfig (files.write fileSysLogConf (render (fileLines conf))) = some conf.reread := by
  rw [parseConfig, Files.openRead_write_self _ readable, Option.map_some,
    parseLines_fileLines word]

theorem saveConfig_eq {files : Files} {conf : SysLogConfig}
    (writable : files.writable fileSysLogConf = true) (word : conf.remoteHost.Word) :
    saveConfig files conf = .ok (0, files.write fileSysLogConf (render (fileLines conf))) := by
  rw [saveConfig, if_pos writable, saveText_eq_render word.terminated]
  rfl

/-! ## The parsed host -/

theorem applySetting_closed {conf : SysLogConfig} (closed : conf.remoteHost.Closed)
    (key value : Text) : (applySetting key value conf).remoteHost.Closed := by
  unfold applySetting
  split
  · exact closed
  · split
    · exact closed
    · split
      · exact closed.strncpy value (by decide) (by decide)
      · exact closed

/-- Whatever the file holds, the parsed host is terminated. -/
theorem parseConfig_terminated {files : Files} {conf : SysLogConfig}
    (parsed : parseConfig files = some conf) : conf.remoteHost.Terminated := by
  obtain ⟨text, -, rfl⟩ := Option.map_eq_some_iff.mp parsed
  rw [parseLines_eq_foldl]
  have closed : ((linesRead bufSize cropDelimiters text).foldl
      (fun state line => applySetting line.1 line.2 state) .zero).remoteHost.Closed := by
    induction linesRead bufSize cropDelimiters text using List.reverseRecOn with
    | nil => exact CharArray.closed_zero 63
    | append_singleton lines line inductionHypothesis =>
        rw [List.foldl_append]
        exact applySetting_closed inductionHypothesis line.1 line.2
  exact closed.terminated

/-! ## The host that comes back -/

theorem reread_terminated {conf : SysLogConfig} (word : conf.remoteHost.Word) :
    conf.reread.remoteHost.Terminated := by
  have room := word.length_lt
  have short : (cropped conf.remoteHost.str).length ≤ 63 := by
    rw [cropped]
    split
    · decide
    · omega
  exact CharArray.filled_terminated short

/-- A host comes back as itself, except that an empty one comes back as a newline. -/
theorem str_reread {conf : SysLogConfig} (word : conf.remoteHost.Word) :
    conf.reread.remoteHost.str = cropped conf.remoteHost.str := by
  have room := word.length_lt
  by_cases empty : conf.remoteHost.str = []
  · rw [SysLogConfig.reread, cropped, if_pos empty]
    exact CharArray.str_filled (by decide) (by decide)
  · rw [SysLogConfig.reread, cropped_eq_self empty]
    exact CharArray.str_filled word.isWord.nul_notMem (by omega)

/-- Two configurations with the same numbers and the same host string. -/
structure SameConfig (left right : SysLogConfig) : Prop where
  remoteEnable : left.remoteEnable = right.remoteEnable
  loglevel : left.loglevel = right.loglevel
  remoteHost : left.remoteHost.Terminated ∧ left.remoteHost.str = right.remoteHost.str

theorem sameConfig_reread_iff {conf : SysLogConfig} (word : conf.remoteHost.Word) :
    SameConfig conf.reread conf ↔ conf.remoteHost.str ≠ [] := by
  constructor
  · intro same empty
    have host := same.remoteHost.2
    rw [str_reread word, cropped, if_pos empty, empty] at host
    exact List.cons_ne_nil _ _ host
  · intro nonempty
    refine ⟨rfl, rfl, reread_terminated word, ?_⟩
    rw [str_reread word, cropped_eq_self nonempty]

/-! ## The daemon's command line -/

/-- The options that a configuration stands for: the log level when it is set, and the
remote host when remote logging is on and a host is given. -/
def levelOption (conf : SysLogConfig) : Text :=
  if conf.remoteEnable ≠ 0 ∧ conf.loglevel ≠ 0 then lit " -l " ++ printInt conf.loglevel.toInt
  else []

def remoteOption (conf : SysLogConfig) : Text :=
  if conf.remoteEnable ≠ 0 ∧ conf.remoteHost.str ≠ [] then
    lit " -L -R " ++ conf.remoteHost.str ++ lit ":" ++ printInt daemonPortSysLog.toInt
  else []

/-- The commands that apply a configuration. -/
def commands (conf : SysLogConfig) : List Text :=
  [lit "/bin/pkill syslogd", daemonSysLog ++ (levelOption conf ++ remoteOption conf)]

theorem command_fits (conf : SysLogConfig) (terminated : conf.remoteHost.Terminated) :
    (daemonSysLog ++ (levelOption conf ++ remoteOption conf)).length < bufSize := by
  have host := CharArray.str_length_lt terminated
  have level := printInt32_length_le conf.loglevel
  have port := printInt32_length_le daemonPortSysLog
  have daemonLength : daemonSysLog.length = 13 := by decide
  have levelLength : (levelOption conf).length ≤ 15 := by
    have front : (lit " -l ").length = 4 := by decide
    rw [levelOption]
    split
    · rw [List.length_append, front]
      omega
    · exact Nat.zero_le _
  have remoteLength : (remoteOption conf).length ≤ 82 := by
    have front : (lit " -L -R ").length = 7 := by decide
    have colon : (lit ":").length = 1 := by decide
    rw [remoteOption]
    split
    · simp only [List.length_append, front, colon]
      omega
    · exact Nat.zero_le _
  rw [List.length_append, List.length_append, bufSize]
  omega

/-- The commands run for a parsed configuration; the buffer is always large enough. -/
theorem daemonApplyConfig_eq {files : Files} {config : SysLogConfig}
    (parsed : parseConfig files = some config) (terminated : config.remoteHost.Terminated) :
    daemonApplyConfig files = .ok (commands config, 0) := by
  have options : (if config.remoteEnable ≠ 0 then
      (if config.loglevel ≠ 0 then lit " -l " ++ printInt config.loglevel.toInt else []) ++
      (if config.remoteHost.str.length > 0 then
        lit " -L -R " ++ config.remoteHost.str ++ lit ":" ++ printInt daemonPortSysLog.toInt
      else [])
      else []) = levelOption config ++ remoteOption config := by
    by_cases enabled : config.remoteEnable ≠ 0
    · rw [if_pos enabled, levelOption, remoteOption]
      simp only [and_iff_right enabled, gt_iff_lt, List.length_pos_iff]
    · rw [if_neg enabled, levelOption, remoteOption, if_neg fun both => enabled both.1,
        if_neg fun both => enabled both.1, List.append_nil]
  rw [daemonApplyConfig, parsed]
  simp only [CharArray.read_eq_str terminated, Checked.ok_bind, options,
    sprintf_eq (command_fits config terminated)]
  rfl

/-! ## The round trip -/

/-- Saving and parsing again brings the configuration back. -/
def RoundTrips (files : Files) (conf : SysLogConfig) : Prop :=
  ∃ after parsed, saveConfig files conf = .ok (0, after) ∧ parseConfig after = some parsed ∧
    SameConfig parsed conf

/-- Applying the saved file runs the commands that the configuration stands for. -/
def AppliesSaved (files : Files) (conf : SysLogConfig) : Prop :=
  ∃ after, saveConfig files conf = .ok (0, after) ∧
    daemonApplyConfig after = .ok (commands conf, 0)

theorem commands_of_same {left right : SysLogConfig} (same : SameConfig left right) :
    commands left = commands right := by
  simp only [commands, levelOption, remoteOption, same.remoteEnable, same.loglevel,
    same.remoteHost.2]

theorem roundTrips_iff {files : Files} {conf : SysLogConfig}
    (openable : files.Openable fileSysLogConf) (word : conf.remoteHost.Word) :
    RoundTrips files conf ↔ SameConfig conf.reread conf := by
  have saved := saveConfig_eq openable.2 word
  have parsed := parseConfig_saved openable.1 word
  constructor
  · rintro ⟨after, found, written, read, same⟩
    rw [saved] at written
    cases written
    rw [parsed] at read
    cases read
    exact same
  · intro same
    exact ⟨_, _, saved, parsed, same⟩

/-- Saved, parsed and applied, a configuration is itself again exactly when its host is
not empty. -/
theorem roundTrip_iff_host {files : Files} {conf : SysLogConfig}
    (openable : files.Openable fileSysLogConf) (word : conf.remoteHost.Word) :
    RoundTrips files conf ∧ AppliesSaved files conf ↔ conf.remoteHost.str ≠ [] := by
  constructor
  · rintro ⟨roundTrips, -⟩
    exact (sameConfig_reread_iff word).mp ((roundTrips_iff openable word).mp roundTrips)
  · intro nonempty
    have same := (sameConfig_reread_iff word).mpr nonempty
    refine ⟨(roundTrips_iff openable word).mpr same, _, saveConfig_eq openable.2 word, ?_⟩
    rw [daemonApplyConfig_eq (parseConfig_saved openable.1 word) (reread_terminated word),
      commands_of_same same]

/-- A host by which both directions of the round trip can be tried. -/
def loghost (name : Text) : SysLogConfig where
  remoteEnable := 1
  loglevel := 0
  remoteHost := .filled 63 name

theorem roundTrip_iff_host_witness :
    RoundTrips Files.empty (loghost (lit "10.0.0.1")) ∧
      AppliesSaved Files.empty (loghost (lit "10.0.0.1")) ↔
      (loghost (lit "10.0.0.1")).remoteHost.str ≠ [] :=
  roundTrip_iff_host (by decide) (by decide)

/-- An empty host comes back as a newline, which the daemon is then given as its host. -/
theorem emptyHost_lost :
    Files.empty.Openable fileSysLogConf ∧ (loghost []).remoteHost.Word ∧
      (loghost []).remoteHost.str = [] ∧ ¬ RoundTrips Files.empty (loghost []) ∧
      ∃ after, saveConfig Files.empty (loghost []) = .ok (0, after) ∧
        daemonApplyConfig after =
          .ok ([lit "/bin/pkill syslogd", lit "/sbin/syslogd -L -R \n:172"], 0) := by
  have openable : Files.empty.Openable fileSysLogConf := by decide
  have word : (loghost []).remoteHost.Word := by decide
  have empty : (loghost []).remoteHost.str = [] := by decide
  have given : commands (loghost []).reread =
      [lit "/bin/pkill syslogd", lit "/sbin/syslogd -L -R \n:172"] := by decide
  refine ⟨openable, word, empty, ?_, _, saveConfig_eq openable.2 word, ?_⟩
  · intro roundTrips
    have same := (roundTrips_iff openable word).mp roundTrips
    exact (sameConfig_reread_iff word).mp same empty
  · rw [daemonApplyConfig_eq (parseConfig_saved openable.1 word) (reread_terminated word), given]

end Libamg.SysLog
