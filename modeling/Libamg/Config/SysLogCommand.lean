import Libamg.Config.SysLog

/-!
# The command that starts the daemon

What a `sys_log.conf` with any content puts on the command line. The crop step means to
cut values off at a blank, tab, newline, `;` or `#`, but its delimiters end at the NUL
in their literal, and a delimiter at the front of a value stays: `runsOneCommand_iff`.
-/

namespace Libamg.SysLog

open C

/-- The separators that the literal of the crop step lists. -/
def separators : Text := lit " \t\n;#"

/-- The words behind the name of the daemon. -/
def optionWords (config : SysLogConfig) : List Text :=
  (if config.remoteEnable ≠ 0 ∧ config.loglevel ≠ 0 then
    [lit "-l", printInt config.loglevel.toInt]
  else []) ++
  (if config.remoteEnable ≠ 0 ∧ config.remoteHost.str ≠ [] then
    [lit "-L", lit "-R", config.remoteHost.str ++ lit ":" ++ printInt daemonPortSysLog.toInt]
  else [])

/-- The daemon is started by one command, of words that hold no separator. -/
def RunsOneCommand (files : Files) : Prop :=
  ∃ config, parseConfig files = some config ∧
    daemonApplyConfig files =
      .ok ([lit "/bin/pkill syslogd", [blank].intercalate (daemonSysLog :: optionWords config)], 0) ∧
    ∀ word ∈ optionWords config, ∀ byte ∈ word, byte ∉ separators

theorem command_eq_words (config : SysLogConfig) :
    daemonSysLog ++ (levelOption config ++ remoteOption config) =
      [blank].intercalate (daemonSysLog :: optionWords config) := by
  have level : lit " -l " = blank :: (lit "-l" ++ [blank]) := by decide
  have remote : lit " -L -R " = blank :: (lit "-L" ++ blank :: (lit "-R" ++ [blank])) := by decide
  rw [levelOption, remoteOption, optionWords]
  split <;> split <;>
    simp only [level, remote, List.append_nil, List.nil_append, List.cons_append,
      List.append_assoc, List.intercalate_cons_cons, List.intercalate_singleton]

/-- The separators that may get into the command are those of the host. -/
theorem optionWords_clean_iff (config : SysLogConfig) :
    (∀ word ∈ optionWords config, ∀ byte ∈ word, byte ∉ separators) ↔
      config.remoteEnable = 0 ∨ ∀ byte ∈ config.remoteHost.str, byte ∉ separators := by
  have number (n : Int) : ∀ byte ∈ printInt n, byte ∉ separators := by
    intro byte member separator
    have noNumber : ∀ byte ∈ separators, isDigit byte = false ∧ byte ≠ minus :=
      forall_mem_of_all (by decide)
    obtain ⟨notDigit, notMinus⟩ := noNumber byte separator
    exact notMem_printInt notDigit notMinus n member
  have level : ∀ byte ∈ lit "-l", byte ∉ separators := forall_mem_of_all (by decide)
  have loghost : ∀ byte ∈ lit "-L", byte ∉ separators := forall_mem_of_all (by decide)
  have remote : ∀ byte ∈ lit "-R", byte ∉ separators := forall_mem_of_all (by decide)
  have between : ∀ byte ∈ lit ":", byte ∉ separators := forall_mem_of_all (by decide)
  rw [optionWords, List.forall_mem_append]
  by_cases enabled : config.remoteEnable = 0
  · have off (other : Prop) : ¬ (config.remoteEnable ≠ 0 ∧ other) := fun both => both.1 enabled
    rw [if_neg (off _), if_neg (off _)]
    exact iff_of_true ⟨nofun, nofun⟩ (.inl enabled)
  · have levels : ∀ word ∈ (if config.remoteEnable ≠ 0 ∧ config.loglevel ≠ 0 then
        [lit "-l", printInt config.loglevel.toInt] else []), ∀ byte ∈ word, byte ∉ separators := by
      split
      · simp only [List.forall_mem_cons, List.not_mem_nil, IsEmpty.forall_iff, implies_true,
          and_true]
        exact ⟨level, number _⟩
      · exact fun word impossible => absurd impossible List.not_mem_nil
    rw [or_iff_right enabled, and_iff_right levels]
    by_cases given : config.remoteHost.str = []
    · rw [if_neg fun both => both.2 given, given]
      exact iff_of_true nofun nofun
    · rw [if_pos ⟨enabled, given⟩]
      simp only [List.forall_mem_cons, List.forall_mem_append, List.not_mem_nil,
        IsEmpty.forall_iff, implies_true, and_true]
      exact ⟨fun all => all.2.2.1.1, fun host => ⟨loghost, remote, ⟨host, between⟩, number _⟩⟩

/-! ## The parsed host -/

/-- The lines of the file before their values are cropped. -/
def rawLines (text : Text) : List (Text × Text) := linesRead bufSize [] text

/-- The configuration after these lines: the last value of each key counts. -/
structure ReadBack (lines : List (Text × Text)) (conf : SysLogConfig) : Prop where
  remoteEnable : conf.remoteEnable = (valuesOf "remote_enable" lines).getLast?.elim 0 atoi
  remoteHost : conf.remoteHost.str = (valuesOf "remote_host" lines).getLast?.elim [] (List.take 63)
  closed : conf.remoteHost.Closed

theorem ReadBack.zero : ReadBack [] .zero where
  remoteEnable := rfl
  remoteHost := CharArray.str_zero
  closed := CharArray.closed_zero 63

/-- One more line. -/
theorem ReadBack.snoc {lines : List (Text × Text)} {conf : SysLogConfig} {key value : Text}
    (read : ReadBack lines conf) (noNul : 0 ∉ value) :
    ReadBack (lines ++ [(key, value)]) (applySetting key value conf) := by
  have other {name : String} (different : key ≠ lit name) :
      valuesOf name (lines ++ [(key, value)]) = valuesOf name lines := by
    rw [valuesOf_append, valuesOf_singleton_of_ne value different, List.append_nil]
  have last (name : String) :
      (valuesOf name (lines ++ [(lit name, value)])).getLast? = some value := by
    rw [valuesOf_append, valuesOf_singleton_self, List.getLast?_concat]
  have closed := applySetting_closed read.closed key value
  by_cases isEnable : key = lit "remote_enable"
  · subst isEnable
    have notHost : lit "remote_enable" ≠ lit "remote_host" := by decide
    refine ⟨?_, ?_, closed⟩
    · rw [last]
      rfl
    · rw [other notHost]
      exact read.remoteHost
  · by_cases isHost : key = lit "remote_host"
    · subst isHost
      have notEnable : lit "remote_host" ≠ lit "remote_enable" := by decide
      refine ⟨?_, ?_, closed⟩
      · rw [other notEnable]
        exact read.remoteEnable
      · rw [last]
        exact read.closed.str_strncpy noNul
    · refine ⟨?_, ?_, closed⟩
      · rw [other isEnable, ← read.remoteEnable, applySetting, if_neg isEnable, if_neg isHost]
        split <;> rfl
      · rw [other isHost, ← read.remoteHost, applySetting, if_neg isEnable, if_neg isHost]
        split <;> rfl

/-- A file that opens is parsed into the configuration of its cropped lines. -/
theorem parseConfig_readBack {files : Files} {text : Text}
    (opened : files.openRead fileSysLogConf = some text) :
    ∃ conf, parseConfig files = some conf ∧ ReadBack (linesRead bufSize cropDelimiters text) conf := by
  refine ⟨_, by rw [parseConfig, opened, Option.map_some, parseLines_eq_foldl], ?_⟩
  have noNul : ∀ line ∈ linesRead bufSize cropDelimiters text, 0 ∉ line.2 :=
    fun _ read => nul_notMem_of_linesRead read
  generalize linesRead bufSize cropDelimiters text = lines at noNul ⊢
  induction lines using List.reverseRecOn with
  | nil => exact .zero
  | append_singleton lines line inductionHypothesis =>
      have earlier := inductionHypothesis fun other listed =>
        noNul other (List.mem_append_left _ listed)
      rw [List.foldl_append]
      exact earlier.snoc (noNul line (List.mem_append_right _ List.mem_cons_self))

/-! ## When the command is one -/

/-- The file switches remote logging off. -/
def RemoteOff (text : Text) : Prop :=
  ∀ raw ∈ (valuesOf "remote_enable" (rawLines text)).getLast?, atoi (crop cropDelimiters raw) = 0

/-- A value that does not begin with a blank, tab or newline, and has no `;` or `#` in the
first 63 bytes before the next one. -/
def CleanHost (raw : Text) : Prop :=
  (∀ byte ∈ raw.head?, byte ∉ cropDelimiters) ∧
    ∀ byte ∈ (raw.takeWhile (· ∉ cropDelimiters)).take 63, byte ∉ lit ";#"

instance (raw : Text) : Decidable (CleanHost raw) :=
  decidable_of_iff
    (raw.head?.all (fun byte => decide (byte ∉ cropDelimiters)) = true ∧
      ((raw.takeWhile (· ∉ cropDelimiters)).take 63).all (fun byte => decide (byte ∉ lit ";#")) = true)
    (by simp only [CleanHost, List.all_eq_true, Option.all_eq_true, decide_eq_true_eq, Option.mem_def])

/-- What is left of a value has no separator in it exactly if the value is such a one. -/
theorem cleanHost_iff (raw : Text) :
    (∀ byte ∈ (crop cropDelimiters raw).take 63, byte ∉ separators) ↔ CleanHost raw := by
  have parts (byte : Byte) : byte ∉ separators ↔ byte ∉ cropDelimiters ∧ byte ∉ lit ";#" := by
    have both : separators = cropDelimiters ++ lit ";#" := by decide
    rw [both, List.mem_append, not_or]
  constructor
  · intro clean
    have token : ∀ byte ∈ raw.head?, byte ∉ cropDelimiters := by
      intro byte first delimiter
      obtain ⟨rest, kept⟩ := List.head?_eq_some_iff.mp (mem_crop_of_head first delimiter)
      have member : byte ∈ (crop cropDelimiters raw).take 63 := by
        rw [kept]
        exact List.mem_cons_self
      exact ((parts byte).mp (clean byte member)).1 delimiter
    rw [crop_of_head token] at clean
    exact ⟨token, fun byte member => ((parts byte).mp (clean byte member)).2⟩
  · rintro ⟨token, noComment⟩
    rw [crop_of_head token]
    intro byte member
    have inToken := List.mem_takeWhile_imp (List.mem_of_mem_take member)
    exact (parts byte).mpr ⟨of_decide_eq_true inToken, noComment byte member⟩

/-- The daemon is started by one command exactly if remote logging is off or the last
host of the file is clean. -/
theorem runsOneCommand_iff {files : Files} {text : Text}
    (opened : files.openRead fileSysLogConf = some text) :
    RunsOneCommand files ↔ RemoteOff text ∨
      ∀ raw ∈ (valuesOf "remote_host" (rawLines text)).getLast?, CleanHost raw := by
  obtain ⟨conf, parsed, read⟩ := parseConfig_readBack opened
  have run : daemonApplyConfig files =
      .ok ([lit "/bin/pkill syslogd", [blank].intercalate (daemonSysLog :: optionWords conf)], 0) := by
    rw [daemonApplyConfig_eq parsed read.closed.terminated, commands, command_eq_words]
  have once : RunsOneCommand files ↔
      ∀ word ∈ optionWords conf, ∀ byte ∈ word, byte ∉ separators := by
    constructor
    · rintro ⟨other, sameParse, -, clean⟩
      rw [parsed] at sameParse
      cases sameParse
      exact clean
    · exact fun clean => ⟨conf, parsed, run, clean⟩
  have lines : linesRead bufSize cropDelimiters text =
      (rawLines text).map fun line => (line.1, crop cropDelimiters line.2) :=
    linesRead_eq_map bufSize cropDelimiters text
  rw [once, optionWords_clean_iff, read.remoteEnable, read.remoteHost, lines, valuesOf_map,
    valuesOf_map, List.getLast?_map, List.getLast?_map]
  refine or_congr ?_ ?_
  · rw [RemoteOff]
    cases (valuesOf "remote_enable" (rawLines text)).getLast? with
    | none =>
        refine iff_of_true rfl fun raw impossible => ?_
        cases impossible
    | some raw => simp
  · cases (valuesOf "remote_host" (rawLines text)).getLast? with
    | none =>
        refine iff_of_true (fun byte impossible => ?_) (fun raw impossible => ?_)
        · cases impossible
        · cases impossible
    | some raw => simpa using cleanHost_iff raw

/-- A file with a host and a port on a line of its own. -/
def remoteText : Text := lit "remote_enable=1\nremote_host=10.0.0.1 # central\n"

theorem runsOneCommand_iff_witness :
    RunsOneCommand (Files.empty.write fileSysLogConf remoteText) ↔ RemoteOff remoteText ∨
      ∀ raw ∈ (valuesOf "remote_host" (rawLines remoteText)).getLast?, CleanHost raw :=
  runsOneCommand_iff (Files.openRead_write_self _ rfl)

/-- A file whose host goes on with a second command. -/
def rebootText : Text := lit "remote_enable=1\nremote_host=10.0.0.1;reboot\n"

/-- The separator and the command behind it are handed to `system`. -/
theorem second_command_runs :
    daemonApplyConfig (Files.empty.write fileSysLogConf rebootText) =
      .ok ([lit "/bin/pkill syslogd", lit "/sbin/syslogd -L -R 10.0.0.1;reboot:172"], 0) ∧
    ¬ RunsOneCommand (Files.empty.write fileSysLogConf rebootText) := by
  have opened : (Files.empty.write fileSysLogConf rebootText).openRead fileSysLogConf =
      some rebootText := Files.openRead_write_self _ rfl
  have shown : parseConfig (Files.empty.write fileSysLogConf rebootText) =
      some (loghost (lit "10.0.0.1;reboot")) := by
    rw [parseConfig, opened]
    decide
  constructor
  · rw [daemonApplyConfig_eq shown (by decide)]
    decide
  · rintro ⟨conf, parsed, -, clean⟩
    rw [shown] at parsed
    cases parsed
    have separator : (59 : Byte) ∈ separators := by decide
    exact clean (lit "10.0.0.1;reboot:172") (by decide) 59 (by decide) separator

end Libamg.SysLog
