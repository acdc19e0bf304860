import Libamg.Config.SipRoundTrip

/-!
# Saving comcerto.conf

`libamg_comcerto_save_config` writes its own file and then carries the jitter buffer
settings over into `sip.conf`, which it parses and saves again. What that second
cycle leaves of the settings in `sip.conf` is the subject of this module.
-/

namespace Libamg.Comcerto

open C Sip

/-- `libamg_comcerto_save_config`: the returned status and the files afterwards. The
parsed SIP configuration is used without a test for NULL. -/
def saveConfig (charSigned : Bool) (files : Files) (conf : ComcertoConfig) :
    Checked (Int32 × Files) :=
  if files.writable fileComcertoConf then do
    let files := files.write fileComcertoConf (saveText conf)
    match ← Sip.parseConfig charSigned files with
    | none => .error .nullPointer
    | some sipConf => do
        let (status, _, files) ←
          Sip.saveConfig charSigned files { sipConf with jbConf := conf.jbConf }
        return (if status < 0 then -1 else 0, files)
  else return (-1, files)

/-! ## The settings that are carried over -/

/-- The codec with a given name. -/
def codecNamed (name : Text) : Option Int32 :=
  codecCodes.find? fun code => getCodecName code = some name

/-- The value of an `allow` line with the interval that `conf` holds for its codec. -/
def carryAllow (conf : ComcertoConfig) (value : Text) : Text :=
  match splitFirst 58 value with
  | none => value
  | some (name, _) =>
      match (codecNamed name).bind conf.codecsIntvl.ofCode with
      | none => value
      | some interval => name ++ lit ":" ++ printInt interval.toInt

/-- A setting of `sip.conf` with what belongs to `conf` replaced by its values. -/
def carry (conf : ComcertoConfig) (setting : Text × Text) : Text × Text :=
  if setting.1 = lit "jbmaxsize" then (setting.1, printInt conf.jbConf.jbMaxsize.toInt)
  else if setting.1 = lit "jbimpl" then
    (setting.1, choose conf.jbConf.jbImpl "adaptive" "fixed")
  else if setting.1 = lit "allow" then (setting.1, carryAllow conf setting.2)
  else setting

/-- Saving `conf` after `sip` replaces the carried settings of `sip.conf` and no others. -/
def OnlyCarries (charSigned : Bool) (files : Files) (sip : SipConfig) (conf : ComcertoConfig) :
    Prop :=
  ∃ stripped before after text rewritten,
    Sip.saveConfig charSigned files sip = .ok (0, stripped, before) ∧
    saveConfig charSigned before conf = .ok (0, after) ∧
    before.content fileSipConf = some text ∧ after.content fileSipConf = some rewritten ∧
    settings rewritten = (settings text).map (carry conf)

/-- The numbers of a Comcerto configuration that reach `sip.conf` have 16 bits. -/
structure ShortNumbers (conf : ComcertoConfig) : Prop where
  jbMaxsize : IsShort conf.jbConf.jbMaxsize
  g711_a : IsShort conf.codecsIntvl.g711_a
  g711_u : IsShort conf.codecsIntvl.g711_u
  g723_1 : IsShort conf.codecsIntvl.g723_1
  g726_16 : IsShort conf.codecsIntvl.g726_16
  g726_24 : IsShort conf.codecsIntvl.g726_24
  g726_32 : IsShort conf.codecsIntvl.g726_32
  g726_40 : IsShort conf.codecsIntvl.g726_40
  g729 : IsShort conf.codecsIntvl.g729
  gsm : IsShort conf.codecsIntvl.gsm

/-- The SIP configurations that the carrying over is stated for. -/
structure Carriable (sip : SipConfig) : Prop where
  strings : WordStrings sip
  t1min : InShortRange sip.t1min
  timert1 : InShortRange sip.timert1
  timerb : InShortRange sip.timerb
  rtptimeout : InShortRange sip.rtptimeout
  rtpholdtimeout : InShortRange sip.rtpholdtimeout
  rtpkeepalive : InShortRange sip.rtpkeepalive
  allow : ∀ code ∈ sip.account.allow.toList, code = 0 ∨ code ∈ codecCodes

/-- What `sip` must not use for nothing else to change: the settings that the parser
stores in another field or not at all. -/
structure Kept (sip : SipConfig) : Prop where
  sessionExpires : sip.sessionExpires = 0
  sessionMinse : sip.sessionMinse = 0
  autoframing : sip.autoframing = 0

/-- The SIP configuration that the second cycle saves. -/
def carried (sip : SipConfig) (conf : ComcertoConfig) : SipConfig :=
  { sip.reread with jbConf := conf.jbConf }

/-! ## The second cycle -/

theorem ShortNumbers.intervals {conf : ComcertoConfig} (short : ShortNumbers conf) :
    conf.codecsIntvl.reread = conf.codecsIntvl := by
  rw [CodecsIntvl.reread, short.g711_a.lowShort_eq, short.g711_u.lowShort_eq,
    short.g723_1.lowShort_eq, short.g726_16.lowShort_eq, short.g726_24.lowShort_eq,
    short.g726_32.lowShort_eq, short.g726_40.lowShort_eq, short.g729.lowShort_eq,
    short.gsm.lowShort_eq]

section Strings

variable {size count : Nat} {array : CharArray size}

/-- A word that was written and parsed again, empty or not. -/
theorem str_strncpy_cropped (word : array.Word) (fits : count ≤ size) (room : size ≤ count + 1)
    (several : 2 ≤ size) :
    ((CharArray.zero size).strncpy (cropped (bare array.str)) count fits).Terminated ∧
      ((CharArray.zero size).strncpy (cropped (bare array.str)) count fits).str =
        cropped array.str := by
  have length := word.length_lt
  rw [bare_of_word word.isWord]
  by_cases empty : array.str = []
  · rw [cropped, if_pos empty]
    have short : ([newline] : Text).length ≤ count := by
      rw [List.length_singleton]
      omega
    have inside : ([newline] : Text).length < size := several
    exact ⟨CharArray.strncpy_zero_terminated fits short inside,
      CharArray.str_strncpy_zero fits (by decide) short inside⟩
  · rw [cropped_eq_self empty]
    exact ⟨CharArray.strncpy_zero_terminated fits (by omega) length,
      CharArray.str_strncpy_zero fits word.isWord.nul_notMem (by omega) length⟩

theorem printable_strncpy_cropped (word : array.Word) (fits : count ≤ size)
    (room : size ≤ count + 1) (several : 2 ≤ size) :
    Printable ((CharArray.zero size).strncpy (cropped (bare array.str)) count fits) := by
  obtain ⟨terminated, str⟩ := str_strncpy_cropped word fits room several
  refine ⟨terminated, ?_⟩
  rw [str]
  by_cases empty : array.str = []
  · exact .inl (if_pos empty)
  · rw [cropped_eq_self empty]
    exact .inr word.isWord

theorem bare_strncpy_cropped (word : array.Word) (fits : count ≤ size)
    (room : size ≤ count + 1) (several : 2 ≤ size) :
    bare ((CharArray.zero size).strncpy (cropped (bare array.str)) count fits).str = array.str := by
  rw [(str_strncpy_cropped word fits room several).2, bare_cropped word.isWord]

theorem word_strncpy (word : array.Word) (fits : count ≤ size) (room : size ≤ count + 1) :
    ((CharArray.zero size).strncpy array.str count fits).Word := by
  obtain ⟨terminated, str⟩ := sameString_strncpy word fits room
  refine ⟨terminated, ?_⟩
  rw [str]
  exact word.isWord

end Strings

/-- The parsed configuration can be saved again. -/
theorem carried_printable {sip : SipConfig} (conf : ComcertoConfig) (strings : WordStrings sip) :
    PrintableStrings (carried sip conf) where
  sessionTimers :=
    printable_strncpy_cropped strings.sessionTimers (by decide) (by decide) (by decide)
  sessionRefresher :=
    printable_strncpy_cropped strings.sessionRefresher (by decide) (by decide) (by decide)
  registerUsername :=
    printable_strncpy_cropped strings.registerUsername (by decide) (by decide) (by decide)
  registerSecret := printable_strncpy_cropped strings.registerSecret (by decide) (by decide) (by decide)
  registerHost := printable_strncpy_cropped strings.registerHost (by decide) (by decide) (by decide)
  host := word_strncpy strings.host (by decide) (by decide)
  username := word_strncpy strings.username (by decide) (by decide)
  secret := word_strncpy strings.secret (by decide) (by decide)
  dtmfmode := printable_strncpy_cropped strings.dtmfmode (by decide) (by decide) (by decide)
  callerid := word_strncpy strings.callerid (by decide) (by decide)
  fromuser := word_strncpy strings.fromuser (by decide) (by decide)
  insecure := word_strncpy strings.insecure (by decide) (by decide)
  transport := word_strncpy strings.transport (by decide) (by decide)

/-- A save of `conf` after a save of `sip` leaves the lines of the carried configuration,
with the intervals that the new `comcerto.conf` holds. -/
theorem saveConfig_eq (charSigned : Bool) {files other : Files} {sip : SipConfig}
    {conf : ComcertoConfig} (writable : files.writable fileComcertoConf = true)
    (sipWritable : files.writable fileSipConf = true)
    (opened : files.openRead fileSipConf = some (render (Sip.fileLines other sip)))
    (strings : WordStrings sip) :
    saveConfig charSigned files conf =
      .ok (0, (files.write fileComcertoConf (saveText conf)).write fileSipConf
        (render (Sip.fileLines (files.write fileComcertoConf (saveText conf)) (carried sip conf)))) := by
  have different : fileSipConf ≠ fileComcertoConf := by decide
  have reopened : (files.write fileComcertoConf (saveText conf)).openRead fileSipConf =
      some (render (Sip.fileLines other sip)) := by
    rw [Files.openRead_write_of_ne _ _ different]
    exact opened
  have parsed := parseConfig_eq charSigned reopened strings.printable
  have saved := @Sip.saveConfig_eq charSigned (files.write fileComcertoConf (saveText conf))
    (carried sip conf) sipWritable (carried_printable conf strings)
  rw [saveConfig, if_pos writable]
  simp only [parsed]
  change (Sip.saveConfig charSigned _ (carried sip conf) >>= _) = _
  rw [saved]
  rfl

/-! ## Settings section by section -/

/-- The settings of a list of lines. -/
def settingsOf (lines : List Entry) : List (Text × Text) := lines.filterMap Entry.setting?

theorem settingsOf_append (first second : List Entry) :
    settingsOf (first ++ second) = settingsOf first ++ settingsOf second := List.filterMap_append

theorem settingsOf_nil : settingsOf [] = [] := rfl

theorem settingsOf_setting (key value : Text) (lines : List Entry) :
    settingsOf (.setting key value :: lines) = (key, value) :: settingsOf lines := rfl

theorem settingsOf_other (text : Text) (lines : List Entry) :
    settingsOf (.other text :: lines) = settingsOf lines := rfl

theorem settingsOf_textLines (key : String) (str : Text) :
    settingsOf (textLines key str) = [(lit key, bare str)] := by
  rw [textLines, settingsOf_setting]
  split <;> rfl

/-- The keys of the settings that are carried over. -/
def carriedKeys : List String := ["jbmaxsize", "jbimpl", "allow"]

theorem carry_of_notMem (conf : ComcertoConfig) {key : String} (value : Text)
    (other : key ∉ carriedKeys) : carry conf (lit key, value) = (lit key, value) := by
  simp only [carriedKeys, List.mem_cons, List.not_mem_nil, or_false, not_or] at other
  simp only [carry, lit_inj, other, ↓reduceIte]

theorem map_carry_nonzeroLine (conf : ComcertoConfig) {key : String} (n : Int32)
    (other : key ∉ carriedKeys) :
    (settingsOf (nonzeroLine key n)).map (carry conf) = settingsOf (nonzeroLine key n) := by
  unfold nonzeroLine
  split
  · rw [settingsOf_setting, List.map_cons, carry_of_notMem conf _ other]
    rfl
  · rfl

theorem map_carry_nonemptyLine (conf : ComcertoConfig) {key : String} (str : Text)
    (other : key ∉ carriedKeys) :
    (settingsOf (nonemptyLine key str)).map (carry conf) = settingsOf (nonemptyLine key str) := by
  unfold nonemptyLine
  split
  · rw [settingsOf_setting, List.map_cons, carry_of_notMem conf _ other]
    rfl
  · rfl

section Sections

variable (sip : SipConfig) (conf : ComcertoConfig)

theorem map_carry_headerLines :
    (settingsOf headerLines).map (carry conf) = settingsOf headerLines := by
  simp only [headerLines, settingsOf_setting, settingsOf_other, settingsOf_nil, List.map_cons,
    List.map_nil, carry, lit_inj, String.reduceEq, ↓reduceIte]

theorem map_carry_timerLines :
    (settingsOf (timerLines sip)).map (carry conf) = settingsOf (timerLines sip) := by
  simp only [timerLines, settingsOf_append, List.map_append, map_carry_nonzeroLine, carriedKeys,
    List.mem_cons, List.not_mem_nil, String.reduceEq, or_false, not_false_eq_true]

theorem map_carry_sessionLines :
    (settingsOf (sessionLines sip)).map (carry conf) = settingsOf (sessionLines sip) := by
  simp only [sessionLines, settingsOf_append, settingsOf_textLines, settingsOf_setting,
    settingsOf_nil, List.map_append, List.map_cons, List.map_nil, map_carry_nonzeroLine, carry,
    carriedKeys, List.mem_cons, List.not_mem_nil, lit_inj, String.reduceEq, or_false,
    not_false_eq_true, ↓reduceIte]

theorem map_carry_registerLines :
    (settingsOf (registerLines sip)).map (carry conf) = settingsOf (registerLines sip) := by
  rw [registerLines]
  split <;>
    simp only [settingsOf_append, settingsOf_setting, settingsOf_nil, List.map_append,
      List.map_cons, List.map_nil, carry, lit_inj, String.reduceEq, ↓reduceIte]

theorem map_carry_accountLines :
    (settingsOf (accountHeaderLines ++ (peerLines sip.account ++ optionLines sip.account))).map
      (carry conf) =
      settingsOf (accountHeaderLines ++ (peerLines sip.account ++ optionLines sip.account)) := by
  simp only [accountHeaderLines, peerLines, optionLines, settingsOf_append, settingsOf_textLines,
    settingsOf_setting, settingsOf_other, settingsOf_nil, List.map_append, List.map_cons,
    List.map_nil, map_carry_nonemptyLine, carry, carriedKeys, List.mem_cons, List.not_mem_nil,
    lit_inj, String.reduceEq, or_false, not_false_eq_true, ↓reduceIte]

end Sections

/-! ## The carried configuration, section by section -/

section Carried

variable {sip : SipConfig} {conf : ComcertoConfig}

theorem settingsOf_serverLines_carried (kept : Kept sip) (short : ShortNumbers conf) :
    settingsOf (serverLines (carried sip conf)) =
      (settingsOf (serverLines sip)).map (carry conf) := by
  have expiry : printShort (carried sip conf).defaultexpiry = printShort sip.defaultexpiry := by
    rw [carried, SipConfig.reread, rereadExpiry, if_neg (not_not.mpr kept.sessionMinse),
      if_neg (not_not.mpr kept.sessionExpires), printShort_lowShort]
  have tcpenable : yesNo (carried sip conf).tcpenable = yesNo sip.tcpenable := yesNo_truth _
  have jbMaxsize := printShort_eq_printInt short.jbMaxsize
  simp only [serverLines, settingsOf_setting, settingsOf_nil, List.map_cons, List.map_nil, carry,
    lit_inj, String.reduceEq, ↓reduceIte, expiry, tcpenable]
  rw [← jbMaxsize]
  rfl

theorem timerLines_carried (carriable : Carriable sip) :
    timerLines (carried sip conf) = timerLines sip := by
  simp only [timerLines, carried, SipConfig.reread, carriable.t1min.lowShort_eq,
    carriable.timert1.lowShort_eq, carriable.timerb.lowShort_eq, carriable.rtptimeout.lowShort_eq,
    carriable.rtpholdtimeout.lowShort_eq, carriable.rtpkeepalive.lowShort_eq]

theorem settingsOf_sessionLines_carried (strings : WordStrings sip) (kept : Kept sip) :
    settingsOf (sessionLines (carried sip conf)) = settingsOf (sessionLines sip) := by
  have sessionTimers : bare (carried sip conf).sessionTimers.str = bare sip.sessionTimers.str := by
    rw [bare_of_word strings.sessionTimers.isWord]
    exact bare_strncpy_cropped strings.sessionTimers (by decide) (by decide) (by decide)
  have sessionRefresher :
      bare (carried sip conf).sessionRefresher.str = bare sip.sessionRefresher.str := by
    rw [bare_of_word strings.sessionRefresher.isWord]
    exact bare_strncpy_cropped strings.sessionRefresher (by decide) (by decide) (by decide)
  simp only [sessionLines, settingsOf_append, settingsOf_textLines, sessionTimers,
    sessionRefresher, kept.sessionExpires, kept.sessionMinse, kept.autoframing]
  rfl

theorem registerLines_carried (strings : WordStrings sip) :
    registerLines (carried sip conf) = registerLines sip := by
  have username :
      bare (carried sip conf).registerUsername.str = bare sip.registerUsername.str := by
    rw [bare_of_word strings.registerUsername.isWord]
    exact bare_strncpy_cropped strings.registerUsername (by decide) (by decide) (by decide)
  have secret : bare (carried sip conf).registerSecret.str = bare sip.registerSecret.str := by
    rw [bare_of_word strings.registerSecret.isWord]
    exact bare_strncpy_cropped strings.registerSecret (by decide) (by decide) (by decide)
  have host : bare (carried sip conf).registerHost.str = bare sip.registerHost.str := by
    rw [bare_of_word strings.registerHost.isWord]
    exact bare_strncpy_cropped strings.registerHost (by decide) (by decide) (by decide)
  have transport : (carried sip conf).account.transport.str = sip.account.transport.str :=
    (@sameString_strncpy 8 7 _ strings.transport (by decide) (by decide)).2
  have enabled : Registers (carried sip conf) ↔ Registers sip := by
    constructor
    · intro registers
      by_contra silent
      exact registers.1 (if_neg silent)
    · intro registers
      have on : (carried sip conf).registerEnable = 1 := if_pos registers
      rw [Registers, username, secret, host, on]
      exact ⟨by decide, registers.2⟩
  have value : registerValue (carried sip conf) = registerValue sip := by
    rw [registerValue, registerValue, username, secret, host, transport]
    rfl
  simp only [registerLines, username, secret, host, value, enabled]

theorem settingsOf_accountLines_carried (strings : WordStrings sip) :
    settingsOf (accountHeaderLines ++ (peerLines (carried sip conf).account ++
      optionLines (carried sip conf).account)) =
      settingsOf (accountHeaderLines ++ (peerLines sip.account ++ optionLines sip.account)) := by
  have host : (carried sip conf).account.host.str = sip.account.host.str :=
    (@sameString_strncpy 64 63 _ strings.host (by decide) (by decide)).2
  have username : (carried sip conf).account.username.str = sip.account.username.str :=
    (@sameString_strncpy 64 63 _ strings.username (by decide) (by decide)).2
  have secret : (carried sip conf).account.secret.str = sip.account.secret.str :=
    (@sameString_strncpy 64 63 _ strings.secret (by decide) (by decide)).2
  have callerid : (carried sip conf).account.callerid.str = sip.account.callerid.str :=
    (@sameString_strncpy 64 63 _ strings.callerid (by decide) (by decide)).2
  have fromuser : (carried sip conf).account.fromuser.str = sip.account.fromuser.str :=
    (@sameString_strncpy 64 63 _ strings.fromuser (by decide) (by decide)).2
  have insecure : (carried sip conf).account.insecure.str = sip.account.insecure.str :=
    (@sameString_strncpy 32 31 _ strings.insecure (by decide) (by decide)).2
  have transport : (carried sip conf).account.transport.str = sip.account.transport.str :=
    (@sameString_strncpy 8 7 _ strings.transport (by decide) (by decide)).2
  have dtmfmode : bare (carried sip conf).account.dtmfmode.str = bare sip.account.dtmfmode.str := by
    rw [bare_of_word strings.dtmfmode.isWord]
    exact bare_strncpy_cropped strings.dtmfmode (by decide) (by decide) (by decide)
  have nat : yesNo (carried sip conf).account.nat = yesNo sip.account.nat := yesNo_truth _
  have qualify : yesNo (carried sip conf).account.qualify = yesNo sip.account.qualify :=
    yesNo_truth _
  have port : (carried sip conf).account.port = sip.account.port := rfl
  simp only [peerLines, optionLines, settingsOf_append, settingsOf_textLines, host, username,
    secret, callerid, fromuser, insecure, transport, dtmfmode, nat, qualify, port]

/-- The codecs of a saved account are the codecs of the parsed one. -/
theorem allowed_carried (carriable : Carriable sip) :
    (carried sip conf).account.allowed = sip.account.allowed := by
  have known : ∀ code ∈ sip.account.allow.toList, 0 < code → code ∈ codecCodes := by
    intro code member positive
    rcases carriable.allow code member with rfl | inTable
    · exact absurd positive (by decide)
    · exact inTable
  have positive : ∀ code ∈ sip.account.allowed, decide (0 < code) = true :=
    fun code member => (List.mem_filter.mp member).2
  have zeros (count : Nat) :
      (List.replicate count (0 : Int32)).filter (fun code => decide (0 < code)) = [] := by
    rw [List.filter_eq_nil_iff]
    intro code member
    rw [List.eq_of_mem_replicate member]
    decide
  have array : (carried sip conf).account.allow.toList =
      sip.account.allowed ++ List.replicate (9 - sip.account.allowed.length) 0 := by
    rw [← padded_toList sip.account.allowed_length, ← map_recognised known]
    rfl
  rw [SipAccount.allowed, array, List.filter_append, List.filter_eq_self.mpr positive, zeros,
    List.append_nil]

theorem mem_codecCodes_of_allowed (carriable : Carriable sip) :
    ∀ code ∈ sip.account.allowed, code ∈ codecCodes := by
  intro code member
  obtain ⟨inArray, positive⟩ := List.mem_filter.mp member
  rcases carriable.allow code inArray with rfl | inTable
  · exact absurd (of_decide_eq_true positive) (by decide)
  · exact inTable

theorem settingsOf_allowLines (files : Files) (account : SipAccount) :
    settingsOf (allowLines files account) =
      account.allowed.map fun code => (lit "allow", allowValue files code) := by
  rw [settingsOf, allowLines, List.filterMap_map]
  exact congrFun List.filterMap_eq_map _

/-- The codec table can be read from the name. -/
theorem codec_of_name {code : Int32} (known : code ∈ codecCodes) :
    58 ∉ printName (getCodecName code) ∧
      codecNamed (printName (getCodecName code)) = some code ∧
      conf.codecsIntvl.ofCode code ≠ none := by
  simp only [codecCodes, List.mem_cons, List.not_mem_nil, or_false] at known
  rcases known with rfl | rfl | rfl | rfl | rfl | rfl | rfl | rfl | rfl <;>
    exact ⟨by decide, by decide, Option.some_ne_none _⟩

/-- The second cycle prints the interval that the new `comcerto.conf` holds. -/
theorem allowValue_carried {files other : Files} {code : Int32} (known : code ∈ codecCodes)
    (readable : other.readable fileComcertoConf = true) (short : ShortNumbers conf) :
    allowValue (other.write fileComcertoConf (saveText conf)) code =
      carryAllow conf (allowValue files code) := by
  obtain ⟨noColon, named, covered⟩ := @codec_of_name conf code known
  obtain ⟨interval, found⟩ := Option.ne_none_iff_exists'.mp covered
  have shape : allowValue files code = printName (getCodecName code) ++
      58 :: printInt (getCodecPacketizationInterval files code).toInt := by
    rw [allowValue, List.append_assoc]
    rfl
  have saved := getCodecPacketizationInterval_saved readable conf code
  rw [short.intervals, found, Option.getD_some] at saved
  rw [allowValue, saved, carryAllow, shape, splitFirst_append _ noColon]
  simp only [named, Option.bind_some, found]

end Carried

/-! ## The whole file -/

/-- The settings of a file, cut where the carried settings are. -/
theorem settingsOf_fileLines (files : Files) (sip : SipConfig) :
    settingsOf (Sip.fileLines files sip) =
      settingsOf headerLines ++ (settingsOf (serverLines sip) ++ (settingsOf (timerLines sip) ++
        (settingsOf (sessionLines sip) ++ (settingsOf (registerLines sip) ++
          (settingsOf (accountHeaderLines ++ (peerLines sip.account ++ optionLines sip.account)) ++
            settingsOf (allowLines files sip.account)))))) := by
  simp only [Sip.fileLines, settingsOf_append, List.append_assoc]

/-- Nothing but the carried settings changes, as long as nothing is used that the
parser does not keep. -/
theorem settingsOf_carried {files other : Files} {sip : SipConfig} {conf : ComcertoConfig}
    (readable : other.readable fileComcertoConf = true) (carriable : Carriable sip)
    (short : ShortNumbers conf) (kept : Kept sip) :
    settingsOf (Sip.fileLines (other.write fileComcertoConf (saveText conf)) (carried sip conf)) =
      (settingsOf (Sip.fileLines files sip)).map (carry conf) := by
  have allow : settingsOf (allowLines (other.write fileComcertoConf (saveText conf))
      (carried sip conf).account) =
      (settingsOf (allowLines files sip.account)).map (carry conf) := by
    rw [settingsOf_allowLines, settingsOf_allowLines, allowed_carried carriable, List.map_map]
    refine List.map_congr_left fun code member => ?_
    have known := mem_codecCodes_of_allowed carriable code member
    simp only [Function.comp_apply, carry, lit_inj, String.reduceEq, ↓reduceIte,
      @allowValue_carried conf files other code known readable short]
  simp only [settingsOf_fileLines, List.map_append, map_carry_headerLines, map_carry_timerLines,
    map_carry_sessionLines, map_carry_registerLines, map_carry_accountLines]
  rw [allow, settingsOf_serverLines_carried kept short, timerLines_carried carriable,
    settingsOf_sessionLines_carried carriable.strings kept,
    registerLines_carried carriable.strings, settingsOf_accountLines_carried carriable.strings]

theorem mem_settingsOf {key value : Text} {lines : List Entry} :
    (key, value) ∈ settingsOf lines ↔ .setting key value ∈ lines := by
  rw [settingsOf, List.mem_filterMap]
  constructor
  · rintro ⟨entry, member, found⟩
    cases entry with
    | setting otherKey otherValue =>
        cases found
        exact member
    | other text => cases found
  · intro member
    exact ⟨_, member, rfl⟩

/-- What a file says about the three settings that the parser does not keep. -/
theorem unkept_lines {files : Files} {sip : SipConfig} (value : Text) :
    (.setting (lit "session-expires") value ∈ Sip.fileLines files sip →
      sip.sessionExpires ≠ 0) ∧
    (.setting (lit "session-minse") value ∈ Sip.fileLines files sip → sip.sessionMinse ≠ 0) ∧
    (.setting (lit "autoframing") value ∈ Sip.fileLines files sip →
      value = yesNo sip.autoframing) := by
  refine ⟨?_, ?_, ?_⟩ <;>
    simp only [Sip.fileLines, headerLines, serverLines, timerLines, sessionLines, registerLines,
      accountHeaderLines, peerLines, optionLines, allowLines, nonzeroLine, nonemptyLine, textLines,
      List.mem_append, List.mem_cons, List.not_mem_nil, List.mem_ite_nil_right, List.mem_map,
      Entry.setting.injEq, lit_inj, String.reduceEq, reduceCtorEq, false_and, and_false, true_and,
      or_false, false_or, exists_const] <;>
    grind

/-- A setting that is not carried over has to be in the rewritten file as well. -/
theorem setting_survives {first second : List Entry} {conf : ComcertoConfig} {key : String}
    {value : Text} (same : settingsOf second = (settingsOf first).map (carry conf))
    (other : key ∉ carriedKeys) (member : .setting (lit key) value ∈ first) :
    .setting (lit key) value ∈ second := by
  rw [← mem_settingsOf] at member ⊢
  rw [same, ← carry_of_notMem conf value other]
  exact List.mem_map_of_mem member

/-- When nothing else has changed, nothing was used that the parser does not keep. -/
theorem kept_of_settings {files other : Files} {sip : SipConfig} {conf : ComcertoConfig}
    (same : settingsOf (Sip.fileLines other (carried sip conf)) =
      (settingsOf (Sip.fileLines files sip)).map (carry conf)) : Kept sip := by
  constructor
  · by_contra used
    have printed : .setting (lit "session-expires") (printShort sip.sessionExpires) ∈
        Sip.fileLines files sip := by
      simp [Sip.fileLines, sessionLines, nonzeroLine, used]
    have survived := setting_survives same (by decide) printed
    exact (unkept_lines _).1 survived rfl
  · by_contra used
    have printed : .setting (lit "session-minse") (printShort sip.sessionMinse) ∈
        Sip.fileLines files sip := by
      simp [Sip.fileLines, sessionLines, nonzeroLine, used]
    have survived := setting_survives same (by decide) printed
    exact (unkept_lines _).2.1 survived rfl
  · by_contra used
    have printed : .setting (lit "autoframing") (yesNo sip.autoframing) ∈
        Sip.fileLines files sip := by
      simp [Sip.fileLines, sessionLines]
    have survived := setting_survives same (by decide) printed
    have value : yesNo sip.autoframing = yesNo 0 := (unkept_lines _).2.2 survived
    rw [yesNo, choose, if_pos used] at value
    exact absurd value (by decide)

/-- The two saves in terms of the lines they print. -/
theorem onlyCarries_iff_settings (charSigned : Bool) {files : Files} {sip : SipConfig}
    (conf : ComcertoConfig) (sipOpenable : files.Openable fileSipConf)
    (comcertoOpenable : files.Openable fileComcertoConf) (strings : WordStrings sip) :
    OnlyCarries charSigned files sip conf ↔
      settingsOf (Sip.fileLines
        ((files.write fileSipConf (render (Sip.fileLines files sip))).write fileComcertoConf
          (saveText conf)) (carried sip conf)) =
        (settingsOf (Sip.fileLines files sip)).map (carry conf) := by
  let before := files.write fileSipConf (render (Sip.fileLines files sip))
  let middle := before.write fileComcertoConf (saveText conf)
  have first : Sip.saveConfig charSigned files sip = .ok (0, sip.stripped charSigned, before) :=
    Sip.saveConfig_eq charSigned sipOpenable.2 strings.printable
  have second : saveConfig charSigned before conf = .ok (0, middle.write fileSipConf
      (render (Sip.fileLines middle (carried sip conf)))) :=
    saveConfig_eq charSigned comcertoOpenable.2 sipOpenable.2
      (Files.openRead_write_self _ sipOpenable.1) strings
  have settingsBefore : settings (render (Sip.fileLines files sip)) =
      settingsOf (Sip.fileLines files sip) :=
    settings_render (Sip.fileLines_wellFormed files strings.printable)
  have settingsAfter : settings (render (Sip.fileLines middle (carried sip conf))) =
      settingsOf (Sip.fileLines middle (carried sip conf)) :=
    settings_render (Sip.fileLines_wellFormed middle (carried_printable conf strings))
  constructor
  · rintro ⟨stripped, beforeFiles, afterFiles, text, rewritten, saveSip, save, textEq, rewrittenEq,
      same⟩
    rw [first] at saveSip
    cases saveSip
    rw [second] at save
    cases save
    rw [Files.write_content_self] at textEq rewrittenEq
    cases textEq
    cases rewrittenEq
    rw [settingsBefore, settingsAfter] at same
    exact same
  · intro same
    refine ⟨_, before, _, _, _, first, second, Files.write_content_self _ _ _,
      Files.write_content_self _ _ _, ?_⟩
    rw [settingsBefore, settingsAfter]
    exact same

/-- Saving a Comcerto configuration changes only what it owns in `sip.conf` exactly when
the SIP configuration uses no setting that the parser does not keep. -/
theorem onlyCarries_iff_kept (charSigned : Bool) {files : Files} {sip : SipConfig}
    {conf : ComcertoConfig} (sipOpenable : files.Openable fileSipConf)
    (comcertoOpenable : files.Openable fileComcertoConf) (carriable : Carriable sip)
    (short : ShortNumbers conf) : OnlyCarries charSigned files sip conf ↔ Kept sip := by
  rw [onlyCarries_iff_settings charSigned conf sipOpenable comcertoOpenable carriable.strings]
  exact ⟨kept_of_settings, settingsOf_carried comcertoOpenable.1 carriable short⟩

/-- A small configuration: a jitter buffer and two intervals. -/
def sampleComcerto : ComcertoConfig := { ComcertoConfig.zero with
  jbConf := { JbConfig.zero with jbMaxsize := 200, jbImpl := 1 }
  codecsIntvl := { CodecsIntvl.zero with g711_a := 30, g726_32 := 20 } }

theorem sampleComcerto_short : ShortNumbers sampleComcerto :=
  ⟨by decide, by decide, by decide, by decide, by decide, by decide, by decide, by decide,
    by decide, by decide⟩

theorem sampleConfig_carriable : Carriable sampleConfig :=
  ⟨sampleConfig_words, by decide, by decide, by decide, by decide, by decide, by decide,
    sampleConfig_codecs⟩

theorem onlyCarries_iff_kept_witness :
    OnlyCarries true Files.empty sampleConfig sampleComcerto ↔ Kept sampleConfig :=
  onlyCarries_iff_kept true (by decide) (by decide) sampleConfig_carriable sampleComcerto_short

/-- A session expiry of 1800 seconds is gone after the next save of `comcerto.conf`. -/
theorem sessionExpires_dropped :
    Carriable { sampleConfig with sessionExpires := 1800 } ∧ ShortNumbers sampleComcerto ∧
      Files.empty.Openable fileSipConf ∧ Files.empty.Openable fileComcertoConf ∧
      ¬ OnlyCarries true Files.empty { sampleConfig with sessionExpires := 1800 }
        sampleComcerto := by
  have strings : WordStrings { sampleConfig with sessionExpires := 1800 } :=
    { sampleConfig_words with }
  refine ⟨{ sampleConfig_carriable with strings := strings }, sampleComcerto_short, by decide,
    by decide, ?_⟩
  rw [onlyCarries_iff_settings true sampleComcerto (by decide) (by decide) strings]
  intro same
  exact absurd (kept_of_settings same).sessionExpires (by decide)

end Libamg.Comcerto
