import Libamg.Config.SipFile
import Mathlib.Data.List.GetD

/-!
# Reading back a saved sip.conf

The parser is followed through the lines of a written file, section by section.
`parseConfig_saved` says what it returns: the configuration `SipConfig.reread`. Where
that differs from the saved configuration a setting does not survive the round trip.
-/

namespace Libamg.Sip

open C Comcerto

/-! ## What comes back -/

/-- A 16-bit number printed with the signed conversion is stored as itself again. -/
theorem toUnsignedShort_printUnsignedShort (n : UInt16) :
    toUnsignedShort (atoi (printUnsignedShort n)) = n := by
  rw [printUnsignedShort, atoi_printInt16, toUnsignedShort, Int16.toInt16_toInt32,
    UInt16.toUInt16_toInt16]

/-- The code that is recognised in an `allow` line printed for `code`. -/
def recognised (code : Int32) : Int32 := if code ∈ codecCodes then code else -1

/-- An array that starts with the given codes and goes on with zeros. -/
def padded (codes : List Int32) : Vector Int32 9 := .ofFn fun index => codes.getD index 0

/-- The account that parsing finds in the file a save wrote. -/
def SipAccount.reread (account : SipAccount) : SipAccount where
  nat := truth account.nat
  qualify := truth account.qualify
  callerid := .filled 63 account.callerid.str
  fromuser := .filled 63 account.fromuser.str
  insecure := .filled 31 account.insecure.str
  username := .filled 63 account.username.str
  secret := .filled 63 account.secret.str
  host := .filled 63 account.host.str
  transport := .filled 7 account.transport.str
  port := account.port
  dtmfmode := .filled 31 (cropped (bare account.dtmfmode.str))
  allow := padded (account.allowed.map recognised)

/-- The default expiry after the lines that are stored in it: the last one wins. -/
def rereadExpiry (conf : SipConfig) : Int32 :=
  if conf.sessionMinse ≠ 0 then lowShort conf.sessionMinse
  else if conf.sessionExpires ≠ 0 then lowShort conf.sessionExpires
  else lowShort conf.defaultexpiry

/-- The configuration that parsing finds in the file a save of `conf` wrote. -/
def SipConfig.reread (conf : SipConfig) : SipConfig where
  bindport := conf.bindport
  tcpenable := truth conf.tcpenable
  t1min := lowShort conf.t1min
  timert1 := lowShort conf.timert1
  timerb := lowShort conf.timerb
  rtptimeout := lowShort conf.rtptimeout
  rtpholdtimeout := lowShort conf.rtpholdtimeout
  rtpkeepalive := lowShort conf.rtpkeepalive
  sessionTimers := .full 16 (cropped (bare conf.sessionTimers.str))
  sessionExpires := 0
  sessionMinse := 0
  sessionRefresher := .full 8 (cropped (bare conf.sessionRefresher.str))
  defaultexpiry := rereadExpiry conf
  registerEnable := if Registers conf then 1 else 0
  autoframing := 0
  jbConf := { JbConfig.zero with
    jbEnable := 1
    jbMaxsize := lowShort conf.jbConf.jbMaxsize
    jbImpl := truth conf.jbConf.jbImpl }
  registerUsername := .filled 63 (cropped (bare conf.registerUsername.str))
  registerSecret := .filled 63 (cropped (bare conf.registerSecret.str))
  registerHost := .filled 63 (cropped (bare conf.registerHost.str))
  account := conf.account.reread

/-! ## Reading sections -/

/-- Read a list of lines into a state. -/
def readLines (charSigned : Bool) (lines : List Entry) (state : Checked ParseState) :
    Checked ParseState :=
  lines.foldl (applyEntry cropDelimiters (parseStep charSigned)) state

section Lines

variable {charSigned : Bool} {key : String} {state : ParseState}

theorem readLines_append (first second : List Entry) (state : Checked ParseState) :
    readLines charSigned (first ++ second) state =
      readLines charSigned second (readLines charSigned first state) :=
  List.foldl_append

theorem readLines_nil (state : Checked ParseState) : readLines charSigned [] state = state := rfl

theorem readLines_setting (value : Text) (lines : List Entry) :
    readLines charSigned (.setting (lit key) value :: lines) (.ok state) =
      readLines charSigned lines
        (applySetting charSigned (lit key) (crop cropDelimiters (value ++ [newline])) state) := rfl

theorem readLines_other (text : Text) (lines : List Entry) (state : Checked ParseState) :
    readLines charSigned (.other text :: lines) state = readLines charSigned lines state := rfl

/-- A number that is left out when it is 0 is read like one that is always printed,
where storing 0 changes nothing. -/
theorem readLines_nonzeroLine {n : Int32}
    (unchanged : applySetting charSigned (lit key) (printShort 0) state = .ok state) :
    readLines charSigned (nonzeroLine key n) (.ok state) =
      applySetting charSigned (lit key) (printShort n) state := by
  by_cases zero : n = 0
  · rw [nonzeroLine, if_neg (not_not.mpr zero), zero, unchanged, readLines_nil]
  · rw [nonzeroLine, if_pos zero, readLines_setting, (Plain.printShort n).crop, readLines_nil]

/-- The same for a string that is left out when it is empty. -/
theorem readLines_nonemptyLine {str : Text} (word : IsWord str)
    (unchanged : applySetting charSigned (lit key) [] state = .ok state) :
    readLines charSigned (nonemptyLine key str) (.ok state) =
      applySetting charSigned (lit key) str state := by
  by_cases empty : str = []
  · rw [nonemptyLine, if_neg (not_not.mpr empty), empty, unchanged, readLines_nil]
  · rw [nonemptyLine, if_pos empty, readLines_setting, crop_value word empty, readLines_nil]

theorem readLines_textLines {str : Text} (word : IsWord (bare str)) :
    readLines charSigned (textLines key str) (.ok state) =
      applySetting charSigned (lit key) (cropped (bare str)) state := by
  rw [textLines, readLines_setting, crop_bare word]
  split <;> rfl

/-- A line that the parser stores as the default expiry. -/
theorem readLines_expiryLine {n : Int32}
    (stored : ∀ value, applySetting charSigned (lit key) value state =
      .ok { state with conf.defaultexpiry := atoi value }) :
    readLines charSigned (nonzeroLine key n) (.ok state) =
      .ok { state with
        conf.defaultexpiry := if n ≠ 0 then lowShort n else state.conf.defaultexpiry } := by
  by_cases zero : n = 0
  · rw [nonzeroLine, if_neg (not_not.mpr zero), if_neg (not_not.mpr zero)]
    rfl
  · rw [nonzeroLine, if_pos zero, readLines_setting, (Plain.printShort n).crop, stored,
      atoi_printShort_eq, if_pos zero]
    rfl

end Lines

section Sections

variable (charSigned : Bool) (conf : SipConfig) {state : ParseState}

theorem readLines_headerLines : readLines charSigned headerLines (.ok state) = .ok state := by
  simp only [headerLines, readLines_setting, readLines_other, readLines_nil, applySetting, lit_inj,
    String.reduceEq, ↓reduceIte]

theorem readLines_serverLines :
    readLines charSigned (serverLines conf) (.ok state) = .ok { state with
      conf.bindport := conf.bindport
      conf.defaultexpiry := lowShort conf.defaultexpiry
      conf.tcpenable := truth conf.tcpenable
      conf.jbConf.jbEnable := 1
      conf.jbConf.jbMaxsize := lowShort conf.jbConf.jbMaxsize
      conf.jbConf.jbImpl := truth conf.jbConf.jbImpl } := by
  simp only [serverLines, readLines_setting, readLines_nil, applySetting, lit_inj,
    String.reduceEq, ↓reduceIte, (printUnsignedShort_plain _).crop, (Plain.printShort _).crop,
    (Plain.yesNo _).crop, (jbImpl_plain _).crop, (Plain.ofLit (lit "yes")).crop,
    toUnsignedShort_printUnsignedShort, atoi_printShort_eq, sameText_yesNo, sameText_adaptive,
    sameText_lit]

/-- The timers of a state that has not seen any of their lines yet. -/
theorem readLines_timerLines
    (fresh : state.conf.t1min = 0 ∧ state.conf.timert1 = 0 ∧ state.conf.timerb = 0 ∧
      state.conf.rtptimeout = 0 ∧ state.conf.rtpholdtimeout = 0 ∧ state.conf.rtpkeepalive = 0) :
    readLines charSigned (timerLines conf) (.ok state) = .ok { state with
      conf.t1min := lowShort conf.t1min
      conf.timert1 := lowShort conf.timert1
      conf.timerb := lowShort conf.timerb
      conf.rtptimeout := lowShort conf.rtptimeout
      conf.rtpholdtimeout := lowShort conf.rtpholdtimeout
      conf.rtpkeepalive := lowShort conf.rtpkeepalive } := by
  rcases state with ⟨⟨⟩, posCodecs⟩
  obtain ⟨t1min, timert1, timerb, rtptimeout, rtpholdtimeout, rtpkeepalive⟩ := fresh
  simp only at t1min timert1 timerb rtptimeout rtpholdtimeout rtpkeepalive
  subst_vars
  have zero : lowShort 0 = 0 := rfl
  simp only [timerLines, readLines_append, readLines_nonzeroLine, applySetting, lit_inj,
    String.reduceEq, ↓reduceIte, atoi_printShort_eq, zero]

theorem readLines_sessionLines (strings : PrintableStrings conf) :
    readLines charSigned (sessionLines conf) (.ok state) = .ok { state with
      conf.sessionTimers :=
        state.conf.sessionTimers.strncpy (cropped (bare conf.sessionTimers.str)) 16
      conf.sessionRefresher :=
        state.conf.sessionRefresher.strncpy (cropped (bare conf.sessionRefresher.str)) 8
      conf.defaultexpiry :=
        if conf.sessionMinse ≠ 0 then lowShort conf.sessionMinse
        else if conf.sessionExpires ≠ 0 then lowShort conf.sessionExpires
        else state.conf.defaultexpiry } := by
  simp only [sessionLines, readLines_append, readLines_expiryLine,
    readLines_textLines strings.sessionTimers.bare_isWord,
    readLines_textLines strings.sessionRefresher.bare_isWord, readLines_setting, readLines_nil,
    applySetting, lit_inj, String.reduceEq, ↓reduceIte, implies_true]

theorem readLines_registerLines (strings : PrintableStrings conf)
    (fresh : state.conf.registerEnable = 0) :
    readLines charSigned (registerLines conf) (.ok state) = .ok { state with
      conf.registerUsername :=
        state.conf.registerUsername.strncpy (cropped (bare conf.registerUsername.str)) 63
      conf.registerSecret :=
        state.conf.registerSecret.strncpy (cropped (bare conf.registerSecret.str)) 63
      conf.registerHost :=
        state.conf.registerHost.strncpy (cropped (bare conf.registerHost.str)) 63
      conf.registerEnable := if Registers conf then 1 else 0 } := by
  rw [registerLines, readLines_append]
  simp only [readLines_setting, readLines_nil, applySetting, lit_inj, String.reduceEq, ↓reduceIte,
    crop_bare strings.registerUsername.bare_isWord, crop_bare strings.registerSecret.bare_isWord,
    crop_bare strings.registerHost.bare_isWord]
  by_cases registers : Registers conf
  · simp only [registers, ↓reduceIte, readLines_setting, readLines_nil, applySetting, lit_inj,
      String.reduceEq]
  · simp only [registers, ↓reduceIte, readLines_nil, ← fresh]

theorem readLines_accountHeaderLines :
    readLines charSigned accountHeaderLines (.ok state) = .ok state := by
  simp only [accountHeaderLines, readLines_setting, readLines_other, readLines_nil, applySetting,
    lit_inj, String.reduceEq, ↓reduceIte]

/-- The account lines in front of the codecs, read into a cleared account. -/
theorem readLines_accountLines (strings : PrintableStrings conf)
    (fresh : state.conf.account = .zero) :
    readLines charSigned (peerLines conf.account ++ optionLines conf.account) (.ok state) =
      .ok { state with conf.account := { conf.account.reread with allow := padded [] } } := by
  rcases state with ⟨⟨⟩, posCodecs⟩
  simp only at fresh
  subst fresh
  have nothing : Str.striplf charSigned [] = [] := rfl
  have noCodecs : padded [] = .replicate 9 0 := rfl
  simp only [peerLines, optionLines, readLines_append, readLines_nonemptyLine strings.host.isWord,
    readLines_nonemptyLine strings.username.isWord, readLines_nonemptyLine strings.secret.isWord,
    readLines_textLines strings.dtmfmode.bare_isWord,
    readLines_nonemptyLine strings.callerid.isWord, readLines_nonemptyLine strings.fromuser.isWord,
    readLines_nonemptyLine strings.insecure.isWord, readLines_nonemptyLine strings.transport.isWord,
    readLines_setting, readLines_nil, (printUnsignedShort_plain _).crop, (Plain.yesNo _).crop,
    applySetting, lit_inj, String.reduceEq, ↓reduceIte, toUnsignedShort_printUnsignedShort,
    sameText_yesNo, Str.striplf_word charSigned strings.fromuser.isWord, nothing, noCodecs,
    SipAccount.zero, CharArray.strncpy_zero_nil, SipAccount.reread]
  rfl

end Sections

/-! ## The codecs -/

/-- The name and interval of a codec are recognised as the codec. -/
theorem getCodecCode_allowValue (files : Files) (code : Int32) :
    getCodecCode (allowValue files code) = recognised code := by
  have shape : allowValue files code = printName (getCodecName code) ++
      58 :: printInt (getCodecPacketizationInterval files code).toInt := by
    rw [allowValue, List.append_assoc]
    rfl
  rw [shape, recognised]
  split
  · rename_i known
    exact getCodecCode_name known _
  · rename_i unknown
    rw [getCodecName_eq_none unknown]
    exact getCodecCode_null _

theorem padded_getElem (codes : List Int32) {index : Nat} (inside : index < 9) :
    (padded codes)[index] = codes.getD index 0 := Vector.getElem_ofFn inside

/-- Storing a code behind the codes seen so far. -/
theorem padded_set {codes : List Int32} (code : Int32) (room : codes.length < 9) :
    (padded codes).set codes.length code room = padded (codes ++ [code]) := by
  ext index inside
  rw [Vector.getElem_set, padded_getElem, padded_getElem]
  by_cases last : codes.length = index
  · simp [last]
  · rw [if_neg last]
    by_cases before : index < codes.length
    · rw [List.getD_append _ _ _ _ before]
    · have behind : (codes ++ [code]).length ≤ index := by
        rw [List.length_append, List.length_singleton]
        omega
      rw [List.getD_eq_default _ _ (Nat.le_of_not_lt before), List.getD_eq_default _ _ behind]

/-- The parser's state after the codecs `seen`. -/
def afterCodecs (conf : SipConfig) (seen : List Int32) : ParseState where
  conf := { conf with account.allow := padded seen }
  posCodecs := seen.length

theorem storeCodec_afterCodecs (code : Int32) (conf : SipConfig) {seen : List Int32}
    (room : seen.length < 9) :
    storeCodec code (afterCodecs conf seen) = .ok (afterCodecs conf (seen ++ [code])) := by
  have below : ¬ (afterCodecs conf seen).posCodecs > numAvailableCodecs := Nat.not_lt_of_lt room
  have inside : (afterCodecs conf seen).posCodecs < 9 := room
  have stored : (afterCodecs conf seen).conf.account.allow.set (afterCodecs conf seen).posCodecs
      code inside = padded (seen ++ [code]) := padded_set code room
  rw [storeCodec, if_neg below, dif_pos inside, stored]
  simp only [afterCodecs, List.length_append, List.length_singleton]

/-- The `allow` lines fill the array in order, behind the codes seen so far. -/
theorem readLines_allowLines (charSigned : Bool) (files : Files) (conf : SipConfig)
    {codes seen : List Int32} (room : seen.length + codes.length ≤ 9) :
    readLines charSigned (codes.map fun code => .setting (lit "allow") (allowValue files code))
      (.ok (afterCodecs conf seen)) = .ok (afterCodecs conf (seen ++ codes.map recognised)) := by
  induction codes generalizing seen with
  | nil => rw [List.map_nil, List.map_nil, List.append_nil, readLines_nil]
  | cons code codes inductionHypothesis =>
      rw [List.length_cons] at room
      have word := allowValue_isWord files code
      have nonempty : allowValue files code ≠ [] := by
        rw [allowValue]
        simp [printInt_ne_nil]
      have stored : applySetting charSigned (lit "allow") (allowValue files code)
          (afterCodecs conf seen) = .ok (afterCodecs conf (seen ++ [recognised code])) := by
        simp only [applySetting, lit_inj, String.reduceEq, ↓reduceIte, getCodecCode_allowValue]
        exact storeCodec_afterCodecs (recognised code) conf (by omega)
      have rest : (seen ++ [recognised code]).length + codes.length ≤ 9 := by
        rw [List.length_append, List.length_singleton]
        omega
      rw [List.map_cons, readLines_setting, crop_value word nonempty, stored,
        inductionHypothesis rest, List.map_cons, List.append_assoc, List.singleton_append]

theorem padded_toList {codes : List Int32} (fits : codes.length ≤ 9) :
    (padded codes).toList = codes ++ List.replicate (9 - codes.length) 0 := by
  apply List.ext_getElem
  · rw [Vector.length_toList, List.length_append, List.length_replicate]
    omega
  · intro index inPadded inList
    rw [Vector.getElem_toList, padded_getElem]
    by_cases inside : index < codes.length
    · rw [List.getElem_append_left inside, List.getD_eq_getElem _ _ inside]
    · rw [List.getElem_append_right (Nat.le_of_not_lt inside), List.getElem_replicate,
        List.getD_eq_default _ _ (Nat.le_of_not_lt inside)]

theorem SipAccount.allowed_length (account : SipAccount) : account.allowed.length ≤ 9 := by
  have whole := List.length_filter_le (fun code => decide (0 < code)) account.allow.toList
  rwa [Vector.length_toList] at whole

/-! ## The whole file -/

/-- Parsing the lines of a save: every field comes back as `reread` says. -/
theorem parseLines_fileLines (charSigned : Bool) (files : Files) {conf : SipConfig}
    (strings : PrintableStrings conf) :
    parseLines bufSize cropDelimiters (parseStep charSigned) (.ok { conf := .zero, posCodecs := 0 })
      (render (fileLines files conf)) =
      .ok (afterCodecs conf.reread (conf.account.allowed.map recognised)) := by
  have room : ([] : List Int32).length + conf.account.allowed.length ≤ 9 := by
    rw [List.length_nil, Nat.zero_add]
    exact conf.account.allowed_length
  rw [parseLines_render _ _ (fileLines_wellFormed files strings)]
  change readLines charSigned (fileLines files conf) (.ok { conf := .zero, posCodecs := 0 }) = _
  rw [fileLines, readLines_append, readLines_headerLines, readLines_append, readLines_serverLines,
    readLines_append, readLines_timerLines charSigned conf ⟨rfl, rfl, rfl, rfl, rfl, rfl⟩,
    readLines_append, readLines_sessionLines charSigned conf strings, readLines_append,
    readLines_registerLines charSigned conf strings rfl, readLines_append,
    readLines_accountHeaderLines, ← List.append_assoc, readLines_append,
    readLines_accountLines charSigned conf strings rfl, allowLines]
  exact readLines_allowLines charSigned files conf.reread room

/-- What the parser returns for a file with the lines of `conf`. -/
theorem parseConfig_eq (charSigned : Bool) {files other : Files} {conf : SipConfig}
    (opened : files.openRead fileSipConf = some (render (fileLines other conf)))
    (strings : PrintableStrings conf) : parseConfig charSigned files = .ok (some conf.reread) := by
  rw [parseConfig, opened]
  change (parseLines bufSize cropDelimiters _ _ (render (fileLines other conf)) >>= _) = _
  rw [parseLines_fileLines charSigned other strings]
  rfl

/-- What the parser returns for the file that a save of `conf` wrote. -/
theorem parseConfig_saved (charSigned : Bool) {files : Files} {conf : SipConfig}
    (readable : files.readable fileSipConf = true) (strings : PrintableStrings conf) :
    parseConfig charSigned (files.write fileSipConf (render (fileLines files conf))) =
      .ok (some conf.reread) :=
  parseConfig_eq charSigned (Files.openRead_write_self _ readable) strings

/-! ## The account survives -/

/-- Two fields hold the same string. -/
def SameString {size : Nat} (first second : CharArray size) : Prop :=
  first.Terminated ∧ first.str = second.str

/-- The same account, except for the codecs. -/
structure SameAccount (first second : SipAccount) : Prop where
  nat : first.nat = second.nat
  qualify : first.qualify = second.qualify
  callerid : SameString first.callerid second.callerid
  fromuser : SameString first.fromuser second.fromuser
  insecure : SameString first.insecure second.insecure
  username : SameString first.username second.username
  secret : SameString first.secret second.secret
  host : SameString first.host second.host
  transport : SameString first.transport second.transport
  port : first.port = second.port
  dtmfmode : SameString first.dtmfmode second.dtmfmode

/-- The strings of a configuration are words inside their arrays. -/
structure WordStrings (conf : SipConfig) : Prop where
  sessionTimers : conf.sessionTimers.Word
  sessionRefresher : conf.sessionRefresher.Word
  registerUsername : conf.registerUsername.Word
  registerSecret : conf.registerSecret.Word
  registerHost : conf.registerHost.Word
  host : conf.account.host.Word
  username : conf.account.username.Word
  secret : conf.account.secret.Word
  dtmfmode : conf.account.dtmfmode.Word
  callerid : conf.account.callerid.Word
  fromuser : conf.account.fromuser.Word
  insecure : conf.account.insecure.Word
  transport : conf.account.transport.Word

theorem WordStrings.printable {conf : SipConfig} (strings : WordStrings conf) :
    PrintableStrings conf where
  sessionTimers := printable_of_word strings.sessionTimers
  sessionRefresher := printable_of_word strings.sessionRefresher
  registerUsername := printable_of_word strings.registerUsername
  registerSecret := printable_of_word strings.registerSecret
  registerHost := printable_of_word strings.registerHost
  host := strings.host
  username := strings.username
  secret := strings.secret
  dtmfmode := printable_of_word strings.dtmfmode
  callerid := strings.callerid
  fromuser := strings.fromuser
  insecure := strings.insecure
  transport := strings.transport

/-- The accounts that a round trip is expected of: flags, a DTMF mode and codec codes. -/
structure RepresentableAccount (account : SipAccount) : Prop where
  nat : account.nat = 0 ∨ account.nat = 1
  qualify : account.qualify = 0 ∨ account.qualify = 1
  dtmfmode : account.dtmfmode.str ≠ []
  allow : ∀ code ∈ account.allow.toList, 0 < code → code ∈ codecCodes

/-- A word copied into a cleared array is the same string. -/
theorem sameString_strncpy {size count : Nat} {array : CharArray size} (word : array.Word)
    (fits : count ≤ size) (room : size ≤ count + 1) :
    SameString ((CharArray.zero size).strncpy array.str count fits) array := by
  have short := word.length_lt
  exact ⟨CharArray.strncpy_zero_terminated fits (by omega) short,
    CharArray.str_strncpy_zero fits word.isWord.nul_notMem (by omega) short⟩

theorem SipAccount.reread_same {conf : SipConfig} (strings : WordStrings conf)
    (representable : RepresentableAccount conf.account) :
    SameAccount conf.account.reread conf.account where
  nat := truth_of_flag representable.nat
  qualify := truth_of_flag representable.qualify
  callerid := sameString_strncpy strings.callerid (by decide) (by decide)
  fromuser := sameString_strncpy strings.fromuser (by decide) (by decide)
  insecure := sameString_strncpy strings.insecure (by decide) (by decide)
  username := sameString_strncpy strings.username (by decide) (by decide)
  secret := sameString_strncpy strings.secret (by decide) (by decide)
  host := sameString_strncpy strings.host (by decide) (by decide)
  transport := sameString_strncpy strings.transport (by decide) (by decide)
  port := rfl
  dtmfmode := by
    have copied := @sameString_strncpy 32 31 _ strings.dtmfmode (by decide) (by decide)
    simp only [SipAccount.reread, bare_of_word strings.dtmfmode.isWord,
      cropped_eq_self representable.dtmfmode]
    exact copied

/-- Codec codes are recognised as themselves. -/
theorem map_recognised {account : SipAccount}
    (known : ∀ code ∈ account.allow.toList, 0 < code → code ∈ codecCodes) :
    account.allowed.map recognised = account.allowed := by
  refine (List.map_congr_left fun code member => ?_).trans (List.map_id _)
  obtain ⟨inArray, positive⟩ := List.mem_filter.mp member
  exact if_pos (known code inArray (of_decide_eq_true positive))

/-- The codecs come back as the positive entries in their order, then zeros. -/
theorem SipAccount.reread_allow {account : SipAccount}
    (representable : RepresentableAccount account) :
    account.reread.allow = padded account.allowed := by
  rw [SipAccount.reread, map_recognised representable.allow]

/-- Saving a configuration and parsing the file gives back its account: the same
fields, and the positive codecs in their order followed by zeros. -/
theorem parse_save_account (charSigned : Bool) {files : Files} {conf : SipConfig}
    (openable : files.Openable fileSipConf) (strings : WordStrings conf)
    (representable : RepresentableAccount conf.account) :
    ∃ saved stripped reread, saveConfig charSigned files conf = .ok (0, stripped, saved) ∧
      parseConfig charSigned saved = .ok (some reread) ∧
      SameAccount reread.account conf.account ∧
      reread.account.allow = padded conf.account.allowed :=
  ⟨_, _, conf.reread, saveConfig_eq charSigned openable.2 strings.printable,
    parseConfig_saved charSigned openable.1 strings.printable,
    SipAccount.reread_same strings representable, SipAccount.reread_allow representable⟩

/-- A small configuration: two codecs with a gap, a registration and one peer. -/
def sampleConfig : SipConfig := { SipConfig.zero with
  sessionTimers := .full 16 (lit "accept")
  sessionRefresher := .full 8 (lit "uas")
  registerEnable := 1
  registerUsername := .filled 63 (lit "user")
  registerSecret := .filled 63 (lit "pass")
  registerHost := .filled 63 (lit "sip.host")
  account := { SipAccount.zero with
    host := .filled 63 (lit "10.0.0.1")
    port := 50600
    dtmfmode := .filled 31 (lit "rfc2833")
    allow := #v[codecG726_32KbpsCod, 0, codecG711ACod, 0, 0, 0, 0, 0, 0] } }

theorem sampleConfig_words : WordStrings sampleConfig :=
  ⟨by decide, by decide, by decide, by decide, by decide, by decide, by decide, by decide,
    by decide, by decide, by decide, by decide, by decide⟩

theorem sampleConfig_codecs :
    ∀ code ∈ sampleConfig.account.allow.toList, code = 0 ∨ code ∈ codecCodes := by
  have all : sampleConfig.account.allow.toList.all (fun code => code = 0 ∨ code ∈ codecCodes) =
      true := by decide
  exact fun code member => of_decide_eq_true (List.all_eq_true.mp all code member)

theorem parse_save_account_witness :
    ∃ saved stripped reread,
      saveConfig true Files.empty sampleConfig = .ok (0, stripped, saved) ∧
      parseConfig true saved = .ok (some reread) ∧
      SameAccount reread.account sampleConfig.account ∧
      reread.account.allow = padded sampleConfig.account.allowed :=
  parse_save_account true (by decide) sampleConfig_words
    ⟨by decide, by decide, by decide, fun code member positive =>
      (sampleConfig_codecs code member).resolve_left
        fun zero => absurd positive (by rw [zero]; decide)⟩

/-! ## The general part survives in part -/

/-- The same general and registration part. -/
structure SameGeneral (first second : SipConfig) : Prop where
  bindport : first.bindport = second.bindport
  defaultexpiry : first.defaultexpiry = second.defaultexpiry
  tcpenable : first.tcpenable = second.tcpenable
  jbMaxsize : first.jbConf.jbMaxsize = second.jbConf.jbMaxsize
  jbImpl : first.jbConf.jbImpl = second.jbConf.jbImpl
  t1min : first.t1min = second.t1min
  timert1 : first.timert1 = second.timert1
  timerb : first.timerb = second.timerb
  rtptimeout : first.rtptimeout = second.rtptimeout
  rtpholdtimeout : first.rtpholdtimeout = second.rtpholdtimeout
  rtpkeepalive : first.rtpkeepalive = second.rtpkeepalive
  sessionTimers : SameString first.sessionTimers second.sessionTimers
  sessionExpires : first.sessionExpires = second.sessionExpires
  sessionMinse : first.sessionMinse = second.sessionMinse
  sessionRefresher : SameString first.sessionRefresher second.sessionRefresher
  autoframing : first.autoframing = second.autoframing
  registerEnable : first.registerEnable = second.registerEnable
  registerUsername : SameString first.registerUsername second.registerUsername
  registerSecret : SameString first.registerSecret second.registerSecret
  registerHost : SameString first.registerHost second.registerHost

/-- The general parts that a round trip is expected of. -/
structure RepresentableGeneral (conf : SipConfig) : Prop where
  defaultexpiry : InShortRange conf.defaultexpiry
  tcpenable : conf.tcpenable = 0 ∨ conf.tcpenable = 1
  jbMaxsize : InShortRange conf.jbConf.jbMaxsize
  jbImpl : conf.jbConf.jbImpl = 0 ∨ conf.jbConf.jbImpl = 1
  t1min : InShortRange conf.t1min
  timert1 : InShortRange conf.timert1
  timerb : InShortRange conf.timerb
  rtptimeout : InShortRange conf.rtptimeout
  rtpholdtimeout : InShortRange conf.rtpholdtimeout
  rtpkeepalive : InShortRange conf.rtpkeepalive
  sessionExpires : InShortRange conf.sessionExpires
  sessionMinse : InShortRange conf.sessionMinse
  autoframing : conf.autoframing = 0 ∨ conf.autoframing = 1
  registerEnable : conf.registerEnable = 0 ∨ conf.registerEnable = 1
  registration : conf.registerEnable = 1 → conf.registerUsername.str ≠ [] ∧
    conf.registerSecret.str ≠ [] ∧ conf.registerHost.str ≠ []

/-- Saving a configuration and parsing the file gives back its general part. -/
def RestoresGeneral (charSigned : Bool) (files : Files) (conf : SipConfig) : Prop :=
  ∃ saved stripped reread, saveConfig charSigned files conf = .ok (0, stripped, saved) ∧
    parseConfig charSigned saved = .ok (some reread) ∧ SameGeneral reread conf

/-- What a general part must not use to survive: the settings that are stored in
another field or not parsed at all, and empty strings, which come back as a newline. -/
structure Survives (conf : SipConfig) : Prop where
  sessionExpires : conf.sessionExpires = 0
  sessionMinse : conf.sessionMinse = 0
  autoframing : conf.autoframing = 0
  sessionTimers : conf.sessionTimers.str ≠ []
  sessionRefresher : conf.sessionRefresher.str ≠ []
  registerUsername : conf.registerUsername.str ≠ []
  registerSecret : conf.registerSecret.str ≠ []
  registerHost : conf.registerHost.str ≠ []

/-- A string that is printed even when it is empty survives exactly when it is not. -/
theorem sameString_cropped_iff {size count : Nat} {array : CharArray size} (word : array.Word)
    (fits : count ≤ size) (room : size ≤ count + 1) (several : 2 ≤ size) :
    SameString ((CharArray.zero size).strncpy (cropped (bare array.str)) count fits) array ↔
      array.str ≠ [] := by
  rw [bare_of_word word.isWord]
  constructor
  · rintro ⟨_, same⟩ empty
    have newlineKept : ((CharArray.zero size).strncpy [newline] count fits).str = [newline] :=
      CharArray.str_strncpy_zero fits (by decide) (by simp; omega) (by simp; omega)
    rw [empty, cropped, if_pos rfl, newlineKept] at same
    exact List.cons_ne_nil _ _ same
  · intro nonempty
    rw [cropped_eq_self nonempty]
    exact sameString_strncpy word fits room

/-- The registration line is printed exactly for a complete enabled registration. -/
theorem rereadRegister_eq {conf : SipConfig} (strings : WordStrings conf)
    (representable : RepresentableGeneral conf) :
    conf.reread.registerEnable = conf.registerEnable := by
  have username := bare_of_word strings.registerUsername.isWord
  have secret := bare_of_word strings.registerSecret.isWord
  have host := bare_of_word strings.registerHost.isWord
  rcases representable.registerEnable with off | on
  · have silent : ¬ Registers conf := fun registers => registers.1 off
    rw [off]
    exact if_neg silent
  · have registers : Registers conf := by
      rw [Registers, username, secret, host, on]
      exact ⟨by decide, representable.registration on⟩
    rw [on]
    exact if_pos registers

theorem SipConfig.reread_same_iff {conf : SipConfig} (strings : WordStrings conf)
    (representable : RepresentableGeneral conf) :
    SameGeneral conf.reread conf ↔ Survives conf := by
  have sessionTimers := @sameString_cropped_iff 16 16 _ strings.sessionTimers
    (by decide) (by decide) (by decide)
  have sessionRefresher := @sameString_cropped_iff 8 8 _ strings.sessionRefresher
    (by decide) (by decide) (by decide)
  have registerUsername := @sameString_cropped_iff 64 63 _ strings.registerUsername
    (by decide) (by decide) (by decide)
  have registerSecret := @sameString_cropped_iff 64 63 _ strings.registerSecret
    (by decide) (by decide) (by decide)
  have registerHost := @sameString_cropped_iff 64 63 _ strings.registerHost
    (by decide) (by decide) (by decide)
  constructor
  · intro same
    exact {
      sessionExpires := same.sessionExpires.symm
      sessionMinse := same.sessionMinse.symm
      autoframing := same.autoframing.symm
      sessionTimers := sessionTimers.mp same.sessionTimers
      sessionRefresher := sessionRefresher.mp same.sessionRefresher
      registerUsername := registerUsername.mp same.registerUsername
      registerSecret := registerSecret.mp same.registerSecret
      registerHost := registerHost.mp same.registerHost }
  · intro survives
    have expiry : rereadExpiry conf = lowShort conf.defaultexpiry := by
      rw [rereadExpiry, if_neg (not_not.mpr survives.sessionMinse),
        if_neg (not_not.mpr survives.sessionExpires)]
    exact {
      bindport := rfl
      defaultexpiry := expiry.trans representable.defaultexpiry.lowShort_eq
      tcpenable := truth_of_flag representable.tcpenable
      jbMaxsize := representable.jbMaxsize.lowShort_eq
      jbImpl := truth_of_flag representable.jbImpl
      t1min := representable.t1min.lowShort_eq
      timert1 := representable.timert1.lowShort_eq
      timerb := representable.timerb.lowShort_eq
      rtptimeout := representable.rtptimeout.lowShort_eq
      rtpholdtimeout := representable.rtpholdtimeout.lowShort_eq
      rtpkeepalive := representable.rtpkeepalive.lowShort_eq
      sessionTimers := sessionTimers.mpr survives.sessionTimers
      sessionExpires := survives.sessionExpires.symm
      sessionMinse := survives.sessionMinse.symm
      sessionRefresher := sessionRefresher.mpr survives.sessionRefresher
      autoframing := survives.autoframing.symm
      registerEnable := rereadRegister_eq strings representable
      registerUsername := registerUsername.mpr survives.registerUsername
      registerSecret := registerSecret.mpr survives.registerSecret
      registerHost := registerHost.mpr survives.registerHost }

/-- The general part comes back exactly when it uses none of the settings that get
lost. -/
theorem restoresGeneral_iff_survives (charSigned : Bool) {files : Files} {conf : SipConfig}
    (openable : files.Openable fileSipConf) (strings : WordStrings conf)
    (representable : RepresentableGeneral conf) :
    RestoresGeneral charSigned files conf ↔ Survives conf := by
  have saved := saveConfig_eq charSigned openable.2 strings.printable
  have parsed := parseConfig_saved charSigned openable.1 strings.printable
  rw [← SipConfig.reread_same_iff strings representable]
  constructor
  · rintro ⟨savedFiles, stripped, reread, saveEq, parseEq, same⟩
    rw [saved] at saveEq
    cases saveEq
    rw [parsed] at parseEq
    cases parseEq
    exact same
  · intro same
    exact ⟨_, _, conf.reread, saved, parsed, same⟩

theorem sampleConfig_general : RepresentableGeneral sampleConfig :=
  ⟨by decide, by decide, by decide, by decide, by decide, by decide, by decide, by decide,
    by decide, by decide, by decide, by decide, by decide, by decide, by decide⟩

theorem restoresGeneral_iff_survives_witness :
    RestoresGeneral true Files.empty sampleConfig ↔ Survives sampleConfig :=
  restoresGeneral_iff_survives true (by decide) sampleConfig_words sampleConfig_general

/-- A session expiry of 1800 seconds comes back as the default expiry. -/
theorem sessionExpires_lost :
    WordStrings { sampleConfig with sessionExpires := 1800 } ∧
      RepresentableGeneral { sampleConfig with sessionExpires := 1800 } ∧
      ¬ RestoresGeneral true Files.empty { sampleConfig with sessionExpires := 1800 } := by
  have strings : WordStrings { sampleConfig with sessionExpires := 1800 } :=
    { sampleConfig_words with }
  have representable : RepresentableGeneral { sampleConfig with sessionExpires := 1800 } :=
    { sampleConfig_general with sessionExpires := by decide }
  refine ⟨strings, representable, ?_⟩
  rintro ⟨savedFiles, stripped, reread, saveEq, parseEq, same⟩
  rw [@saveConfig_eq true Files.empty _ rfl strings.printable] at saveEq
  cases saveEq
  rw [@parseConfig_saved true Files.empty _ rfl strings.printable] at parseEq
  cases parseEq
  exact absurd same.sessionExpires (by decide)

end Libamg.Sip
