import Libamg.Config.Sip

/-!
# The written sip.conf, line by line

`saveConfig_eq` lists the lines of the file that a save writes, `parseConfig_saved`
says what the parser finds in them. Together they are the round trip of a whole SIP
configuration; the fields that do not survive it are those where `SipConfig.reread`
differs from the configuration that was saved.
-/

namespace Libamg.Sip

open C Comcerto

/-! ## Strings of a configuration -/

/-- A string that a save prints on one line, up to a lone newline. The parser
leaves a lone newline behind for an empty value. -/
structure Printable {size : Nat} (array : CharArray size) : Prop where
  terminated : array.Terminated
  shape : array.str = [newline] ∨ IsWord array.str

/-- The strings of a configuration, as `fprintf` and `libamg_str_striplf` need them. -/
structure PrintableStrings (conf : SipConfig) : Prop where
  sessionTimers : Printable conf.sessionTimers
  sessionRefresher : Printable conf.sessionRefresher
  registerUsername : Printable conf.registerUsername
  registerSecret : Printable conf.registerSecret
  registerHost : Printable conf.registerHost
  host : conf.account.host.Word
  username : conf.account.username.Word
  secret : conf.account.secret.Word
  dtmfmode : Printable conf.account.dtmfmode
  callerid : conf.account.callerid.Word
  fromuser : conf.account.fromuser.Word
  insecure : conf.account.insecure.Word
  transport : conf.account.transport.Word

/-- The part of a printable string on its line: nothing when it is a lone newline. -/
def bare (str : Text) : Text := if str = [newline] then [] else str

theorem bare_of_word {str : Text} (word : IsWord str) : bare str = str := by
  refine if_neg fun isNewline => ?_
  have absent := word.newline_notMem
  simp [isNewline] at absent

/-- An empty value turns into a newline when it is cropped, and back when it is
printed. -/
theorem bare_cropped {str : Text} (word : IsWord str) : bare (cropped str) = str := by
  by_cases empty : str = []
  · rw [cropped, if_pos empty, empty]
    rfl
  · rw [cropped_eq_self empty, bare_of_word word]

section Printable

variable {size : Nat} {array : CharArray size}

theorem printable_of_word (word : array.Word) : Printable array :=
  ⟨word.terminated, .inr word.isWord⟩

theorem Printable.bare_isWord (printable : Printable array) : IsWord (bare array.str) := by
  rcases printable.shape with isNewline | word
  · rw [bare, if_pos isNewline]
    decide
  · rwa [bare_of_word word]

theorem Printable.bare_length_lt (printable : Printable array) :
    (bare array.str).length < size := by
  have room := CharArray.str_length_lt printable.terminated
  rcases printable.shape with isNewline | word
  · rw [isNewline] at room
    rw [bare, if_pos isNewline, List.length_nil]
    omega
  · rwa [bare_of_word word]

theorem Printable.str_stripArray (charSigned : Bool) (printable : Printable array) :
    (Str.stripArray charSigned array).str = bare array.str := by
  rw [Str.str_stripArray charSigned printable.terminated]
  rcases printable.shape with isNewline | word
  · rw [isNewline, Str.striplf_newline]
    rfl
  · rw [Str.striplf_word charSigned word, bare_of_word word]

theorem Printable.stripArray_terminated (charSigned : Bool) (printable : Printable array) :
    (Str.stripArray charSigned array).Terminated :=
  Str.stripArray_terminated charSigned printable.terminated

end Printable

/-! ## Lines -/

/-- The line of a number that is left out when it is 0. -/
def nonzeroLine (key : String) (n : Int32) : List Entry :=
  if n ≠ 0 then [.setting (lit key) (printShort n)] else []

/-- The line of a string that is left out when it is empty. -/
def nonemptyLine (key : String) (str : Text) : List Entry :=
  if str ≠ [] then [.setting (lit key) str] else []

/-- The line of a string printed as it is: a lone newline makes an empty line more. -/
def textLines (key : String) (str : Text) : List Entry :=
  .setting (lit key) (bare str) :: if str = [newline] then [.other []] else []

def headerLines : List Entry :=
  [.other (lit "[general]"), .setting (lit "context") (lit "from-sip"),
    .setting (lit "sdpsession") (lit "SIP Call"), .setting (lit "sdpowner") (lit "ParksSIP-MG"),
    .setting (lit "disallow") (lit "all"), .setting (lit "srvlookup") (lit "yes"),
    .setting (lit "bindaddr") (lit "0.0.0.0"), .setting (lit "engine") (lit "comcerto")]

def serverLines (conf : SipConfig) : List Entry :=
  [.setting (lit "useragent") (lit "Parks-AMG"),
    .setting (lit "bindport") (printUnsignedShort conf.bindport),
    .setting (lit "defaultexpiry") (printShort conf.defaultexpiry),
    .setting (lit "tcpenable") (yesNo conf.tcpenable),
    .setting (lit "tcpbindaddr") (lit "0.0.0.0"),
    .setting (lit "jbenable") (lit "yes"),
    .setting (lit "jbmaxsize") (printShort conf.jbConf.jbMaxsize),
    .setting (lit "jbimpl") (choose conf.jbConf.jbImpl "adaptive" "fixed")]

def timerLines (conf : SipConfig) : List Entry :=
  nonzeroLine "t1min" conf.t1min ++ nonzeroLine "timert1" conf.timert1 ++
    nonzeroLine "timerb" conf.timerb ++ nonzeroLine "rtptimeout" conf.rtptimeout ++
    nonzeroLine "rtpholdtimeout" conf.rtpholdtimeout ++ nonzeroLine "rtpkeepalive" conf.rtpkeepalive

def sessionLines (conf : SipConfig) : List Entry :=
  textLines "session-timers" conf.sessionTimers.str ++
    nonzeroLine "session-expires" conf.sessionExpires ++
    nonzeroLine "session-minse" conf.sessionMinse ++
    textLines "session-refresher" conf.sessionRefresher.str ++
    [.setting (lit "autoframing") (yesNo conf.autoframing)]

/-- When the registration line is printed. -/
def Registers (conf : SipConfig) : Prop :=
  conf.registerEnable ≠ 0 ∧ bare conf.registerUsername.str ≠ [] ∧
    bare conf.registerSecret.str ≠ [] ∧ bare conf.registerHost.str ≠ []

instance (conf : SipConfig) : Decidable (Registers conf) := inferInstanceAs (Decidable (_ ∧ _))

/-- The value of the registration line. -/
def registerValue (conf : SipConfig) : Text :=
  lit ">" ++ conf.account.transport.str ++ lit "://" ++ bare conf.registerUsername.str ++
    lit ":" ++ bare conf.registerSecret.str ++ lit "@" ++ bare conf.registerHost.str ++
    lit ":" ++ printUnsignedShort conf.account.port ++ lit "/User1"

def registerLines (conf : SipConfig) : List Entry :=
  [.setting (lit ";reg_username") (bare conf.registerUsername.str),
    .setting (lit ";reg_secret") (bare conf.registerSecret.str),
    .setting (lit ";reg_host") (bare conf.registerHost.str)] ++
    if Registers conf then [.setting (lit "register") (registerValue conf)] else []

def accountHeaderLines : List Entry :=
  [.other [], .other (lit "[User1]"), .other (lit "#include sip_account_custom.conf"),
    .setting (lit "type") (lit "friend")]

def peerLines (account : SipAccount) : List Entry :=
  nonemptyLine "host" account.host.str ++
    [.setting (lit "port") (printUnsignedShort account.port)] ++
    nonemptyLine "username" account.username.str ++
    nonemptyLine "secret" account.secret.str ++
    textLines "dtmfmode" account.dtmfmode.str ++
    nonemptyLine "callerid" account.callerid.str ++
    nonemptyLine "fromuser" account.fromuser.str

def optionLines (account : SipAccount) : List Entry :=
  [.setting (lit "nat") (yesNo account.nat), .setting (lit "qualify") (yesNo account.qualify)] ++
    nonemptyLine "insecure" account.insecure.str ++
    nonemptyLine "transport" account.transport.str

/-- The codecs that a save prints: the positive entries of the array. -/
def SipAccount.allowed (account : SipAccount) : List Int32 :=
  account.allow.toList.filter fun code => 0 < code

def allowLines (files : Files) (account : SipAccount) : List Entry :=
  account.allowed.map fun code => .setting (lit "allow") (allowValue files code)

/-- The lines of the file, in order. -/
def fileLines (files : Files) (conf : SipConfig) : List Entry :=
  headerLines ++ (serverLines conf ++ (timerLines conf ++ (sessionLines conf ++
    (registerLines conf ++ (accountHeaderLines ++ (peerLines conf.account ++
      (optionLines conf.account ++ allowLines files conf.account)))))))

/-! ## The printed text -/

section Print

variable {size : Nat} {array : CharArray size}

theorem stringField_eq (key : String) (printable : Printable array) :
    stringField key array = .ok (render (textLines key array.str)) := by
  rw [stringField, CharArray.read_eq_str printable.terminated]
  change Except.ok (field key array.str) = _
  by_cases isNewline : array.str = [newline]
  · rw [textLines, if_pos isNewline, render_setting, bare, if_pos isNewline, isNewline]
    simp [field, render_other]
  · rw [textLines, if_neg isNewline, render_setting, bare, if_neg isNewline, render_nil,
      List.append_nil]

theorem stringField_stripped (charSigned : Bool) (key : String) (printable : Printable array) :
    stringField key (Str.stripArray charSigned array) =
      .ok (render [.setting (lit key) (bare array.str)]) := by
  rw [stringField, CharArray.read_eq_str (printable.stripArray_terminated charSigned),
    printable.str_stripArray charSigned, render_setting, render_nil, List.append_nil]
  rfl

theorem nonemptyField_eq (key : String) (word : array.Word) :
    nonemptyField key array = .ok (render (nonemptyLine key array.str)) := by
  rw [nonemptyField, CharArray.read_eq_str word.terminated, nonemptyLine]
  change Except.ok _ = _
  by_cases empty : array.str = []
  · rw [if_neg (not_not.mpr empty), if_neg (not_not.mpr empty), render_nil]
  · rw [if_pos empty, if_pos empty, render_setting, render_nil, List.append_nil]

theorem nonemptyField_stripped (charSigned : Bool) (key : String) (word : array.Word) :
    nonemptyField key (Str.stripArray charSigned array) =
      .ok (render (nonemptyLine key array.str)) := by
  rw [nonemptyField_eq key (Str.stripArray_word charSigned word),
    Str.str_stripArray_of_word charSigned word]

end Print

theorem nonzeroField_eq (key : String) (n : Int32) :
    nonzeroField key n = render (nonzeroLine key n) := by
  unfold nonzeroField nonzeroLine
  split
  · rw [render_setting, render_nil, List.append_nil]
  · rfl

theorem allowFields_eq (files : Files) (account : SipAccount) :
    allowFields files account = render (allowLines files account) := by
  unfold allowFields allowLines SipAccount.allowed
  induction account.allow.toList with
  | nil => rfl
  | cons code codes inductionHypothesis =>
      by_cases positive : 0 < code
      · have kept : (code :: codes).filter (fun code => 0 < code) =
            code :: codes.filter fun code => 0 < code := by simp [positive]
        rw [List.flatMap_cons, inductionHypothesis, if_neg (Int32.not_le.mpr positive), kept,
          List.map_cons, render_setting]
      · have dropped : (code :: codes).filter (fun code => 0 < code) =
            codes.filter fun code => 0 < code := by simp [positive]
        rw [List.flatMap_cons, inductionHypothesis, if_pos (Int32.not_lt.mp positive), dropped,
          List.nil_append]

/-- The structure after the eight calls of `libamg_str_striplf` in a save. -/
def SipConfig.stripped (charSigned : Bool) (conf : SipConfig) : SipConfig := { conf with
  registerUsername := Str.stripArray charSigned conf.registerUsername
  registerSecret := Str.stripArray charSigned conf.registerSecret
  registerHost := Str.stripArray charSigned conf.registerHost
  account := { conf.account with
    host := Str.stripArray charSigned conf.account.host
    username := Str.stripArray charSigned conf.account.username
    secret := Str.stripArray charSigned conf.account.secret
    callerid := Str.stripArray charSigned conf.account.callerid
    fromuser := Str.stripArray charSigned conf.account.fromuser } }

theorem stripFields_eq (charSigned : Bool) {conf : SipConfig} (strings : PrintableStrings conf) :
    stripFields charSigned conf = .ok (conf.stripped charSigned) := by
  rw [stripFields, Str.striplfField_eq charSigned strings.registerUsername.terminated,
    Str.striplfField_eq charSigned strings.registerSecret.terminated,
    Str.striplfField_eq charSigned strings.registerHost.terminated,
    Str.striplfField_eq charSigned strings.host.terminated,
    Str.striplfField_eq charSigned strings.username.terminated,
    Str.striplfField_eq charSigned strings.secret.terminated,
    Str.striplfField_eq charSigned strings.callerid.terminated,
    Str.striplfField_eq charSigned strings.fromuser.terminated]
  rfl

theorem registerField_stripped (charSigned : Bool) {conf : SipConfig}
    (strings : PrintableStrings conf) :
    registerField (conf.stripped charSigned) =
      .ok (render (if Registers conf then [.setting (lit "register") (registerValue conf)]
        else [])) := by
  have username : (conf.stripped charSigned).registerUsername.read =
      .ok (bare conf.registerUsername.str) := by
    rw [← strings.registerUsername.str_stripArray charSigned]
    exact CharArray.read_eq_str (strings.registerUsername.stripArray_terminated charSigned)
  have secret : (conf.stripped charSigned).registerSecret.read =
      .ok (bare conf.registerSecret.str) := by
    rw [← strings.registerSecret.str_stripArray charSigned]
    exact CharArray.read_eq_str (strings.registerSecret.stripArray_terminated charSigned)
  have host : (conf.stripped charSigned).registerHost.read = .ok (bare conf.registerHost.str) := by
    rw [← strings.registerHost.str_stripArray charSigned]
    exact CharArray.read_eq_str (strings.registerHost.stripArray_terminated charSigned)
  have transport : (conf.stripped charSigned).account.transport.read =
      .ok conf.account.transport.str := CharArray.read_eq_str strings.transport.terminated
  rw [registerField, username, secret, host, transport]
  by_cases registers : Registers conf
  · rw [if_pos registers, render_setting, render_nil, List.append_nil]
    exact if_pos registers
  · rw [if_neg registers, render_nil]
    exact if_neg registers

@[simp] theorem printAll_nil : printAll [] = .ok [] := rfl

theorem printAll_cons (text : Text) (pieces : List (Checked Text)) :
    printAll (.ok text :: pieces) = (printAll pieces).map (text ++ ·) := by
  rw [printAll]
  cases printAll pieces <;> rfl

/-- Printed pieces in front of others. -/
theorem printAll_append {first second : List (Checked Text)} {firstText secondText : Text}
    (firstPrinted : printAll first = .ok firstText)
    (secondPrinted : printAll second = .ok secondText) :
    printAll (first ++ second) = .ok (firstText ++ secondText) := by
  induction first generalizing firstText with
  | nil =>
      cases firstPrinted
      exact secondPrinted
  | cons piece pieces inductionHypothesis =>
      cases piece with
      | error fault => cases firstPrinted
      | ok text =>
          rw [printAll_cons] at firstPrinted
          cases printed : printAll pieces with
          | error fault =>
              rw [printed] at firstPrinted
              cases firstPrinted
          | ok rest =>
              rw [printed] at firstPrinted
              cases firstPrinted
              rw [List.cons_append, printAll_cons, inductionHypothesis printed, List.append_assoc]
              rfl

set_option maxRecDepth 2000 in
theorem sipGeneralContent_eq : sipGeneralContent = render headerLines := by decide

theorem printAll_serverFields (conf : SipConfig) :
    printAll (serverFields conf) = .ok (render (headerLines ++ serverLines conf)) := by
  have bindaddr : sipTcpBindaddr = field "tcpbindaddr" (lit "0.0.0.0") := by decide
  simp only [serverFields, printAll_cons, printAll_nil, Except.map, serverLines, render_append,
    render_setting, render_nil, sipGeneralContent_eq, bindaddr]

theorem printAll_timerFields (conf : SipConfig) :
    printAll (timerFields conf) = .ok (render (timerLines conf)) := by
  simp only [timerFields, nonzeroField_eq, printAll_cons, printAll_nil, Except.map, timerLines,
    render_append, List.append_assoc, List.append_nil]

theorem printAll_sessionFields {conf : SipConfig} (strings : PrintableStrings conf) :
    printAll (sessionFields conf) = .ok (render (sessionLines conf)) := by
  simp only [sessionFields, stringField_eq _ strings.sessionTimers,
    stringField_eq _ strings.sessionRefresher, nonzeroField_eq, printAll_cons, printAll_nil,
    Except.map, sessionLines, render_append, render_setting, render_nil, List.append_assoc]

theorem printAll_registerFields (charSigned : Bool) {conf : SipConfig}
    (strings : PrintableStrings conf) :
    printAll (registerFields (conf.stripped charSigned)) = .ok (render (registerLines conf)) := by
  rw [registerFields, registerField_stripped charSigned strings]
  simp only [SipConfig.stripped, stringField_stripped charSigned _ strings.registerUsername,
    stringField_stripped charSigned _ strings.registerSecret,
    stringField_stripped charSigned _ strings.registerHost, printAll_cons, printAll_nil,
    Except.map, registerLines, render_append, render_setting, render_nil, List.append_assoc,
    List.append_nil]

theorem printAll_accountFields (charSigned : Bool) (files : Files) {conf : SipConfig}
    (strings : PrintableStrings conf) :
    printAll (accountFields files (conf.stripped charSigned).account) =
      .ok (render (accountHeaderLines ++ (peerLines conf.account ++
        (optionLines conf.account ++ allowLines files conf.account)))) := by
  have header : lit "\n[User1]\n" ++ sipAccountContent = render accountHeaderLines := by decide
  have allow : allowFields files (conf.stripped charSigned).account =
      render (allowLines files conf.account) := allowFields_eq files _
  rw [accountFields, allow, render_append, ← header]
  simp only [SipConfig.stripped, stringField_eq _ strings.dtmfmode,
    nonemptyField_eq _ strings.insecure, nonemptyField_eq _ strings.transport,
    nonemptyField_stripped charSigned _ strings.host,
    nonemptyField_stripped charSigned _ strings.username,
    nonemptyField_stripped charSigned _ strings.secret,
    nonemptyField_stripped charSigned _ strings.callerid,
    nonemptyField_stripped charSigned _ strings.fromuser, printAll_cons, printAll_nil, Except.map,
    peerLines, optionLines, render_append, render_setting, render_nil, List.append_assoc,
    List.append_nil]

/-- A save of printable strings prints the lines of the file. -/
theorem saveText_stripped (charSigned : Bool) (files : Files) {conf : SipConfig}
    (strings : PrintableStrings conf) :
    saveText files (conf.stripped charSigned) = .ok (render (fileLines files conf)) := by
  have session : printAll (sessionFields (conf.stripped charSigned)) =
      .ok (render (sessionLines conf)) := (printAll_sessionFields strings :)
  have text := printAll_append (printAll_serverFields (conf.stripped charSigned))
    (printAll_append (printAll_timerFields (conf.stripped charSigned))
      (printAll_append session (printAll_append (printAll_registerFields charSigned strings)
        (printAll_accountFields charSigned files strings))))
  rw [saveText, text]
  simp only [fileLines, render_append, List.append_assoc]
  rfl

/-- A save of printable strings succeeds and replaces the file by its lines. -/
theorem saveConfig_eq (charSigned : Bool) {files : Files} {conf : SipConfig}
    (writable : files.writable fileSipConf = true) (strings : PrintableStrings conf) :
    saveConfig charSigned files conf =
      .ok (0, conf.stripped charSigned,
        files.write fileSipConf (render (fileLines files conf))) := by
  rw [saveConfig, if_pos writable, stripFields_eq charSigned strings]
  change (saveText files (conf.stripped charSigned) >>= _) = _
  rw [saveText_stripped charSigned files strings]
  rfl

/-! ## The lines are read back whole -/

theorem printUnsignedShort_plain (n : UInt16) : Plain (printUnsignedShort n) := by
  have lower := n.toInt16.le_toInt
  have upper := n.toInt16.toInt_lt
  exact ⟨printInt_isWord _, printInt_ne_nil _, printInt_length_le (by omega) (by omega)⟩

theorem word_wellFormed {key : String} {value : Text} (word : IsWord value)
    (short : value.length < 64)
    (keyShape : (newline ∉ lit key ∧ 0 ∉ lit key ∧ equals ∉ lit key) ∧
      (lit key).length + 66 < bufSize) : (Entry.setting (lit key) value).WellFormed bufSize :=
  .ofSetting keyShape.1 ⟨word.newline_notMem, word.nul_notMem⟩ (by omega)

theorem nonzeroLine_wellFormed {key : String} (n : Int32)
    (keyShape : (newline ∉ lit key ∧ 0 ∉ lit key ∧ equals ∉ lit key) ∧
      (lit key).length + 13 < bufSize) :
    ∀ entry ∈ nonzeroLine key n, entry.WellFormed bufSize := by
  unfold nonzeroLine
  split
  · simpa using (Plain.printShort n).wellFormed keyShape
  · simp

theorem nonemptyLine_wellFormed {key : String} {size : Nat} {array : CharArray size}
    (word : array.Word) (small : size ≤ 64)
    (keyShape : (newline ∉ lit key ∧ 0 ∉ lit key ∧ equals ∉ lit key) ∧
      (lit key).length + 66 < bufSize) :
    ∀ entry ∈ nonemptyLine key array.str, entry.WellFormed bufSize := by
  have room := word.length_lt
  unfold nonemptyLine
  split
  · simpa using word_wellFormed word.isWord (by omega) keyShape
  · simp

theorem textLines_wellFormed {key : String} {size : Nat} {array : CharArray size}
    (printable : Printable array) (small : size ≤ 64)
    (keyShape : (newline ∉ lit key ∧ 0 ∉ lit key ∧ equals ∉ lit key) ∧
      (lit key).length + 66 < bufSize) :
    ∀ entry ∈ textLines key array.str, entry.WellFormed bufSize := by
  have room := printable.bare_length_lt
  have line := word_wellFormed printable.bare_isWord (by omega) keyShape
  have emptyLine : (Entry.other []).WellFormed bufSize := by decide
  unfold textLines
  split
  · simpa using ⟨line, emptyLine⟩
  · simpa using line

theorem serverLines_wellFormed (conf : SipConfig) :
    ∀ entry ∈ serverLines conf, entry.WellFormed bufSize := by
  simp only [serverLines, List.forall_mem_cons]
  exact ⟨by decide, (printUnsignedShort_plain _).wellFormed (by decide),
    (Plain.printShort _).wellFormed (by decide), (Plain.yesNo _).wellFormed (by decide),
    by decide, by decide, (Plain.printShort _).wellFormed (by decide),
    (jbImpl_plain _).wellFormed (by decide), by simp⟩

theorem timerLines_wellFormed (conf : SipConfig) :
    ∀ entry ∈ timerLines conf, entry.WellFormed bufSize := by
  simp only [timerLines, List.forall_mem_append]
  refine ⟨⟨⟨⟨⟨?_, ?_⟩, ?_⟩, ?_⟩, ?_⟩, ?_⟩ <;> exact nonzeroLine_wellFormed _ (by decide)

theorem sessionLines_wellFormed {conf : SipConfig} (strings : PrintableStrings conf) :
    ∀ entry ∈ sessionLines conf, entry.WellFormed bufSize := by
  simp only [sessionLines, List.forall_mem_append, List.forall_mem_singleton]
  exact ⟨⟨⟨⟨textLines_wellFormed strings.sessionTimers (by decide) (by decide),
    nonzeroLine_wellFormed _ (by decide)⟩, nonzeroLine_wellFormed _ (by decide)⟩,
    textLines_wellFormed strings.sessionRefresher (by decide) (by decide)⟩,
    (Plain.yesNo _).wellFormed (by decide)⟩

theorem registerValue_isWord {conf : SipConfig} (strings : PrintableStrings conf) :
    IsWord (registerValue conf) := by
  have port := (printUnsignedShort_plain conf.account.port).isWord
  have closing : IsWord (lit "/User1") := by decide
  have colon : IsWord (lit ":") := by decide
  have opening : IsWord (lit ">") := by decide
  have slashes : IsWord (lit "://") := by decide
  have sign : IsWord (lit "@") := by decide
  exact (((((((((opening.append strings.transport.isWord).append slashes).append
    strings.registerUsername.bare_isWord).append colon).append
    strings.registerSecret.bare_isWord).append sign).append
    strings.registerHost.bare_isWord).append colon).append port).append closing

theorem registerValue_length {conf : SipConfig} (strings : PrintableStrings conf) :
    (registerValue conf).length ≤ 220 := by
  have transport := strings.transport.length_lt
  have username := strings.registerUsername.bare_length_lt
  have secret := strings.registerSecret.bare_length_lt
  have host := strings.registerHost.bare_length_lt
  have port := (printUnsignedShort_plain conf.account.port).short
  have fixed : (lit ">").length = 1 ∧ (lit "://").length = 3 ∧ (lit ":").length = 1 ∧
      (lit "@").length = 1 ∧ (lit "/User1").length = 6 := by decide
  simp only [registerValue, List.length_append, fixed]
  omega

theorem registerLines_wellFormed {conf : SipConfig} (strings : PrintableStrings conf) :
    ∀ entry ∈ registerLines conf, entry.WellFormed bufSize := by
  simp only [registerLines, List.forall_mem_append, List.forall_mem_cons]
  refine ⟨⟨word_wellFormed strings.registerUsername.bare_isWord
    strings.registerUsername.bare_length_lt (by decide),
    word_wellFormed strings.registerSecret.bare_isWord
      strings.registerSecret.bare_length_lt (by decide),
    word_wellFormed strings.registerHost.bare_isWord
      strings.registerHost.bare_length_lt (by decide), by simp⟩, ?_⟩
  split
  · have word := registerValue_isWord strings
    have length := registerValue_length strings
    have keyLength : (lit "register").length = 8 := rfl
    rw [List.forall_mem_singleton]
    exact .ofSetting (by decide) ⟨word.newline_notMem, word.nul_notMem⟩
      (by rw [keyLength, bufSize]; omega)
  · simp

theorem peerLines_wellFormed {conf : SipConfig} (strings : PrintableStrings conf) :
    ∀ entry ∈ peerLines conf.account, entry.WellFormed bufSize := by
  simp only [peerLines, List.forall_mem_append, List.forall_mem_singleton]
  exact ⟨⟨⟨⟨⟨⟨nonemptyLine_wellFormed strings.host (by decide) (by decide),
    (printUnsignedShort_plain _).wellFormed (by decide)⟩,
    nonemptyLine_wellFormed strings.username (by decide) (by decide)⟩,
    nonemptyLine_wellFormed strings.secret (by decide) (by decide)⟩,
    textLines_wellFormed strings.dtmfmode (by decide) (by decide)⟩,
    nonemptyLine_wellFormed strings.callerid (by decide) (by decide)⟩,
    nonemptyLine_wellFormed strings.fromuser (by decide) (by decide)⟩

theorem optionLines_wellFormed {conf : SipConfig} (strings : PrintableStrings conf) :
    ∀ entry ∈ optionLines conf.account, entry.WellFormed bufSize := by
  simp only [optionLines, List.forall_mem_append, List.forall_mem_cons]
  exact ⟨⟨⟨(Plain.yesNo _).wellFormed (by decide), (Plain.yesNo _).wellFormed (by decide), by simp⟩,
    nonemptyLine_wellFormed strings.insecure (by decide) (by decide)⟩,
    nonemptyLine_wellFormed strings.transport (by decide) (by decide)⟩

theorem allowValue_isWord (files : Files) (code : Int32) : IsWord (allowValue files code) := by
  have colon : IsWord (lit ":") := by decide
  exact ((getCodecName_isWord code).append colon).append (printInt_isWord _)

theorem allowValue_length (files : Files) (code : Int32) :
    (allowValue files code).length ≤ 19 := by
  have name := getCodecName_length_le code
  have interval := printInt32_length_le (getCodecPacketizationInterval files code)
  have colon : (lit ":").length = 1 := rfl
  simp only [allowValue, List.length_append, colon]
  omega

theorem allowLines_wellFormed (files : Files) (account : SipAccount) :
    ∀ entry ∈ allowLines files account, entry.WellFormed bufSize := by
  intro entry member
  obtain ⟨code, _, rfl⟩ := List.mem_map.mp member
  have length := allowValue_length files code
  exact word_wellFormed (allowValue_isWord files code) (by omega) (by decide)

theorem fileLines_wellFormed (files : Files) {conf : SipConfig} (strings : PrintableStrings conf) :
    ∀ entry ∈ fileLines files conf, entry.WellFormed bufSize := by
  have header : ∀ entry ∈ headerLines, entry.WellFormed bufSize := by decide
  have accountHeader : ∀ entry ∈ accountHeaderLines, entry.WellFormed bufSize := by decide
  simp only [fileLines, List.forall_mem_append]
  exact ⟨header, serverLines_wellFormed conf, timerLines_wellFormed conf,
    sessionLines_wellFormed strings, registerLines_wellFormed strings, accountHeader,
    peerLines_wellFormed strings, optionLines_wellFormed strings,
    allowLines_wellFormed files conf.account⟩

end Libamg.Sip
