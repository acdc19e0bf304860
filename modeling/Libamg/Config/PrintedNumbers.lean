import Libamg.C.Conversion
import Libamg.Config.Extensions
import Libamg.Config.StringFields

/-!
# The numbers in the written files

The three saves as lists of conversions. Almost all numbers are printed with `%hd`, also
those whose fields are wider than a `short` or have no sign, and `numbersExact_iff` says
for which values the files then hold the numbers of the configuration.
-/

namespace Libamg

open C Conversion

/-- `fprintf(file, "key=...\n", ...)` with one conversion. -/
def fieldOf (key : String) (conversion : Conversion) : List Conversion :=
  [.text (lit key ++ [equals]), conversion, .text [newline]]

@[simp] theorem print_fieldOf (key : String) (conversion : Conversion) :
    print (fieldOf key conversion) = field key conversion.bytes := by
  simp only [fieldOf, print_cons, print_nil, Conversion.bytes, field, List.append_nil,
    List.append_assoc, List.singleton_append]

@[simp] theorem allDenote_fieldOf (key : String) (conversion : Conversion) :
    AllDenote (fieldOf key conversion) ↔ conversion.Fits := by
  simp only [fieldOf, allDenote_cons, allDenote_nil, fits_text, true_and, and_true]

/-- A 16-bit number. -/
theorem fits_short_iff (n : Int32) : (Conversion.short n).Fits ↔ IsShort n := by
  have bottom : (-32768 : Int32).toInt = -32768 := rfl
  have top : (32767 : Int32).toInt = 32767 := rfl
  rw [Conversion.Fits, IsShort, Int32.le_iff_toInt_le, Int32.le_iff_toInt_le, bottom, top]
  omega

/-! ## comcerto.conf -/

namespace Comcerto

/-- The calls of `fprintf` in `libamg_comcerto_save_config`. -/
def conversions (conf : ComcertoConfig) : List Conversion := List.flatten
  [[.text (lit "[general]\n")],
    fieldOf "debug" (.int conf.debug),
    fieldOf "ais_enable" (.text (yesNo conf.aisEnable)),
    fieldOf "vad_enable" (.text (yesNo conf.vadEnable)),
    fieldOf "vad_level" (.short conf.vadLevel),
    fieldOf "cng_enable" (.text (yesNo conf.cngEnable)),
    fieldOf "echocancel_enable" (.text (yesNo conf.echocanEnable)),
    fieldOf "ectail" (.short conf.ectail),
    fieldOf "e1_enable" (.text (yesNo conf.e1Enable)),
    fieldOf "e1_loopback_enable" (.text (yesNo conf.e1LoopbackEnable)),
    fieldOf "mfcr2_tone_amp" (.int conf.mfcr2ToneAmp),
    fieldOf "jbenable" (.text (lit "yes")),
    fieldOf "jbmaxsize" (.short conf.jbConf.jbMaxsize),
    fieldOf "jbimpl" (.text (choose conf.jbConf.jbImpl "adaptive" "fixed")),
    fieldOf "jbmindelay" (.short conf.jbConf.jbMindelay),
    fieldOf "jbtypdelay" (.short conf.jbConf.jbTypdelay),
    fieldOf "jbmaxdelay" (.short conf.jbConf.jbMaxdelay),
    fieldOf "jbdelet_thrld" (.short conf.jbConf.jbDeletThrld),
    fieldOf "txgain" (.short conf.txgain),
    fieldOf "rxgain" (.short conf.rxgain),
    fieldOf "codec_g723_1" (.text (choose conf.codecG723_1 "6.3kbps" "5.3kbps")),
    (if conf.passThrough ≠ 0 then
      fieldOf "pass_through" (.text (printName (getCodecPassthroughName conf.passThrough)))
    else []),
    fieldOf "codec_intvl_g711_a" (.short conf.codecsIntvl.g711_a),
    fieldOf "codec_intvl_g711_u" (.short conf.codecsIntvl.g711_u),
    fieldOf "codec_intvl_g723_1" (.short conf.codecsIntvl.g723_1),
    fieldOf "codec_intvl_g726_16" (.short conf.codecsIntvl.g726_16),
    fieldOf "codec_intvl_g726_24" (.short conf.codecsIntvl.g726_24),
    fieldOf "codec_intvl_g726_32" (.short conf.codecsIntvl.g726_32),
    fieldOf "codec_intvl_g726_40" (.short conf.codecsIntvl.g726_40),
    fieldOf "codec_intvl_g729" (.short conf.codecsIntvl.g729),
    fieldOf "codec_intvl_gsm" (.short conf.codecsIntvl.gsm)]

/-- The fields that `%hd` prints. -/
def shortFields (conf : ComcertoConfig) : List Int32 :=
  [conf.vadLevel, conf.ectail, conf.jbConf.jbMaxsize, conf.jbConf.jbMindelay,
    conf.jbConf.jbTypdelay, conf.jbConf.jbMaxdelay, conf.jbConf.jbDeletThrld, conf.txgain,
    conf.rxgain, conf.codecsIntvl.g711_a, conf.codecsIntvl.g711_u, conf.codecsIntvl.g723_1,
    conf.codecsIntvl.g726_16, conf.codecsIntvl.g726_24, conf.codecsIntvl.g726_32,
    conf.codecsIntvl.g726_40, conf.codecsIntvl.g729, conf.codecsIntvl.gsm]

theorem saveText_eq_print (conf : ComcertoConfig) : saveText conf = print (conversions conf) := by
  have passThrough : print (if conf.passThrough ≠ 0 then
      fieldOf "pass_through" (.text (printName (getCodecPassthroughName conf.passThrough)))
      else []) = if conf.passThrough ≠ 0 then
        field "pass_through" (printName (getCodecPassthroughName conf.passThrough)) else [] := by
    split
    · exact print_fieldOf _ _
    · rfl
  simp only [saveText, conversions, List.flatten_cons, List.flatten_nil, print_append, print_cons,
    print_nil, print_fieldOf, passThrough, Conversion.bytes, List.append_nil]

theorem allDenote_conversions (conf : ComcertoConfig) :
    AllDenote (conversions conf) ↔ ∀ n ∈ shortFields conf, IsShort n := by
  have passThrough : AllDenote (if conf.passThrough ≠ 0 then
      fieldOf "pass_through" (.text (printName (getCodecPassthroughName conf.passThrough)))
      else []) ↔ True := by
    split
    · exact allDenote_fieldOf _ _
    · exact allDenote_nil
  simp only [conversions, shortFields, List.flatten_cons, List.flatten_nil, allDenote_append,
    allDenote_cons, allDenote_nil, allDenote_fieldOf, passThrough, fits_short_iff, fits_text,
    fits_int, List.forall_mem_cons, List.not_mem_nil, IsEmpty.forall_iff, implies_true,
    true_and, and_true]

end Comcerto

/-! ## extensions.conf -/

namespace Extensions

/-- The calls of `fprintf` in `libamg_extensions_save_config`. -/
def conversions (conf : ExtensionsConfig) : List Conversion :=
  [.text extensionsGeneralContent, .text extensionsGlobalsContent] ++
  (if conf.prefixEnable ≠ 0 then
    [.text (extensionsGlobalsPrefix ++ lit "="), .short conf.dialPrefix, .text (lit "\n")]
  else []) ++
  [.text extensionsAccountFromSpan1Content,
    .text (if conf.prefixEnable ≠ 0 then extensionsAccountFromSpan1DialPrefix
      else extensionsAccountFromSpan1DialStand),
    .text extensionsAccountNopContent, .text extensionsAccountFromSipContent]

theorem saveText_eq_print (conf : ExtensionsConfig) :
    saveText conf = print (conversions conf) := by
  unfold saveText conversions
  split
  · simp only [print_append, print_cons, print_nil, Conversion.bytes, List.append_assoc,
      List.append_nil]
  · simp only [print_append, print_cons, print_nil, Conversion.bytes, List.append_assoc,
      List.append_nil]

theorem allDenote_conversions (conf : ExtensionsConfig) :
    AllDenote (conversions conf) ↔ (conf.prefixEnable ≠ 0 → IsShort conf.dialPrefix) := by
  unfold conversions
  split
  · rename_i enabled
    simp only [allDenote_append, allDenote_cons, allDenote_nil, fits_text, true_and,
      and_true, ← fits_short_iff, enabled, forall_const, ne_eq, not_false_eq_true]
  · rename_i disabled
    simp only [allDenote_append, allDenote_cons, allDenote_nil, fits_text, true_and,
      disabled, false_implies]

end Extensions

/-! ## sip.conf -/

namespace Sip

/-- `if (n) fprintf(file, "key=%hd\n", n)`. -/
def whenNonzero (key : String) (n : Int32) : List Conversion :=
  if n ≠ 0 then fieldOf key (.short n) else []

/-- `if (strlen(str) > 0) fprintf(file, "key=%s\n", str)`. -/
def whenNonempty (key : String) (str : Text) : List Conversion :=
  if str ≠ [] then fieldOf key (.text str) else []

def serverConversions (conf : SipConfig) : List (List Conversion) :=
  [[.text sipGeneralContent],
    fieldOf "useragent" (.text (lit "Parks-AMG")),
    fieldOf "bindport" (.unsignedShort conf.bindport),
    fieldOf "defaultexpiry" (.short conf.defaultexpiry),
    fieldOf "tcpenable" (.text (yesNo conf.tcpenable)),
    [.text sipTcpBindaddr],
    fieldOf "jbenable" (.text (lit "yes")),
    fieldOf "jbmaxsize" (.short conf.jbConf.jbMaxsize),
    fieldOf "jbimpl" (.text (choose conf.jbConf.jbImpl "adaptive" "fixed"))]

def timerConversions (conf : SipConfig) : List (List Conversion) :=
  [whenNonzero "t1min" conf.t1min,
    whenNonzero "timert1" conf.timert1,
    whenNonzero "timerb" conf.timerb,
    whenNonzero "rtptimeout" conf.rtptimeout,
    whenNonzero "rtpholdtimeout" conf.rtpholdtimeout,
    whenNonzero "rtpkeepalive" conf.rtpkeepalive]

def sessionConversions (conf : SipConfig) : List (List Conversion) :=
  [fieldOf "session-timers" (.text conf.sessionTimers.str),
    whenNonzero "session-expires" conf.sessionExpires,
    whenNonzero "session-minse" conf.sessionMinse,
    fieldOf "session-refresher" (.text conf.sessionRefresher.str),
    fieldOf "autoframing" (.text (yesNo conf.autoframing))]

/-- The registration line. -/
def registration (conf : SipConfig) : List Conversion :=
  let username := conf.registerUsername.str
  let secret := conf.registerSecret.str
  let host := conf.registerHost.str
  if conf.registerEnable ≠ 0 ∧ username ≠ [] ∧ secret ≠ [] ∧ host ≠ [] then
    [.text (lit "register" ++ equals :: (lit ">" ++ conf.account.transport.str ++ lit "://" ++
        username ++ lit ":" ++ secret ++ lit "@" ++ host ++ lit ":")),
      .unsignedShort conf.account.port, .text (lit "/User1" ++ [newline])]
  else []

def registerConversions (conf : SipConfig) : List (List Conversion) :=
  [fieldOf ";reg_username" (.text conf.registerUsername.str),
    fieldOf ";reg_secret" (.text conf.registerSecret.str),
    fieldOf ";reg_host" (.text conf.registerHost.str),
    registration conf]

/-- The `allow` lines. -/
def allowances (files : Files) (account : SipAccount) : List Conversion :=
  account.allow.toList.flatMap fun code =>
    if code ≤ 0 then []
    else [.text (lit "allow" ++ equals :: (printName (getCodecName code) ++ lit ":")),
      .int (Comcerto.getCodecPacketizationInterval files code), .text [newline]]

def accountConversions (files : Files) (account : SipAccount) : List (List Conversion) :=
  [[.text (lit "\n[User1]\n")],
    [.text sipAccountContent],
    whenNonempty "host" account.host.str,
    fieldOf "port" (.unsignedShort account.port),
    whenNonempty "username" account.username.str,
    whenNonempty "secret" account.secret.str,
    fieldOf "dtmfmode" (.text account.dtmfmode.str),
    whenNonempty "callerid" account.callerid.str,
    whenNonempty "fromuser" account.fromuser.str,
    fieldOf "nat" (.text (yesNo account.nat)),
    fieldOf "qualify" (.text (yesNo account.qualify)),
    whenNonempty "insecure" account.insecure.str,
    whenNonempty "transport" account.transport.str,
    allowances files account]

/-- The calls of `fprintf` in `libamg_sip_save_config`, for a stripped configuration. -/
def conversions (files : Files) (conf : SipConfig) : List Conversion :=
  (serverConversions conf ++ (timerConversions conf ++ (sessionConversions conf ++
    (registerConversions conf ++ accountConversions files conf.account)))).flatten

/-! ### The text they print -/

theorem stripFields_terminated (charSigned : Bool) {conf : SipConfig}
    (strings : TerminatedFields conf) :
    stripFields charSigned conf = .ok (conf.stripped charSigned) := by
  rw [stripFields, Str.striplfField_eq charSigned strings.registerUsername,
    Str.striplfField_eq charSigned strings.registerSecret,
    Str.striplfField_eq charSigned strings.registerHost,
    Str.striplfField_eq charSigned strings.host,
    Str.striplfField_eq charSigned strings.username,
    Str.striplfField_eq charSigned strings.secret,
    Str.striplfField_eq charSigned strings.callerid,
    Str.striplfField_eq charSigned strings.fromuser]
  rfl

theorem TerminatedFields.stripped (charSigned : Bool) {conf : SipConfig}
    (strings : TerminatedFields conf) : TerminatedFields (conf.stripped charSigned) := { strings with
  registerUsername := Str.stripArray_terminated charSigned strings.registerUsername
  registerSecret := Str.stripArray_terminated charSigned strings.registerSecret
  registerHost := Str.stripArray_terminated charSigned strings.registerHost
  host := Str.stripArray_terminated charSigned strings.host
  username := Str.stripArray_terminated charSigned strings.username
  secret := Str.stripArray_terminated charSigned strings.secret
  callerid := Str.stripArray_terminated charSigned strings.callerid
  fromuser := Str.stripArray_terminated charSigned strings.fromuser }

/-- Each group of conversions as one printed piece. -/
def pieces (groups : List (List Conversion)) : List (Checked Text) :=
  groups.map fun group => .ok (print group)

@[simp] theorem pieces_nil : pieces [] = [] := rfl

@[simp] theorem pieces_cons (group : List Conversion) (groups : List (List Conversion)) :
    pieces (group :: groups) = .ok (print group) :: pieces groups := rfl

theorem printAll_pieces (groups : List (List Conversion)) :
    printAll (pieces groups) = .ok (print groups.flatten) := by
  induction groups with
  | nil => rfl
  | cons group groups inductionHypothesis =>
      rw [pieces_cons, printAll_cons, inductionHypothesis, List.flatten_cons, print_append]
      rfl

section Pieces

variable {size : Nat} {array : CharArray size} {conf : SipConfig}

theorem stringField_terminated (key : String) (terminated : array.Terminated) :
    stringField key array = .ok (print (fieldOf key (.text array.str))) := by
  rw [stringField, CharArray.read_eq_str terminated, print_fieldOf]
  rfl

theorem print_whenNonempty (key : String) (str : Text) :
    print (whenNonempty key str) = if str ≠ [] then field key str else [] := by
  unfold whenNonempty
  split
  · exact print_fieldOf _ _
  · rfl

theorem nonemptyField_terminated (key : String) (terminated : array.Terminated) :
    nonemptyField key array = .ok (print (whenNonempty key array.str)) := by
  rw [nonemptyField, CharArray.read_eq_str terminated, print_whenNonempty]
  rfl

theorem print_whenNonzero (key : String) (n : Int32) :
    print (whenNonzero key n) = nonzeroField key n := by
  unfold whenNonzero nonzeroField
  split
  · exact print_fieldOf _ _
  · rfl

theorem registerField_terminated (strings : TerminatedFields conf) :
    registerField conf = .ok (print (registration conf)) := by
  rw [registerField, CharArray.read_eq_str strings.registerUsername,
    CharArray.read_eq_str strings.registerSecret, CharArray.read_eq_str strings.registerHost,
    CharArray.read_eq_str strings.transport]
  simp only [Checked.ok_bind, registration]
  split
  · simp only [print_cons, print_nil, Conversion.bytes, field, printUnsignedShort, List.append_nil,
      List.append_assoc, List.cons_append]
    rfl
  · rfl

theorem print_allowances (files : Files) (account : SipAccount) :
    print (allowances files account) = allowFields files account := by
  rw [print, allowances, allowFields, List.flatMap_assoc]
  refine List.flatMap_congr fun code listed => ?_
  split
  · rfl
  · rw [← print]
    simp only [print_cons, print_nil, Conversion.bytes, field, allowValue, List.append_nil,
      List.append_assoc, List.cons_append]

theorem serverFields_eq_pieces (conf : SipConfig) :
    serverFields conf = pieces (serverConversions conf) := by
  simp only [serverFields, serverConversions, pieces_cons, pieces_nil, print_cons, print_nil,
    print_fieldOf, Conversion.bytes, List.append_nil]
  rfl

theorem timerFields_eq_pieces (conf : SipConfig) :
    timerFields conf = pieces (timerConversions conf) := by
  simp only [timerFields, timerConversions, pieces_cons, pieces_nil, print_whenNonzero]

theorem sessionFields_eq_pieces (strings : TerminatedFields conf) :
    sessionFields conf = pieces (sessionConversions conf) := by
  simp only [sessionFields, sessionConversions, pieces_cons, pieces_nil, print_whenNonzero,
    stringField_terminated _ strings.sessionTimers,
    stringField_terminated _ strings.sessionRefresher, print_fieldOf, Conversion.bytes]

theorem registerFields_eq_pieces (strings : TerminatedFields conf) :
    registerFields conf = pieces (registerConversions conf) := by
  simp only [registerFields, registerConversions, pieces_cons, pieces_nil,
    stringField_terminated _ strings.registerUsername,
    stringField_terminated _ strings.registerSecret,
    stringField_terminated _ strings.registerHost, registerField_terminated strings]

theorem accountFields_eq_pieces (files : Files) (strings : TerminatedFields conf) :
    accountFields files conf.account = pieces (accountConversions files conf.account) := by
  simp only [accountFields, accountConversions, pieces_cons, pieces_nil, print_cons, print_nil,
    nonemptyField_terminated _ strings.host, nonemptyField_terminated _ strings.username,
    nonemptyField_terminated _ strings.secret, stringField_terminated _ strings.dtmfmode,
    nonemptyField_terminated _ strings.callerid, nonemptyField_terminated _ strings.fromuser,
    nonemptyField_terminated _ strings.insecure, nonemptyField_terminated _ strings.transport,
    print_fieldOf, print_allowances, Conversion.bytes, List.append_nil]
  rfl

theorem saveText_terminated (files : Files) (strings : TerminatedFields conf) :
    saveText files conf = .ok (print (conversions files conf)) := by
  rw [saveText, serverFields_eq_pieces, timerFields_eq_pieces, sessionFields_eq_pieces strings,
    registerFields_eq_pieces strings, accountFields_eq_pieces files strings, conversions,
    ← printAll_pieces]
  simp only [pieces, List.map_append]

end Pieces

/-! ### The numbers they mean -/

/-- The `int` fields that `%hd` prints. -/
def shortFields (conf : SipConfig) : List Int32 :=
  [conf.defaultexpiry, conf.jbConf.jbMaxsize, conf.t1min, conf.timert1, conf.timerb,
    conf.rtptimeout, conf.rtpholdtimeout, conf.rtpkeepalive, conf.sessionExpires,
    conf.sessionMinse]

/-- The `unsigned short` fields that `%hd` prints. -/
def portFields (conf : SipConfig) : List UInt16 := [conf.bindport, conf.account.port]

theorem fits_unsignedShort_iff (n : UInt16) : (Conversion.unsignedShort n).Fits ↔ n ≤ 32767 := by
  have top : (32767 : UInt16).toNat = 32767 := rfl
  rw [Conversion.Fits, UInt16.le_iff_toNat_le, top]
  omega

theorem allDenote_whenNonzero (key : String) (n : Int32) :
    AllDenote (whenNonzero key n) ↔ IsShort n := by
  unfold whenNonzero
  split
  · rw [allDenote_fieldOf, fits_short_iff]
  · rename_i zero
    rw [not_ne_iff.mp zero]
    exact iff_of_true (allDenote_nil.mpr trivial) (by decide)

theorem allDenote_whenNonempty (key : String) (str : Text) :
    AllDenote (whenNonempty key str) ↔ True := by
  unfold whenNonempty
  split
  · rw [allDenote_fieldOf, fits_text]
  · exact allDenote_nil

/-- The port of the registration line is the one of the account. -/
theorem allDenote_registration (conf : SipConfig) (fits : conf.account.port ≤ 32767) :
    AllDenote (registration conf) := by
  simp only [registration]
  split
  · simp only [allDenote_cons, allDenote_nil, fits_text, fits_unsignedShort_iff, fits, and_self]
  · exact allDenote_nil.mpr trivial

theorem allDenote_allowances (files : Files) (account : SipAccount) :
    AllDenote (allowances files account) ↔ True := by
  refine iff_true_intro fun conversion printed => ?_
  obtain ⟨code, -, printed⟩ := List.mem_flatMap.mp printed
  split at printed
  · cases printed
  · have line : AllDenote [.text (lit "allow" ++ equals :: (printName (getCodecName code) ++ lit ":")),
        .int (Comcerto.getCodecPacketizationInterval files code), .text [newline]] := by
      simp only [allDenote_cons, allDenote_nil, fits_text, fits_int, and_self]
    exact line conversion printed

theorem allDenote_conversions (files : Files) (conf : SipConfig) :
    AllDenote (conversions files conf) ↔
      (∀ n ∈ shortFields conf, IsShort n) ∧ ∀ port ∈ portFields conf, port ≤ 32767 := by
  have registered : AllDenote (registration conf) ∧ conf.account.port ≤ 32767 ↔
      conf.account.port ≤ 32767 := and_iff_right_of_imp (allDenote_registration conf)
  simp only [conversions, serverConversions, timerConversions, sessionConversions,
    registerConversions, accountConversions, shortFields, portFields, List.cons_append,
    List.nil_append, List.flatten_cons, List.flatten_nil, allDenote_append, allDenote_cons,
    allDenote_nil, allDenote_fieldOf, allDenote_whenNonzero, allDenote_whenNonempty,
    allDenote_allowances, fits_text, fits_short_iff, fits_unsignedShort_iff, registered,
    List.forall_mem_cons, List.not_mem_nil, IsEmpty.forall_iff, implies_true, true_and, and_true]
  tauto

end Sip

/-! ## All three -/

/-- The three saves print what their lists of conversions say, every number being that of
its field. The strings of a SIP configuration are those that the save has stripped. -/
structure NumbersExact (charSigned : Bool) (files : Files) (sip : Sip.SipConfig)
    (comcerto : Comcerto.ComcertoConfig) (extensions : Extensions.ExtensionsConfig) : Prop where
  sipText : Sip.TerminatedFields sip →
    (Sip.stripFields charSigned sip >>= Sip.saveText files) =
      .ok (print (Sip.conversions files (sip.stripped charSigned)))
  sipNumbers : AllDenote (Sip.conversions files (sip.stripped charSigned))
  comcertoText : Comcerto.saveText comcerto = print (Comcerto.conversions comcerto)
  comcertoNumbers : AllDenote (Comcerto.conversions comcerto)
  extensionsText : Extensions.saveText extensions = print (Extensions.conversions extensions)
  extensionsNumbers : AllDenote (Extensions.conversions extensions)

/-- The fields printed with `%hd` hold numbers that a `short` can hold. -/
structure NumbersShort (sip : Sip.SipConfig) (comcerto : Comcerto.ComcertoConfig)
    (extensions : Extensions.ExtensionsConfig) : Prop where
  sipShorts : ∀ n ∈ Sip.shortFields sip, IsShort n
  sipPorts : ∀ port ∈ Sip.portFields sip, port ≤ 32767
  comcertoShorts : ∀ n ∈ Comcerto.shortFields comcerto, IsShort n
  dialPrefix : extensions.prefixEnable ≠ 0 → IsShort extensions.dialPrefix

/-- The written numbers are the configured ones exactly if each fits its conversion. -/
theorem numbersExact_iff (charSigned : Bool) (files : Files) (sip : Sip.SipConfig)
    (comcerto : Comcerto.ComcertoConfig) (extensions : Extensions.ExtensionsConfig) :
    NumbersExact charSigned files sip comcerto extensions ↔
      NumbersShort sip comcerto extensions := by
  have sipDenote := Sip.allDenote_conversions files (sip.stripped charSigned)
  constructor
  · intro denote
    obtain ⟨shorts, ports⟩ := sipDenote.mp denote.sipNumbers
    exact {
      sipShorts := shorts
      sipPorts := ports
      comcertoShorts := (Comcerto.allDenote_conversions comcerto).mp denote.comcertoNumbers
      dialPrefix := (Extensions.allDenote_conversions extensions).mp denote.extensionsNumbers }
  · intro short
    exact {
      sipText := fun strings => by
        rw [Sip.stripFields_terminated charSigned strings, Checked.ok_bind]
        exact Sip.saveText_terminated files (strings.stripped charSigned)
      sipNumbers := sipDenote.mpr ⟨short.sipShorts, short.sipPorts⟩
      comcertoText := Comcerto.saveText_eq_print comcerto
      comcertoNumbers := (Comcerto.allDenote_conversions comcerto).mpr short.comcertoShorts
      extensionsText := Extensions.saveText_eq_print extensions
      extensionsNumbers := (Extensions.allDenote_conversions extensions).mpr short.dialPrefix }

/-- A SIP configuration on a port above 32767. -/
def highPort : Sip.SipConfig := { Sip.SipConfig.zero with bindport := 40000 }

/-- It is printed as a negative number. -/
theorem highPort_negative :
    strtol (Conversion.unsignedShort highPort.bindport).bytes = -25536 ∧
      ¬ NumbersExact true Files.empty highPort .zero ⟨0, 0⟩ := by
  refine ⟨(strtol_printInt_self _).trans (by decide), fun denote => ?_⟩
  have ports := ((Sip.allDenote_conversions _ _).mp denote.sipNumbers).2
  have bindport : highPort.bindport ≤ 32767 := ports highPort.bindport List.mem_cons_self
  exact absurd bindport (by decide)

end Libamg
