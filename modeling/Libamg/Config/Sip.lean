import Libamg.C.Memory
import Libamg.Config.Comcerto
import Libamg.Str

/-!
# sip.conf

The SIP configuration of `sip.c`: the structure, the parser and the printer. The
parser stores each `allow` line at the next index of a nine-element array; a store
behind the array is a fault. The printer reads `char` arrays as strings, which is
a fault for an array without a NUL, and asks `comcerto.conf` for the packetization
interval of each codec it prints.
-/

namespace Libamg.Sip

open C Comcerto

def fileSipConf : Path := "/etc/asterisk/sip.conf"

/-- `BUF_SIZE` of `sip.c`. -/
def bufSize : Nat := 256

def numAvailableCodecs : Nat := 9

def sipGeneralContent : Text := lit
  "[general]\ncontext=from-sip\nsdpsession=SIP Call\nsdpowner=ParksSIP-MG\ndisallow=all\nsrvlookup=yes\nbindaddr=0.0.0.0\nengine=comcerto\n"

def sipAccountContent : Text := lit "#include sip_account_custom.conf\ntype=friend\n"

def sipTcpBindaddr : Text := lit "tcpbindaddr=0.0.0.0\n"

/-- `struct libamg_sip_account`. -/
structure SipAccount where
  nat : Int32
  qualify : Int32
  callerid : CharArray 64
  fromuser : CharArray 64
  insecure : CharArray 32
  username : CharArray 64
  secret : CharArray 64
  host : CharArray 64
  transport : CharArray 8
  port : UInt16
  dtmfmode : CharArray 32
  allow : Vector Int32 9
deriving DecidableEq

/-- `struct libamg_sip_config`; `account` is its only account, `accounts[0]`. -/
structure SipConfig where
  bindport : UInt16
  tcpenable : Int32
  t1min : Int32
  timert1 : Int32
  timerb : Int32
  rtptimeout : Int32
  rtpholdtimeout : Int32
  rtpkeepalive : Int32
  sessionTimers : CharArray 16
  sessionExpires : Int32
  sessionMinse : Int32
  sessionRefresher : CharArray 8
  defaultexpiry : Int32
  registerEnable : Int32
  autoframing : Int32
  jbConf : JbConfig
  registerUsername : CharArray 64
  registerSecret : CharArray 64
  registerHost : CharArray 64
  account : SipAccount
deriving DecidableEq

/-- The account cleared by `memset`. -/
def SipAccount.zero : SipAccount where
  nat := 0
  qualify := 0
  callerid := .zero 64
  fromuser := .zero 64
  insecure := .zero 32
  username := .zero 64
  secret := .zero 64
  host := .zero 64
  transport := .zero 8
  port := 0
  dtmfmode := .zero 32
  allow := .replicate 9 0

/-- The structure cleared by `memset`. -/
def SipConfig.zero : SipConfig where
  bindport := 0
  tcpenable := 0
  t1min := 0
  timert1 := 0
  timerb := 0
  rtptimeout := 0
  rtpholdtimeout := 0
  rtpkeepalive := 0
  sessionTimers := .zero 16
  sessionExpires := 0
  sessionMinse := 0
  sessionRefresher := .zero 8
  defaultexpiry := 0
  registerEnable := 0
  autoframing := 0
  jbConf := .zero
  registerUsername := .zero 64
  registerSecret := .zero 64
  registerHost := .zero 64
  account := .zero

/-- An `int` assigned to an `unsigned short`. -/
def toUnsignedShort (n : Int32) : UInt16 := n.toInt16.toUInt16

/-- `%hd` of an `unsigned short` argument: the same 16 bits as a signed number. -/
def printUnsignedShort (n : UInt16) : Text := printInt n.toInt16.toInt

/-- The state of the parsing loop. -/
structure ParseState where
  conf : SipConfig
  posCodecs : Nat

/-- An `allow` line: the index is checked against the number of codecs with `>`,
so one index behind the array passes. -/
def storeCodec (code : Int32) (state : ParseState) : Checked ParseState :=
  if state.posCodecs > numAvailableCodecs then .ok state
  else if inside : state.posCodecs < 9 then
    .ok { state with
      conf.account.allow := state.conf.account.allow.set state.posCodecs code inside
      posCodecs := state.posCodecs + 1 }
  else .error .outOfBounds

/-- What one `key=value` line does. -/
def applySetting (charSigned : Bool) (key value : Text) (state : ParseState) :
    Checked ParseState :=
  -- General section
  if key = lit "bindport" then
    .ok { state with conf.bindport := toUnsignedShort (atoi value) }
  else if key = lit "defaultexpiry" then .ok { state with conf.defaultexpiry := atoi value }
  else if key = lit "tcpenable" then .ok { state with conf.tcpenable := sameText value "yes" }
  else if key = lit "jbenable" then
    .ok { state with conf.jbConf.jbEnable := sameText value "yes" }
  else if key = lit "jbmaxsize" then .ok { state with conf.jbConf.jbMaxsize := atoi value }
  else if key = lit "jbimpl" then
    .ok { state with conf.jbConf.jbImpl := sameText value "adaptive" }
  else if key = lit "t1min" then .ok { state with conf.t1min := atoi value }
  else if key = lit "timert1" then .ok { state with conf.timert1 := atoi value }
  else if key = lit "timerb" then .ok { state with conf.timerb := atoi value }
  else if key = lit "rtptimeout" then .ok { state with conf.rtptimeout := atoi value }
  else if key = lit "rtpholdtimeout" then .ok { state with conf.rtpholdtimeout := atoi value }
  else if key = lit "rtpkeepalive" then .ok { state with conf.rtpkeepalive := atoi value }
  else if key = lit "session-timers" then
    .ok { state with conf.sessionTimers := state.conf.sessionTimers.strncpy value 16 }
  -- Both session numbers are stored as the default expiry
  else if key = lit "session-expires" then .ok { state with conf.defaultexpiry := atoi value }
  else if key = lit "session-minse" then .ok { state with conf.defaultexpiry := atoi value }
  else if key = lit "session-refresher" then
    .ok { state with conf.sessionRefresher := state.conf.sessionRefresher.strncpy value 8 }
  else if key = lit "register" then .ok { state with conf.registerEnable := 1 }
  else if key = lit ";reg_username" then
    .ok { state with conf.registerUsername := state.conf.registerUsername.strncpy value 63 }
  else if key = lit ";reg_secret" then
    .ok { state with conf.registerSecret := state.conf.registerSecret.strncpy value 63 }
  else if key = lit ";reg_host" then
    .ok { state with conf.registerHost := state.conf.registerHost.strncpy value 63 }
  -- Account section
  else if key = lit "host" then
    .ok { state with conf.account.host := state.conf.account.host.strncpy value 63 }
  else if key = lit "port" then
    .ok { state with conf.account.port := toUnsignedShort (atoi value) }
  else if key = lit "username" then
    .ok { state with conf.account.username := state.conf.account.username.strncpy value 63 }
  else if key = lit "secret" then
    .ok { state with conf.account.secret := state.conf.account.secret.strncpy value 63 }
  else if key = lit "dtmfmode" then
    .ok { state with conf.account.dtmfmode := state.conf.account.dtmfmode.strncpy value 31 }
  else if key = lit "nat" then .ok { state with conf.account.nat := sameText value "yes" }
  else if key = lit "qualify" then .ok { state with conf.account.qualify := sameText value "yes" }
  else if key = lit "insecure" then
    .ok { state with conf.account.insecure := state.conf.account.insecure.strncpy value 31 }
  else if key = lit "callerid" then
    .ok { state with conf.account.callerid := state.conf.account.callerid.strncpy value 63 }
  else if key = lit "fromuser" then
    .ok { state with
      conf.account.fromuser :=
        state.conf.account.fromuser.strncpy (Str.striplf charSigned value) 63 }
  else if key = lit "transport" then
    .ok { state with conf.account.transport := state.conf.account.transport.strncpy value 7 }
  else if key = lit "allow" then storeCodec (getCodecCode value) state
  else .ok state

/-- One turn of the parsing loop. -/
def parseStep (charSigned : Bool) (key value : Text) (state : Checked ParseState) :
    Checked ParseState := state >>= applySetting charSigned key value

/-- `libamg_sip_parse_config`; `none` is the NULL it returns when the file cannot
be opened. -/
def parseConfig (charSigned : Bool) (files : Files) : Checked (Option SipConfig) :=
  match files.openRead fileSipConf with
  | none => .ok none
  | some text => do
      let state ← parseLines bufSize cropDelimiters (parseStep charSigned)
        (.ok { conf := .zero, posCodecs := 0 }) text
      return some state.conf

/-- The eight calls of `libamg_str_striplf` that a save makes on the structure it
is given. Each of these fields is printed only after it was stripped. -/
def stripFields (charSigned : Bool) (conf : SipConfig) : Checked SipConfig := do
  let registerUsername ← Str.striplfField charSigned conf.registerUsername
  let registerSecret ← Str.striplfField charSigned conf.registerSecret
  let registerHost ← Str.striplfField charSigned conf.registerHost
  let host ← Str.striplfField charSigned conf.account.host
  let username ← Str.striplfField charSigned conf.account.username
  let secret ← Str.striplfField charSigned conf.account.secret
  let callerid ← Str.striplfField charSigned conf.account.callerid
  let fromuser ← Str.striplfField charSigned conf.account.fromuser
  return { conf with
    registerUsername := registerUsername
    registerSecret := registerSecret
    registerHost := registerHost
    account := { conf.account with
      host := host
      username := username
      secret := secret
      callerid := callerid
      fromuser := fromuser } }

/-- `fprintf(file, "key=%s\n", array)`. -/
def stringField {size : Nat} (key : String) (array : CharArray size) : Checked Text := do
  let str ← array.read
  return field key str

/-- The same behind `if (strlen(array) > 0)`. -/
def nonemptyField {size : Nat} (key : String) (array : CharArray size) : Checked Text := do
  let str ← array.read
  return if str ≠ [] then field key str else []

/-- `if (n) fprintf(file, "key=%hd\n", n)`. -/
def nonzeroField (key : String) (n : Int32) : Text :=
  if n ≠ 0 then field key (printShort n) else []

/-- The registration line, printed when registration is on and complete. -/
def registerField (conf : SipConfig) : Checked Text := do
  let username ← conf.registerUsername.read
  let secret ← conf.registerSecret.read
  let host ← conf.registerHost.read
  if conf.registerEnable ≠ 0 ∧ username ≠ [] ∧ secret ≠ [] ∧ host ≠ [] then do
    let transport ← conf.account.transport.read
    return field "register" (lit ">" ++ transport ++ lit "://" ++ username ++ lit ":" ++ secret ++
      lit "@" ++ host ++ lit ":" ++ printUnsignedShort conf.account.port ++ lit "/User1")
  else return []

/-- The value of an `allow` line. -/
def allowValue (files : Files) (code : Int32) : Text :=
  printName (getCodecName code) ++ lit ":" ++
    printInt (getCodecPacketizationInterval files code).toInt

/-- The `allow` lines: one for each positive entry of the array. -/
def allowFields (files : Files) (account : SipAccount) : Text :=
  account.allow.toList.flatMap fun code =>
    if code ≤ 0 then [] else field "allow" (allowValue files code)

/-- Print pieces one after the other. -/
def printAll : List (Checked Text) → Checked Text
  | [] => .ok []
  | piece :: pieces => do
      let text ← piece
      let rest ← printAll pieces
      return text ++ rest

/-! The pieces that `libamg_sip_save_config` prints, section by section. -/

def serverFields (conf : SipConfig) : List (Checked Text) :=
  [.ok sipGeneralContent,
    .ok (field "useragent" (lit "Parks-AMG")),
    .ok (field "bindport" (printUnsignedShort conf.bindport)),
    .ok (field "defaultexpiry" (printShort conf.defaultexpiry)),
    .ok (field "tcpenable" (yesNo conf.tcpenable)),
    .ok sipTcpBindaddr,
    -- Jitter buffer, always on
    .ok (field "jbenable" (lit "yes")),
    .ok (field "jbmaxsize" (printShort conf.jbConf.jbMaxsize)),
    .ok (field "jbimpl" (choose conf.jbConf.jbImpl "adaptive" "fixed"))]

def timerFields (conf : SipConfig) : List (Checked Text) :=
  [.ok (nonzeroField "t1min" conf.t1min),
    .ok (nonzeroField "timert1" conf.timert1),
    .ok (nonzeroField "timerb" conf.timerb),
    .ok (nonzeroField "rtptimeout" conf.rtptimeout),
    .ok (nonzeroField "rtpholdtimeout" conf.rtpholdtimeout),
    .ok (nonzeroField "rtpkeepalive" conf.rtpkeepalive)]

/-- The two strings are guarded by their arrays' addresses, which are never NULL. -/
def sessionFields (conf : SipConfig) : List (Checked Text) :=
  [stringField "session-timers" conf.sessionTimers,
    .ok (nonzeroField "session-expires" conf.sessionExpires),
    .ok (nonzeroField "session-minse" conf.sessionMinse),
    stringField "session-refresher" conf.sessionRefresher,
    .ok (field "autoframing" (yesNo conf.autoframing))]

def registerFields (conf : SipConfig) : List (Checked Text) :=
  [stringField ";reg_username" conf.registerUsername,
    stringField ";reg_secret" conf.registerSecret,
    stringField ";reg_host" conf.registerHost,
    registerField conf]

def accountFields (files : Files) (account : SipAccount) : List (Checked Text) :=
  [.ok (lit "\n[User1]\n"),
    .ok sipAccountContent,
    nonemptyField "host" account.host,
    .ok (field "port" (printUnsignedShort account.port)),
    nonemptyField "username" account.username,
    nonemptyField "secret" account.secret,
    stringField "dtmfmode" account.dtmfmode,
    nonemptyField "callerid" account.callerid,
    nonemptyField "fromuser" account.fromuser,
    .ok (field "nat" (yesNo account.nat)),
    .ok (field "qualify" (yesNo account.qualify)),
    nonemptyField "insecure" account.insecure,
    nonemptyField "transport" account.transport,
    .ok (allowFields files account)]

/-- The text that `libamg_sip_save_config` prints for a stripped configuration. -/
def saveText (files : Files) (conf : SipConfig) : Checked Text :=
  printAll (serverFields conf ++ (timerFields conf ++ (sessionFields conf ++
    (registerFields conf ++ accountFields files conf.account))))

/-- `libamg_sip_save_config`: the returned status, the structure as the stripping
leaves it, and the files afterwards. -/
def saveConfig (charSigned : Bool) (files : Files) (conf : SipConfig) :
    Checked (Int32 × SipConfig × Files) :=
  if files.writable fileSipConf then do
    let stripped ← stripFields charSigned conf
    let text ← saveText files stripped
    return (0, stripped, files.write fileSipConf text)
  else return (-1, conf, files)

end Libamg.Sip
