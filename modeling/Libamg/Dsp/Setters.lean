import Mathlib.Data.List.Basic

/-!
# Setters of a DSP connection

The setters of `dsp.c` edit the cached parameter block of a channel and then exchange
a message with the device: deactivate the connection, send, reactivate. The VAPI
library is not part of the repository. Its constants and the width of its bit fields
are parameters, and every status it returns is an input of the call.
-/

namespace Libamg.Dsp

/-- The fields of the VAPI structures that the setters assign. -/
inductive OptField where
  | packetInterval | vadtype | g723Rate | cng | vadTune
  | pcmToPacketGain | packetToPcmGain
  | ecenb
  | dtmfVoice | dtmfRtp | regeneration | redundancy
  | delayInit | delayMax | delayMin | deletionThreshold
  | sigdetMode
  | ptIndex | ptValue
  | ptAutoswitch | swInd | ptchng | rfc2833 | delay
deriving DecidableEq

/-- What the headers of the VAPI library define. `store field value` is what a field
holds after the assignment of a value, which a narrow field truncates. -/
structure Vapi where
  success : Int32
  store : OptField → Int32 → Int32
  vadtypeEnable : Int32
  vadtypeDisable : Int32
  g723RateHigh : Int32
  g723RateLow : Int32
  cngEnable : Int32
  cngDisable : Int32
  ecenbEnable : Int32
  ecenbDisable : Int32
  dtmfVoiceEnable : Int32
  dtmfVoiceDisable : Int32
  dtmfRtpEnable : Int32
  dtmfRtpDisable : Int32
  regenerationEnable : Int32
  redundancyAal2 : Int32

/-- `EConnOpMode`; the code names three of its values. -/
inductive ConnOpMode where
  | eInactive
  | eTdmActive
  | eInbandToneDetActive
  | other (code : Nat)
deriving DecidableEq

/-- `enum inband_signaling_t`. -/
inductive InbandSignaling where
  | off
  | mfR2Bck
  | mfR2Fwd
deriving DecidableEq

def InbandSignaling.code : InbandSignaling → Int32
  | off => 0
  | mfR2Bck => 1
  | mfR2Fwd => 2

/-- `enum _dtmf_mode`. -/
inductive DtmfMode where
  | none
  | rfc2833
  | inband
deriving DecidableEq

/-- `struct jb_params`. -/
structure JbParams where
  jbmin : Int32
  jbinit : Int32
  jbmax : Int32
  deletionThreshold : Int32

/-! ## The parameter block -/

@[ext] structure VoiceOpt where
  packetInterval : Int32
  vadtype : Int32
  g723Rate : Int32
  cng : Int32
  vadTune : Int32
deriving DecidableEq

@[ext] structure Dgain where
  pcmToPacketGain : Int32
  packetToPcmGain : Int32
deriving DecidableEq

@[ext] structure EchoCan where
  ecenb : Int32
deriving DecidableEq

@[ext] structure DtmfOpt where
  dtmfVoice : Int32
  dtmfRtp : Int32
  regeneration : Int32
  redundancy : Int32
deriving DecidableEq

@[ext] structure Jbopt where
  delayInit : Int32
  delayMax : Int32
  delayMin : Int32
  deletionThreshold : Int32
deriving DecidableEq

@[ext] structure Sigdet where
  mode : Int32
deriving DecidableEq

/-- `SVoIPChnlParams`, the fields that the setters use. -/
@[ext] structure ChnlParams where
  stVoiceOpt : VoiceOpt
  stDgain : Dgain
  stEchoCan : EchoCan
  stDtmfOpt : DtmfOpt
  stJbopt : Jbopt
  stSigdet : Sigdet
deriving DecidableEq

/-- The options of a message, one constructor for each function code. -/
inductive Message where
  | vceopt (opt : VoiceOpt)
  | dgain (opt : Dgain)
  | echocan (opt : EchoCan)
  | dtmfopt (opt : DtmfOpt)
  | jbopt (opt : Jbopt)
  | sigdet (opt : Sigdet)
  | ptset (ptIndex ptValue : Int32)
  | autoswitch (ptAutoswitch swInd ptchng rfc2833 delay : Int32)
deriving DecidableEq

/-- A call that reaches the device, with the status it returned. -/
inductive DeviceCall where
  | setConnectionState (mode : ConnOpMode) (status : Int32)
  | sendConnectionMessage (message : Message) (status : Int32)
deriving DecidableEq

/-- A connection: its cached parameters, its state on the device, and the calls made
so far. -/
structure Connection where
  parms : ChnlParams
  state : ConnOpMode
  calls : List DeviceCall
deriving DecidableEq

/-- What the VAPI calls of one setter return; those it does not make are not looked at. -/
structure Outcomes where
  getChnlInfo : Int32
  allocateMessage : Bool
  setMessage : Int32
  deactivate : Int32
  sendMessage : Int32
  reactivate : Int32
  setState : Int32

/-- Every VAPI call succeeds. -/
def Outcomes.succeed (vapi : Vapi) : Outcomes where
  getChnlInfo := vapi.success
  allocateMessage := true
  setMessage := vapi.success
  deactivate := vapi.success
  sendMessage := vapi.success
  reactivate := vapi.success
  setState := vapi.success

/-! ## The exchange with the device -/

/-- `VAPI_SetConnectionState`: a call that fails changes nothing. -/
def Connection.setConnectionState (vapi : Vapi) (conn : Connection) (mode : ConnOpMode)
    (status : Int32) : Connection where
  parms := conn.parms
  state := if status = vapi.success then mode else conn.state
  calls := conn.calls ++ [.setConnectionState mode status]

/-- `VAPI_SendConnectionMessage`. -/
def Connection.sendConnectionMessage (conn : Connection) (message : Message) (status : Int32) :
    Connection := { conn with calls := conn.calls ++ [.sendConnectionMessage message status] }

/-- `__write_to_device`. -/
def writeToDevice (vapi : Vapi) (outcomes : Outcomes) (conn : Connection) (data : Message) :
    Int32 × Connection :=
  let conn := conn.setConnectionState vapi .eInactive outcomes.deactivate
  if outcomes.deactivate ≠ vapi.success then (-1, conn)
  else
    let conn := conn.sendConnectionMessage data outcomes.sendMessage
    if outcomes.sendMessage ≠ vapi.success then (-1, conn)
    else
      let conn := conn.setConnectionState vapi .eTdmActive outcomes.reactivate
      if outcomes.reactivate ≠ vapi.success then (-1, conn)
      else (0, conn)

/-- `_write_opts`. -/
def writeOpts (vapi : Vapi) (outcomes : Outcomes) (conn : Connection) (opt : Message) :
    Int32 × Connection :=
  if outcomes.allocateMessage = false then (-1, conn)
  else if outcomes.setMessage = vapi.success then writeToDevice vapi outcomes conn opt
  else (outcomes.setMessage, conn)

/-! ## The setters -/

/-- What most setters do: edit the cached block in place, then write one part of it. -/
def editAndWrite (vapi : Vapi) (outcomes : Outcomes) (conn : Connection)
    (edit : ChnlParams → ChnlParams) (message : ChnlParams → Message) : Int32 × Connection :=
  let conn := { conn with parms := edit conn.parms }
  writeOpts vapi outcomes conn (message conn.parms)

section Setters

variable (vapi : Vapi) (outcomes : Outcomes) (conn : Connection)

/-- `libamg_dsp_set_rtp_interval`. -/
def setRtpInterval (interval : Int32) : Int32 × Connection :=
  editAndWrite vapi outcomes conn
    (fun parms => { parms with
      stVoiceOpt.packetInterval := vapi.store .packetInterval interval })
    fun parms => .vceopt parms.stVoiceOpt

/-- The `switch` over the SNR value. -/
def vadTuneOf (tune : Int32) : Int32 :=
  if tune = 5 then 1
  else if tune = 10 then 2
  else if tune = 20 then 3
  else if tune = 30 then 4
  else 0

/-- `libamg_dsp_set_vad`. -/
def setVad (enable tune : Int32) : Int32 × Connection :=
  let vadTune := vadTuneOf tune
  if vadTune < 0 ∨ vadTune > 4 then (-1, conn)
  else
    editAndWrite vapi outcomes conn
      (fun parms => { parms with
        stVoiceOpt.vadtype :=
          vapi.store .vadtype (if enable ≠ 0 then vapi.vadtypeEnable else vapi.vadtypeDisable)
        stVoiceOpt.vadTune := vapi.store .vadTune vadTune })
      fun parms => .vceopt parms.stVoiceOpt

/-- `libamg_dsp_set_g723_rate`. -/
def setG723Rate (high : Int32) : Int32 × Connection :=
  editAndWrite vapi outcomes conn
    (fun parms => { parms with
      stVoiceOpt.g723Rate :=
        vapi.store .g723Rate (if high ≠ 0 then vapi.g723RateHigh else vapi.g723RateLow) })
    fun parms => .vceopt parms.stVoiceOpt

/-- `libamg_dsp_set_gain`. -/
def setGain (txgain rxgain : Int32) : Int32 × Connection :=
  editAndWrite vapi outcomes conn
    (fun parms => { parms with
      stDgain.pcmToPacketGain := vapi.store .pcmToPacketGain txgain
      stDgain.packetToPcmGain := vapi.store .packetToPcmGain rxgain })
    fun parms => .dgain parms.stDgain

/-- `libamg_dsp_set_cng`. -/
def setCng (enable : Int32) : Int32 × Connection :=
  editAndWrite vapi outcomes conn
    (fun parms => { parms with
      stVoiceOpt.cng := vapi.store .cng (if enable ≠ 0 then vapi.cngEnable else vapi.cngDisable) })
    fun parms => .vceopt parms.stVoiceOpt

/-- `libamg_dsp_set_echocan`; the tail size is not used. -/
def setEchocan (enable _tailSize : Int32) : Int32 × Connection :=
  editAndWrite vapi outcomes conn
    (fun parms => { parms with
      stEchoCan.ecenb :=
        vapi.store .ecenb (if enable ≠ 0 then vapi.ecenbEnable else vapi.ecenbDisable) })
    fun parms => .echocan parms.stEchoCan

/-- The edits of `libamg_dsp_set_dtmf_mode`: everything off, then what the mode needs. -/
def editDtmfMode (dtmfMode : DtmfMode) (parms : ChnlParams) : ChnlParams :=
  let parms := { parms with
    stDtmfOpt.dtmfVoice := vapi.store .dtmfVoice vapi.dtmfVoiceDisable
    stDtmfOpt.dtmfRtp := vapi.store .dtmfRtp vapi.dtmfRtpDisable }
  match dtmfMode with
  | .none => parms
  | .inband => { parms with
      stDtmfOpt.dtmfVoice := vapi.store .dtmfVoice vapi.dtmfVoiceEnable }
  | .rfc2833 => { parms with
      stDtmfOpt.dtmfRtp := vapi.store .dtmfRtp vapi.dtmfRtpEnable
      stDtmfOpt.regeneration := vapi.store .regeneration vapi.regenerationEnable
      stDtmfOpt.redundancy := vapi.store .redundancy vapi.redundancyAal2 }

/-- `libamg_dsp_set_dtmf_mode`. -/
def setDtmfMode (dtmfMode : DtmfMode) : Int32 × Connection :=
  editAndWrite vapi outcomes conn (editDtmfMode vapi dtmfMode)
    fun parms => .dtmfopt parms.stDtmfOpt

/-- `libamg_dsp_set_jitter_buffer`. -/
def setJitterBuffer (jb : JbParams) : Int32 × Connection :=
  editAndWrite vapi outcomes conn
    (fun parms => { parms with
      stJbopt.delayInit := vapi.store .delayInit jb.jbinit
      stJbopt.delayMax := vapi.store .delayMax jb.jbmax
      stJbopt.delayMin := vapi.store .delayMin jb.jbmin
      stJbopt.deletionThreshold := vapi.store .deletionThreshold jb.deletionThreshold })
    fun parms => .jbopt parms.stJbopt

/-- `libamg_dsp_set_codec_payload_type`, which has no cached options. -/
def setCodecPayloadType (codec pt : Int32) : Int32 × Connection :=
  writeOpts vapi outcomes conn (.ptset (vapi.store .ptIndex codec) (vapi.store .ptValue pt))

/-- `libamg_dsp_fax_autoswitch_set`. -/
def faxAutoswitchSet : Int32 × Connection :=
  writeOpts vapi outcomes conn (.autoswitch (vapi.store .ptAutoswitch 1) (vapi.store .swInd 1)
    (vapi.store .ptchng 1) (vapi.store .rfc2833 1) (vapi.store .delay 60))

/-- `libamg_dsp_set_inband_signaling`. -/
def setInbandSignaling (mode : InbandSignaling) : Int32 × Connection :=
  if outcomes.getChnlInfo ≠ vapi.success then (-1, conn)
  else
    let (status, conn) := editAndWrite vapi outcomes conn
      (fun parms => { parms with stSigdet.mode := vapi.store .sigdetMode mode.code })
      fun parms => .sigdet parms.stSigdet
    if status < 0 then (-1, conn)
    else
      let connState := if mode = .off then ConnOpMode.eTdmActive else .eInbandToneDetActive
      let conn := conn.setConnectionState vapi connState outcomes.setState
      if outcomes.setState < 0 then (-1, conn) else (0, conn)

/-- `libamg_dsp_get_inband_signaling` with the status of `VAPI_GetChnl_Info`. -/
def getInbandSignaling (status : Int32) : Int32 :=
  if status ≠ vapi.success then -1 else conn.parms.stSigdet.mode

end Setters

/-- A call of a setter with its arguments. -/
inductive Setter where
  | setRtpInterval (interval : Int32)
  | setVad (enable tune : Int32)
  | setG723Rate (high : Int32)
  | setGain (txgain rxgain : Int32)
  | setCng (enable : Int32)
  | setEchocan (enable tailSize : Int32)
  | setDtmfMode (dtmfMode : DtmfMode)
  | setJitterBuffer (jb : JbParams)
  | setCodecPayloadType (codec pt : Int32)
  | faxAutoswitchSet
  | setInbandSignaling (mode : InbandSignaling)

/-- Make the call. -/
def Setter.call (vapi : Vapi) (outcomes : Outcomes) (conn : Connection) :
    Setter → Int32 × Connection
  | setRtpInterval interval => Dsp.setRtpInterval vapi outcomes conn interval
  | setVad enable tune => Dsp.setVad vapi outcomes conn enable tune
  | setG723Rate high => Dsp.setG723Rate vapi outcomes conn high
  | setGain txgain rxgain => Dsp.setGain vapi outcomes conn txgain rxgain
  | setCng enable => Dsp.setCng vapi outcomes conn enable
  | setEchocan enable tailSize => Dsp.setEchocan vapi outcomes conn enable tailSize
  | setDtmfMode dtmfMode => Dsp.setDtmfMode vapi outcomes conn dtmfMode
  | setJitterBuffer jb => Dsp.setJitterBuffer vapi outcomes conn jb
  | setCodecPayloadType codec pt => Dsp.setCodecPayloadType vapi outcomes conn codec pt
  | faxAutoswitchSet => Dsp.faxAutoswitchSet vapi outcomes conn
  | setInbandSignaling mode => Dsp.setInbandSignaling vapi outcomes conn mode

/-- The setter changes the mode of the signal detection. -/
def Setter.IsInband : Setter → Prop
  | setInbandSignaling _ => True
  | _ => False

theorem vadTuneOf_range (tune : Int32) : ¬ (vadTuneOf tune < 0 ∨ vadTuneOf tune > 4) := by
  unfold vadTuneOf
  split
  · decide
  split
  · decide
  split
  · decide
  split <;> decide

theorem setVad_eq (vapi : Vapi) (outcomes : Outcomes) (conn : Connection) (enable tune : Int32) :
    setVad vapi outcomes conn enable tune = editAndWrite vapi outcomes conn
      (fun parms => { parms with
        stVoiceOpt.vadtype :=
          vapi.store .vadtype (if enable ≠ 0 then vapi.vadtypeEnable else vapi.vadtypeDisable)
        stVoiceOpt.vadTune := vapi.store .vadTune (vadTuneOf tune) })
      fun parms => .vceopt parms.stVoiceOpt := if_neg (vadTuneOf_range tune)

/-! ## What one exchange can do -/

/-- The message is there to be sent. -/
def Outcomes.Ready (vapi : Vapi) (outcomes : Outcomes) : Prop :=
  outcomes.allocateMessage = true ∧ outcomes.setMessage = vapi.success

/-- The device is deactivated and then refuses the message. -/
def Outcomes.Refused (vapi : Vapi) (outcomes : Outcomes) : Prop :=
  outcomes.Ready vapi ∧ outcomes.deactivate = vapi.success ∧ outcomes.sendMessage ≠ vapi.success

/-- The whole exchange succeeds. -/
def Outcomes.Accepted (vapi : Vapi) (outcomes : Outcomes) : Prop :=
  outcomes.Ready vapi ∧ outcomes.deactivate = vapi.success ∧
    outcomes.sendMessage = vapi.success ∧ outcomes.reactivate = vapi.success

/-- Everything `_write_opts` can do to a connection, by the first call that fails. -/
inductive Written (vapi : Vapi) (outcomes : Outcomes) (conn : Connection) (opt : Message) :
    Int32 × Connection → Prop where
  | unready {status : Int32} (unready : ¬ outcomes.Ready vapi) (failed : status ≠ 0)
      (sign : status < 0 ↔ outcomes.allocateMessage = false ∨ outcomes.setMessage < 0) :
      Written vapi outcomes conn opt (status, conn)
  | active (ready : outcomes.Ready vapi) (active : outcomes.deactivate ≠ vapi.success) :
      Written vapi outcomes conn opt (-1, { conn with
        calls := conn.calls ++ [.setConnectionState .eInactive outcomes.deactivate] })
  | refused (refused : outcomes.Refused vapi) :
      Written vapi outcomes conn opt (-1, { conn with
        state := .eInactive
        calls := conn.calls ++ [.setConnectionState .eInactive vapi.success,
          .sendConnectionMessage opt outcomes.sendMessage] })
  | inactive (ready : outcomes.Ready vapi) (deactivated : outcomes.deactivate = vapi.success)
      (sent : outcomes.sendMessage = vapi.success) (inactive : outcomes.reactivate ≠ vapi.success) :
      Written vapi outcomes conn opt (-1, { conn with
        state := .eInactive
        calls := conn.calls ++ [.setConnectionState .eInactive vapi.success,
          .sendConnectionMessage opt vapi.success,
          .setConnectionState .eTdmActive outcomes.reactivate] })
  | accepted (accepted : outcomes.Accepted vapi) :
      Written vapi outcomes conn opt (0, { conn with
        state := .eTdmActive
        calls := conn.calls ++ [.setConnectionState .eInactive vapi.success,
          .sendConnectionMessage opt vapi.success,
          .setConnectionState .eTdmActive vapi.success] })

section Written

variable {vapi : Vapi} {outcomes : Outcomes}

/-- A message that is there is sent between two changes of state. -/
theorem writeToDevice_written (ready : outcomes.Ready vapi) (conn : Connection) (opt : Message) :
    Written vapi outcomes conn opt (writeToDevice vapi outcomes conn opt) := by
  by_cases deactivated : outcomes.deactivate = vapi.success
  · by_cases sent : outcomes.sendMessage = vapi.success
    · by_cases reactivated : outcomes.reactivate = vapi.success
      · simpa [writeToDevice, Connection.setConnectionState, Connection.sendConnectionMessage,
          deactivated, sent, reactivated] using
          @Written.accepted vapi outcomes conn opt ⟨ready, deactivated, sent, reactivated⟩
      · simpa [writeToDevice, Connection.setConnectionState, Connection.sendConnectionMessage,
          deactivated, sent, reactivated] using
          @Written.inactive vapi outcomes conn opt ready deactivated sent reactivated
    · simpa [writeToDevice, Connection.setConnectionState, Connection.sendConnectionMessage,
        deactivated, sent] using @Written.refused vapi outcomes conn opt ⟨ready, deactivated, sent⟩
  · simpa [writeToDevice, Connection.setConnectionState, deactivated] using
      @Written.active vapi outcomes conn opt ready deactivated

theorem writeOpts_written (zero : vapi.success = 0) (conn : Connection) (opt : Message) :
    Written vapi outcomes conn opt (writeOpts vapi outcomes conn opt) := by
  rw [writeOpts]
  by_cases allocated : outcomes.allocateMessage = false
  · rw [if_pos allocated]
    refine .unready (fun ready => ?_) (by decide) (iff_of_true (by decide) (.inl allocated))
    rw [ready.1] at allocated
    cases allocated
  · rw [if_neg allocated]
    by_cases filled : outcomes.setMessage = vapi.success
    · rw [if_pos filled]
      exact writeToDevice_written ⟨eq_true_of_ne_false allocated, filled⟩ conn opt
    · rw [if_neg filled]
      exact .unready (fun ready => filled ready.2) (zero ▸ filled) (or_iff_right allocated).symm

end Written

/-! ## A device to try the setters on -/

/-- A VAPI whose fields are wide enough for every value. -/
def Vapi.wide : Vapi where
  success := 0
  store := fun _ value => value
  vadtypeEnable := 1
  vadtypeDisable := 0
  g723RateHigh := 0
  g723RateLow := 1
  cngEnable := 1
  cngDisable := 0
  ecenbEnable := 1
  ecenbDisable := 0
  dtmfVoiceEnable := 1
  dtmfVoiceDisable := 0
  dtmfRtpEnable := 1
  dtmfRtpDisable := 0
  regenerationEnable := 1
  redundancyAal2 := 2

/-- An active connection with a cleared block, before any call. -/
def Connection.fresh : Connection where
  parms := {
    stVoiceOpt := { packetInterval := 0, vadtype := 0, g723Rate := 0, cng := 0, vadTune := 0 }
    stDgain := { pcmToPacketGain := 0, packetToPcmGain := 0 }
    stEchoCan := { ecenb := 0 }
    stDtmfOpt := { dtmfVoice := 0, dtmfRtp := 0, regeneration := 0, redundancy := 0 }
    stJbopt := { delayInit := 0, delayMax := 0, delayMin := 0, deletionThreshold := 0 }
    stSigdet := { mode := 0 } }
  state := .eTdmActive
  calls := []

end Libamg.Dsp
