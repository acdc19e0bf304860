import Libamg.Dsp.Setters
import Libamg.Semantics.Run

/-!
# Inband signaling over whole runs

The inband mode is kept twice: as the cached mode of the signal detection, and as the
state of the connection. `__write_to_device` always reactivates to `eTdmActive`, so
the two agree after a call exactly when the call sets the mode or finds it off.
`coherent_reached_iff` is the same for all states of a run.
-/

namespace Libamg.Dsp

open Semantics

/-- What the VAPI documentation promises: `SUCCESS` is 0, and the mode of the signal
detection has room for the enumerators. -/
structure Vapi.Documented (vapi : Vapi) : Prop where
  success : vapi.success = 0
  sigdetMode : ∀ mode : InbandSignaling, vapi.store .sigdetMode mode.code = mode.code

/-- The connection detects inband tones exactly when the reported mode is not off. -/
def Coherent (vapi : Vapi) (conn : Connection) : Prop :=
  conn.state =
    if getInbandSignaling vapi conn vapi.success ≠ InbandSignaling.off.code then
      .eInbandToneDetActive
    else .eTdmActive

instance (vapi : Vapi) (conn : Connection) : Decidable (Coherent vapi conn) :=
  inferInstanceAs (Decidable (_ = _))

/-- A call all of whose VAPI calls succeed. -/
def succeedingCall (vapi : Vapi) (conn : Connection) (setter : Setter) : Connection :=
  (setter.call vapi (.succeed vapi) conn).2

theorem getInbandSignaling_success (vapi : Vapi) (conn : Connection) :
    getInbandSignaling vapi conn vapi.success = conn.parms.stSigdet.mode :=
  if_neg (not_not.mpr rfl)

/-- A write that succeeds leaves the connection in `eTdmActive`, whatever it was in. -/
theorem writeOpts_succeed (vapi : Vapi) (conn : Connection) (opt : Message) :
    ∃ calls, writeOpts vapi (.succeed vapi) conn opt =
      (0, { conn with state := .eTdmActive, calls := calls }) := by
  refine ⟨conn.calls ++ [.setConnectionState .eInactive vapi.success,
    .sendConnectionMessage opt vapi.success, .setConnectionState .eTdmActive vapi.success], ?_⟩
  simp [writeOpts, writeToDevice, Outcomes.succeed, Connection.setConnectionState,
    Connection.sendConnectionMessage]

theorem editAndWrite_succeed (vapi : Vapi) (conn : Connection) (edit : ChnlParams → ChnlParams)
    (message : ChnlParams → Message) :
    ∃ calls, editAndWrite vapi (.succeed vapi) conn edit message =
      (0, { parms := edit conn.parms, state := .eTdmActive, calls := calls }) :=
  writeOpts_succeed vapi { conn with parms := edit conn.parms } (message (edit conn.parms))

/-- Every setter but one keeps the cached mode and ends in `eTdmActive`. -/
theorem succeedingCall_other (vapi : Vapi) (conn : Connection) {setter : Setter}
    (other : ¬ setter.IsInband) :
    (succeedingCall vapi conn setter).state = .eTdmActive ∧
      (succeedingCall vapi conn setter).parms.stSigdet = conn.parms.stSigdet := by
  have edited (edit : ChnlParams → ChnlParams) (message : ChnlParams → Message)
      (keeps : (edit conn.parms).stSigdet = conn.parms.stSigdet) :
      (editAndWrite vapi (.succeed vapi) conn edit message).2.state = .eTdmActive ∧
        (editAndWrite vapi (.succeed vapi) conn edit message).2.parms.stSigdet =
          conn.parms.stSigdet := by
    obtain ⟨calls, result⟩ := editAndWrite_succeed vapi conn edit message
    rw [result]
    exact ⟨rfl, keeps⟩
  cases setter with
  | setRtpInterval interval => exact edited _ _ rfl
  | setVad enable tune =>
      rw [succeedingCall, Setter.call, setVad_eq]
      exact edited _ _ rfl
  | setG723Rate high => exact edited _ _ rfl
  | setGain txgain rxgain => exact edited _ _ rfl
  | setCng enable => exact edited _ _ rfl
  | setEchocan enable tailSize => exact edited _ _ rfl
  | setDtmfMode dtmfMode =>
      refine edited _ _ ?_
      cases dtmfMode <;> rfl
  | setJitterBuffer jb => exact edited _ _ rfl
  | setCodecPayloadType codec pt => exact edited id (fun _ => _) rfl
  | faxAutoswitchSet => exact edited id (fun _ => _) rfl
  | setInbandSignaling mode => exact absurd trivial other

/-- Setting the mode sets both copies. -/
theorem succeedingCall_inband {vapi : Vapi} (documented : vapi.Documented) (conn : Connection)
    (mode : InbandSignaling) :
    (succeedingCall vapi conn (.setInbandSignaling mode)).state =
        (if mode = .off then .eTdmActive else .eInbandToneDetActive) ∧
      (succeedingCall vapi conn (.setInbandSignaling mode)).parms.stSigdet.mode = mode.code := by
  obtain ⟨calls, result⟩ := editAndWrite_succeed vapi conn
    (fun parms => { parms with stSigdet.mode := vapi.store .sigdetMode mode.code })
    fun parms => .sigdet parms.stSigdet
  have notNegative : ¬ vapi.success < 0 := by
    rw [documented.success]
    decide
  have zero : ¬ (0 : Int32) < 0 := by decide
  have known : (Outcomes.succeed vapi).getChnlInfo = vapi.success := rfl
  have set : (Outcomes.succeed vapi).setState = vapi.success := rfl
  rw [succeedingCall, Setter.call, setInbandSignaling, if_neg (not_not.mpr known)]
  simp only [result, if_neg zero, set, if_neg notNegative, Connection.setConnectionState]
  exact ⟨rfl, documented.sigdetMode mode⟩

/-- After a call the two copies agree exactly when it sets the mode or finds it off. -/
theorem coherent_succeedingCall_iff {vapi : Vapi} (documented : vapi.Documented)
    (conn : Connection) (setter : Setter) :
    Coherent vapi (succeedingCall vapi conn setter) ↔
      setter.IsInband ∨ conn.parms.stSigdet.mode = InbandSignaling.off.code := by
  rw [Coherent, getInbandSignaling_success]
  by_cases inband : setter.IsInband
  · cases setter with
    | setInbandSignaling mode =>
        obtain ⟨state, cached⟩ := succeedingCall_inband documented conn mode
        rw [state, cached]
        refine iff_of_true ?_ (.inl inband)
        cases mode <;> decide
    | _ => exact absurd inband not_false
  · obtain ⟨state, cached⟩ := succeedingCall_other vapi conn inband
    rw [state, cached, or_iff_right inband]
    by_cases off : conn.parms.stSigdet.mode = InbandSignaling.off.code
    · exact iff_of_true (if_neg (not_not.mpr off)).symm off
    · rw [if_pos off]
      exact iff_of_false (by decide) off

/-- Over whole runs: the two copies agree after every call exactly when every setter
but `libamg_dsp_set_inband_signaling` is called with inband signaling off. -/
theorem coherent_reached_iff {vapi : Vapi} (documented : vapi.Documented) {conn : Connection}
    (initial : conn.state = .eTdmActive ∧ conn.parms.stSigdet.mode = InbandSignaling.off.code)
    (setters : List Setter) :
    (∀ before, before <+: setters → Coherent vapi (reached (succeedingCall vapi) conn before)) ↔
      ∀ before setter, before ++ [setter] <+: setters →
        setter.IsInband ∨
          (reached (succeedingCall vapi) conn before).parms.stSigdet.mode =
            InbandSignaling.off.code := by
  have coherent : Coherent vapi conn := by
    rw [Coherent, getInbandSignaling_success, initial.1, initial.2]
    rfl
  exact forall_reached_iff
    (fun before setter _ => coherent_succeedingCall_iff documented before setter) coherent setters

theorem Vapi.wide_documented : Vapi.wide.Documented := ⟨rfl, fun _ => rfl⟩

theorem coherent_reached_iff_witness :
    ¬ ∀ before, before <+: [.setInbandSignaling .mfR2Fwd, .faxAutoswitchSet] →
      Coherent .wide (reached (succeedingCall .wide) .fresh before) := by
  have initial : Connection.fresh.state = .eTdmActive ∧
      Connection.fresh.parms.stSigdet.mode = InbandSignaling.off.code := ⟨rfl, rfl⟩
  intro coherent
  have allowed := (coherent_reached_iff Vapi.wide_documented initial
    [.setInbandSignaling .mfR2Fwd, .faxAutoswitchSet]).mp coherent
  rcases allowed [.setInbandSignaling .mfR2Fwd] .faxAutoswitchSet List.prefix_rfl with
    inband | off
  · exact inband
  · exact absurd off (by decide)

/-- Any other setter takes the connection out of inband detection, and the mode that
is reported stays on. -/
theorem inband_lost :
    ¬ Coherent .wide (reached (succeedingCall .wide) .fresh
      [.setInbandSignaling .mfR2Bck, .setCng 1]) := by decide

end Libamg.Dsp
