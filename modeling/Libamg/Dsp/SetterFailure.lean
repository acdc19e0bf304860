import Libamg.Dsp.Setters

/-!
# Setters that fail

A setter edits the cached block before it talks to the device, and nothing undoes the
edit; nor does anything reactivate a connection whose message was refused.
`call_leavesThings_iff` says exactly when a call leaves things as they were all the same.
-/

namespace Libamg.Dsp

/-- Between two states of a connection some `VAPI_SetConnectionState` failed. -/
def StateCallFailed (vapi : Vapi) (before after : Connection) : Prop :=
  ∃ made, after.calls = before.calls ++ made ∧
    ∃ mode status, .setConnectionState mode status ∈ made ∧ status ≠ vapi.success

/-- If a call returns an error, the cached block is what it was before, and an active
connection has not become inactive unless a change of state failed. -/
def LeavesThings (vapi : Vapi) (before : Connection) (result : Int32 × Connection) : Prop :=
  result.1 ≠ 0 → result.2.parms = before.parms ∧
    (before.state ≠ .eInactive → result.2.state = .eInactive →
      StateCallFailed vapi before result.2)

theorem stateCallFailed_iff {vapi : Vapi} {before after : Connection} {made : List DeviceCall}
    (calls : after.calls = before.calls ++ made) :
    StateCallFailed vapi before after ↔
      ∃ mode status, .setConnectionState mode status ∈ made ∧ status ≠ vapi.success := by
  constructor
  · rintro ⟨others, otherCalls, failed⟩
    rw [calls, List.append_cancel_left_eq] at otherCalls
    rw [otherCalls]
    exact failed
  · exact fun failed => ⟨made, calls, failed⟩

section LeavesThings

variable {vapi : Vapi} {before after : Connection} {status : Int32}

theorem leavesThings_success : LeavesThings vapi before (0, after) := fun failed =>
  absurd rfl failed

/-- A failed call that has not changed the state has to answer for the cached block only. -/
theorem leavesThings_sameState (failed : status ≠ 0) (state : after.state = before.state) :
    LeavesThings vapi before (status, after) ↔ after.parms = before.parms := by
  constructor
  · exact fun leaves => (leaves failed).1
  · exact fun same => fun _ => ⟨same, fun active inactive =>
      absurd (state.symm.trans inactive) active⟩

theorem leavesThings_stateCallFailed (failed : status ≠ 0)
    (stateCallFailed : StateCallFailed vapi before after) :
    LeavesThings vapi before (status, after) ↔ after.parms = before.parms := by
  constructor
  · exact fun leaves => (leaves failed).1
  · exact fun same => fun _ => ⟨same, fun _ _ => stateCallFailed⟩

/-- A failed call that has made the connection inactive without a failing change of state. -/
theorem leavesThings_stranded (failed : status ≠ 0) (inactive : after.state = .eInactive)
    (noFailure : ¬ StateCallFailed vapi before after) :
    LeavesThings vapi before (status, after) ↔
      after.parms = before.parms ∧ before.state = .eInactive := by
  constructor
  · intro leaves
    obtain ⟨same, excused⟩ := leaves failed
    exact ⟨same, by_contra fun active => noFailure (excused active inactive)⟩
  · rintro ⟨same, wasInactive⟩ _
    exact ⟨same, fun active => absurd wasInactive active⟩

end LeavesThings

theorem editAndWrite_written {vapi : Vapi} (zero : vapi.success = 0) (outcomes : Outcomes)
    (conn : Connection) (edit : ChnlParams → ChnlParams) (message : ChnlParams → Message) :
    Written vapi outcomes { conn with parms := edit conn.parms } (message (edit conn.parms))
      (editAndWrite vapi outcomes conn edit message) := writeOpts_written zero _ _

/-- The setters without `libamg_dsp_set_inband_signaling`. -/
theorem editAndWrite_leavesThings_iff {vapi : Vapi} (zero : vapi.success = 0) (outcomes : Outcomes)
    (conn : Connection) (edit : ChnlParams → ChnlParams) (message : ChnlParams → Message) :
    LeavesThings vapi conn (editAndWrite vapi outcomes conn edit message) ↔
      outcomes.Accepted vapi ∨
        edit conn.parms = conn.parms ∧ (conn.state = .eInactive ∨ ¬ outcomes.Refused vapi) := by
  have minusOne : (-1 : Int32) ≠ 0 := by decide
  have written := editAndWrite_written zero outcomes conn edit message
  generalize editAndWrite vapi outcomes conn edit message = result at written ⊢
  cases written with
  | unready unready failed _ =>
      have notAccepted : ¬ outcomes.Accepted vapi := fun accepted => unready accepted.1
      have notRefused : ¬ outcomes.Refused vapi := fun refused => unready refused.1
      simp only [notAccepted, notRefused, not_false_eq_true, or_true, and_true, false_or]
      exact leavesThings_sameState failed rfl
  | active ready active =>
      have notAccepted : ¬ outcomes.Accepted vapi := fun accepted => active accepted.2.1
      have notRefused : ¬ outcomes.Refused vapi := fun refused => active refused.2.1
      simp only [notAccepted, notRefused, not_false_eq_true, or_true, and_true, false_or]
      exact leavesThings_sameState minusOne rfl
  | refused refused =>
      have notAccepted : ¬ outcomes.Accepted vapi := fun accepted => refused.2.2 accepted.2.2.1
      simp only [notAccepted, refused, not_true_eq_false, or_false, false_or]
      refine leavesThings_stranded minusOne rfl ?_
      rw [stateCallFailed_iff rfl]
      simp
  | inactive ready deactivated sent inactive =>
      have notAccepted : ¬ outcomes.Accepted vapi := fun accepted => inactive accepted.2.2.2
      have notRefused : ¬ outcomes.Refused vapi := fun refused => refused.2.2 sent
      simp only [notAccepted, notRefused, not_false_eq_true, or_true, and_true, false_or]
      refine leavesThings_stateCallFailed minusOne ((stateCallFailed_iff rfl).mpr ?_)
      exact ⟨.eTdmActive, outcomes.reactivate, by simp, inactive⟩
  | accepted accepted =>
      simp only [accepted, true_or, iff_true]
      exact leavesThings_success

/-- `libamg_dsp_set_inband_signaling` takes a positive status of its write for success. -/
def Outcomes.InbandAccepted (vapi : Vapi) (outcomes : Outcomes) : Prop :=
  (outcomes.Accepted vapi ∨ outcomes.allocateMessage = true ∧ 0 < outcomes.setMessage) ∧
    0 ≤ outcomes.setState

theorem int32_pos {n : Int32} (nonzero : n ≠ 0) (nonnegative : ¬ n < 0) : 0 < n := by
  rw [Int32.lt_iff_toInt_lt] at nonnegative ⊢
  have different : n.toInt ≠ (0 : Int32).toInt := fun same => nonzero (Int32.toInt_inj.mp same)
  omega

/-- The last call of `libamg_dsp_set_inband_signaling`, after a write that went well. -/
theorem setState_leavesThings_iff {vapi : Vapi} (zero : vapi.success = 0) {conn after : Connection}
    {made : List DeviceCall} (calls : after.calls = conn.calls ++ made) (mode : ConnOpMode)
    (status : Int32) :
    LeavesThings vapi conn
        (if status < 0 then (-1, after.setConnectionState vapi mode status)
          else (0, after.setConnectionState vapi mode status)) ↔
      0 ≤ status ∨ after.parms = conn.parms := by
  by_cases negative : status < 0
  · have failed : status ≠ vapi.success := by
      rintro rfl
      rw [zero] at negative
      exact absurd negative (by decide)
    have minusOne : (-1 : Int32) ≠ 0 := by decide
    have moreCalls : (after.setConnectionState vapi mode status).calls =
        conn.calls ++ (made ++ [.setConnectionState mode status]) := by
      rw [Connection.setConnectionState, calls, List.append_assoc]
    have stateFailed : StateCallFailed vapi conn (after.setConnectionState vapi mode status) :=
      (stateCallFailed_iff moreCalls).mpr ⟨mode, status, by simp, failed⟩
    have notNonnegative : ¬ 0 ≤ status := Int32.not_le.mpr negative
    rw [if_pos negative, or_iff_right notNonnegative]
    exact leavesThings_stateCallFailed minusOne stateFailed
  · have nonnegative : 0 ≤ status := Int32.not_lt.mp negative
    rw [if_neg negative, or_iff_left_of_imp fun _ => nonnegative]
    exact iff_of_true leavesThings_success nonnegative

/-- The write as `libamg_dsp_set_inband_signaling` looks at it, by the sign of its status. -/
theorem editAndWrite_sign {vapi : Vapi} (zero : vapi.success = 0) (outcomes : Outcomes)
    (conn : Connection) (edit : ChnlParams → ChnlParams) (message : ChnlParams → Message) :
    ((editAndWrite vapi outcomes conn edit message).1 < 0 ∧
      ¬ (outcomes.Accepted vapi ∨ outcomes.allocateMessage = true ∧ 0 < outcomes.setMessage)) ∨
    (¬ (editAndWrite vapi outcomes conn edit message).1 < 0 ∧ ¬ outcomes.Refused vapi ∧
      (outcomes.Accepted vapi ∨ outcomes.allocateMessage = true ∧ 0 < outcomes.setMessage) ∧
      (editAndWrite vapi outcomes conn edit message).2.parms = edit conn.parms ∧
      ∃ made, (editAndWrite vapi outcomes conn edit message).2.calls = conn.calls ++ made) := by
  have isNegative : (-1 : Int32) < 0 := by decide
  have notNegative : ¬ (0 : Int32) < 0 := by decide
  have notPositive (ready : outcomes.Ready vapi) :
      ¬ (outcomes.allocateMessage = true ∧ 0 < outcomes.setMessage) := by
    rintro ⟨_, positive⟩
    rw [ready.2, zero] at positive
    exact absurd positive (by decide)
  have written := editAndWrite_written zero outcomes conn edit message
  generalize editAndWrite vapi outcomes conn edit message = result at written ⊢
  cases written with
  | unready unready failed sign =>
      have notAccepted : ¬ outcomes.Accepted vapi := fun accepted => unready accepted.1
      rename_i status
      by_cases negative : status < 0
      · refine .inl ⟨negative, not_or.mpr ⟨notAccepted, ?_⟩⟩
        rintro ⟨allocated, positive⟩
        rcases sign.mp negative with refusedMemory | refusedBuffer
        · rw [allocated] at refusedMemory
          cases refusedMemory
        · exact Int32.lt_irrefl (Int32.lt_trans positive refusedBuffer)
      · have notRefused : ¬ outcomes.Refused vapi := fun refused => unready refused.1
        have unsigned : ¬ (outcomes.allocateMessage = false ∨ outcomes.setMessage < 0) :=
          fun either => negative (sign.mpr either)
        rw [not_or, Bool.not_eq_false] at unsigned
        have nonzero : outcomes.setMessage ≠ 0 := fun isZero =>
          unready ⟨unsigned.1, isZero.trans zero.symm⟩
        exact .inr ⟨negative, notRefused, .inr ⟨unsigned.1, int32_pos nonzero unsigned.2⟩, rfl, [],
          (List.append_nil _).symm⟩
  | active ready active =>
      exact .inl ⟨isNegative, not_or.mpr ⟨fun accepted => active accepted.2.1, notPositive ready⟩⟩
  | refused refused =>
      exact .inl ⟨isNegative, not_or.mpr ⟨fun accepted => refused.2.2 accepted.2.2.1,
        notPositive refused.1⟩⟩
  | inactive ready _ _ inactive =>
      exact .inl ⟨isNegative, not_or.mpr ⟨fun accepted => inactive accepted.2.2.2,
        notPositive ready⟩⟩
  | accepted accepted =>
      exact .inr ⟨notNegative, fun refused => refused.2.2 accepted.2.2.1, .inl accepted, rfl, _, rfl⟩

theorem setInbandSignaling_leavesThings_iff {vapi : Vapi} (zero : vapi.success = 0)
    (outcomes : Outcomes) (conn : Connection) (mode : InbandSignaling) :
    LeavesThings vapi conn (setInbandSignaling vapi outcomes conn mode) ↔
      outcomes.getChnlInfo ≠ vapi.success ∨ outcomes.InbandAccepted vapi ∨
        { conn.parms with stSigdet.mode := vapi.store .sigdetMode mode.code } = conn.parms ∧
          (conn.state = .eInactive ∨ ¬ outcomes.Refused vapi) := by
  have minusOne : (-1 : Int32) ≠ 0 := by decide
  by_cases known : outcomes.getChnlInfo = vapi.success
  · have unknown : ¬ outcomes.getChnlInfo ≠ vapi.success := not_not.mpr known
    have write := editAndWrite_leavesThings_iff zero outcomes conn
      (fun parms => { parms with stSigdet.mode := vapi.store .sigdetMode mode.code })
      fun parms => .sigdet parms.stSigdet
    have sign := editAndWrite_sign zero outcomes conn
      (fun parms => { parms with stSigdet.mode := vapi.store .sigdetMode mode.code })
      fun parms => .sigdet parms.stSigdet
    rw [or_iff_right unknown, setInbandSignaling, if_neg unknown]
    generalize editAndWrite vapi outcomes conn _ _ = written at write sign ⊢
    obtain ⟨status, after⟩ := written
    dsimp only at sign
    rcases sign with ⟨negative, notAccepted⟩ |
      ⟨nonnegative, notRefused, accepted, parms, made, calls⟩
    · have failed : status ≠ 0 := by
        rintro rfl
        exact absurd negative (by decide)
      have notInband : ¬ outcomes.InbandAccepted vapi := fun accepted => notAccepted accepted.1
      rw [or_iff_right fun accepted => notAccepted (.inl accepted)] at write
      rw [or_iff_right notInband, ← write]
      simp only [if_pos negative]
      exact ⟨fun leaves _ => leaves minusOne, fun leaves _ => leaves failed⟩
    · have inband : outcomes.InbandAccepted vapi ↔ 0 ≤ outcomes.setState := and_iff_right accepted
      simp only [if_neg nonnegative, inband, notRefused, not_false_eq_true, or_true, and_true,
        setState_leavesThings_iff zero calls, parms]
  · rw [setInbandSignaling, if_pos known]
    exact iff_of_true ((leavesThings_sameState minusOne rfl).mpr rfl) (.inl known)

/-! ## All setters -/

/-- The cached block already holds what the setter asks for. -/
def Setter.Cached (vapi : Vapi) (parms : ChnlParams) : Setter → Prop
  | setRtpInterval interval =>
      parms.stVoiceOpt.packetInterval = vapi.store .packetInterval interval
  | setVad enable tune =>
      parms.stVoiceOpt.vadtype =
          vapi.store .vadtype (if enable ≠ 0 then vapi.vadtypeEnable else vapi.vadtypeDisable) ∧
        parms.stVoiceOpt.vadTune = vapi.store .vadTune (vadTuneOf tune)
  | setG723Rate high =>
      parms.stVoiceOpt.g723Rate =
        vapi.store .g723Rate (if high ≠ 0 then vapi.g723RateHigh else vapi.g723RateLow)
  | setGain txgain rxgain =>
      parms.stDgain.pcmToPacketGain = vapi.store .pcmToPacketGain txgain ∧
        parms.stDgain.packetToPcmGain = vapi.store .packetToPcmGain rxgain
  | setCng enable =>
      parms.stVoiceOpt.cng =
        vapi.store .cng (if enable ≠ 0 then vapi.cngEnable else vapi.cngDisable)
  | setEchocan enable _ =>
      parms.stEchoCan.ecenb =
        vapi.store .ecenb (if enable ≠ 0 then vapi.ecenbEnable else vapi.ecenbDisable)
  | setDtmfMode .none =>
      parms.stDtmfOpt.dtmfVoice = vapi.store .dtmfVoice vapi.dtmfVoiceDisable ∧
        parms.stDtmfOpt.dtmfRtp = vapi.store .dtmfRtp vapi.dtmfRtpDisable
  | setDtmfMode .inband =>
      parms.stDtmfOpt.dtmfVoice = vapi.store .dtmfVoice vapi.dtmfVoiceEnable ∧
        parms.stDtmfOpt.dtmfRtp = vapi.store .dtmfRtp vapi.dtmfRtpDisable
  | setDtmfMode .rfc2833 =>
      parms.stDtmfOpt.dtmfVoice = vapi.store .dtmfVoice vapi.dtmfVoiceDisable ∧
        parms.stDtmfOpt.dtmfRtp = vapi.store .dtmfRtp vapi.dtmfRtpEnable ∧
        parms.stDtmfOpt.regeneration = vapi.store .regeneration vapi.regenerationEnable ∧
        parms.stDtmfOpt.redundancy = vapi.store .redundancy vapi.redundancyAal2
  | setJitterBuffer jb =>
      parms.stJbopt.delayInit = vapi.store .delayInit jb.jbinit ∧
        parms.stJbopt.delayMax = vapi.store .delayMax jb.jbmax ∧
        parms.stJbopt.delayMin = vapi.store .delayMin jb.jbmin ∧
        parms.stJbopt.deletionThreshold = vapi.store .deletionThreshold jb.deletionThreshold
  | setCodecPayloadType _ _ => True
  | faxAutoswitchSet => True
  | setInbandSignaling mode => parms.stSigdet.mode = vapi.store .sigdetMode mode.code

/-- The VAPI calls go so that the setter returns 0. -/
def Setter.Succeeds (vapi : Vapi) (outcomes : Outcomes) : Setter → Prop
  | setInbandSignaling _ => outcomes.InbandAccepted vapi
  | _ => outcomes.Accepted vapi

/-- The setter returns before it edits anything. -/
def Setter.Declined (vapi : Vapi) (outcomes : Outcomes) : Setter → Prop
  | setInbandSignaling _ => outcomes.getChnlInfo ≠ vapi.success
  | _ => False

/-- A call leaves things as they were exactly when it succeeds or is declined, or the
requested values are already cached and no active connection is deactivated for a
message that is then refused. -/
theorem call_leavesThings_iff {vapi : Vapi} (zero : vapi.success = 0) (outcomes : Outcomes)
    (conn : Connection) (setter : Setter) :
    LeavesThings vapi conn (setter.call vapi outcomes conn) ↔
      setter.Declined vapi outcomes ∨ setter.Succeeds vapi outcomes ∨
        setter.Cached vapi conn.parms ∧
          (conn.state = .eInactive ∨ ¬ outcomes.Refused vapi) := by
  have plain (edit : ChnlParams → ChnlParams) (message : ChnlParams → Message) {cached : Prop}
      (same : edit conn.parms = conn.parms ↔ cached) :
      LeavesThings vapi conn (editAndWrite vapi outcomes conn edit message) ↔
        False ∨ outcomes.Accepted vapi ∨
          cached ∧ (conn.state = .eInactive ∨ ¬ outcomes.Refused vapi) := by
    rw [← same, false_or]
    exact editAndWrite_leavesThings_iff zero outcomes conn edit message
  cases setter with
  | setRtpInterval interval =>
      exact plain _ _ (by simp [Setter.Cached, ChnlParams.ext_iff, VoiceOpt.ext_iff, eq_comm])
  | setVad enable tune =>
      rw [Setter.call, setVad_eq]
      exact plain _ _ (by simp [Setter.Cached, ChnlParams.ext_iff, VoiceOpt.ext_iff, eq_comm])
  | setG723Rate high =>
      exact plain _ _ (by simp [Setter.Cached, ChnlParams.ext_iff, VoiceOpt.ext_iff, eq_comm])
  | setGain txgain rxgain =>
      exact plain _ _ (by simp [Setter.Cached, ChnlParams.ext_iff, Dgain.ext_iff, eq_comm])
  | setCng enable =>
      exact plain _ _ (by simp [Setter.Cached, ChnlParams.ext_iff, VoiceOpt.ext_iff, eq_comm])
  | setEchocan enable tailSize =>
      exact plain _ _ (by simp [Setter.Cached, ChnlParams.ext_iff, EchoCan.ext_iff, eq_comm])
  | setDtmfMode dtmfMode =>
      refine plain _ _ ?_
      cases dtmfMode <;>
        simp [Setter.Cached, editDtmfMode, ChnlParams.ext_iff, DtmfOpt.ext_iff, eq_comm]
  | setJitterBuffer jb =>
      exact plain _ _ (by simp [Setter.Cached, ChnlParams.ext_iff, Jbopt.ext_iff, eq_comm])
  | setCodecPayloadType codec pt => exact plain id (fun _ => _) (iff_of_true rfl trivial)
  | faxAutoswitchSet => exact plain id (fun _ => _) (iff_of_true rfl trivial)
  | setInbandSignaling mode =>
      have same : { conn.parms with stSigdet.mode := vapi.store .sigdetMode mode.code } = conn.parms ↔
          conn.parms.stSigdet.mode = vapi.store .sigdetMode mode.code := by
        simp [ChnlParams.ext_iff, Sigdet.ext_iff, eq_comm]
      rw [Setter.call, setInbandSignaling_leavesThings_iff zero, same]
      rfl

/-- No memory for the message. -/
def unallocated : Outcomes := { Outcomes.succeed .wide with allocateMessage := false }

/-- The device refuses the message. -/
def refused : Outcomes := { Outcomes.succeed .wide with sendMessage := -1 }

theorem call_leavesThings_iff_witness :
    LeavesThings .wide .fresh ((Setter.setCng 0).call .wide unallocated .fresh) ∧
      ¬ LeavesThings .wide .fresh ((Setter.setInbandSignaling .off).call .wide refused .fresh) := by
  have zero : Vapi.wide.success = 0 := rfl
  have ready : refused.Refused .wide := ⟨⟨rfl, rfl⟩, rfl, by decide⟩
  have unready : ¬ unallocated.Refused .wide := fun isRefused => absurd isRefused.1.1 (by decide)
  constructor
  · exact (call_leavesThings_iff zero unallocated .fresh (.setCng 0)).mpr
      (.inr (.inr ⟨rfl, .inr unready⟩))
  · intro leaves
    rcases (call_leavesThings_iff zero refused .fresh (.setInbandSignaling .off)).mp leaves with
      declined | succeeds | ⟨_, inactive | notRefused⟩
    · exact declined rfl
    · rcases succeeds.1 with accepted | ⟨_, positive⟩
      · exact ready.2.2 accepted.2.2.1
      · exact absurd positive (by decide)
    · cases inactive
    · exact notRefused ready

/-- A failed call that has changed the cached block, and one that has left an active
connection inactive although every change of state went well. -/
theorem things_changed :
    ¬ LeavesThings .wide .fresh ((Setter.setCng 1).call .wide unallocated .fresh) ∧
      ¬ LeavesThings .wide .fresh ((Setter.setCng 0).call .wide refused .fresh) := by
  constructor
  · intro leaves
    exact absurd (leaves (by decide)).1 (by decide)
  · intro leaves
    obtain ⟨made, calls, mode, status, member, failed⟩ :=
      (leaves (by decide)).2 (by decide) (by decide)
    have madeCalls : made = [.setConnectionState .eInactive 0,
        .sendConnectionMessage (.vceopt Connection.fresh.parms.stVoiceOpt) (-1)] := calls.symm
    rw [madeCalls] at member
    simp only [List.mem_cons, List.not_mem_nil, DeviceCall.setConnectionState.injEq, reduceCtorEq,
      or_false] at member
    exact failed member.2

end Libamg.Dsp
