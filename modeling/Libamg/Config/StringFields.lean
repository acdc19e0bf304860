import Libamg.Config.SipParse
import Libamg.Config.SysLog
import Libamg.Dahdi.SystemConf

/-!
# The string fields of parsed structures

Every parser copies values into `char` arrays with `strncpy`, which leaves no NUL behind
a source that is too long. All copies but two stay one byte short of their array, so
only the two session fields of `sip.conf` can end up without a NUL.
-/

namespace Libamg

open C

/-! ## sip.conf -/

namespace Sip

/-- Every `char` array of the structure holds a NUL. -/
structure TerminatedFields (conf : SipConfig) : Prop where
  sessionTimers : conf.sessionTimers.Terminated
  sessionRefresher : conf.sessionRefresher.Terminated
  registerUsername : conf.registerUsername.Terminated
  registerSecret : conf.registerSecret.Terminated
  registerHost : conf.registerHost.Terminated
  callerid : conf.account.callerid.Terminated
  fromuser : conf.account.fromuser.Terminated
  insecure : conf.account.insecure.Terminated
  username : conf.account.username.Terminated
  secret : conf.account.secret.Terminated
  host : conf.account.host.Terminated
  transport : conf.account.transport.Terminated
  dtmfmode : conf.account.dtmfmode.Terminated

theorem ClosedFields.terminated {conf : SipConfig} (closed : ClosedFields conf)
    (sessionTimers : conf.sessionTimers.Terminated)
    (sessionRefresher : conf.sessionRefresher.Terminated) : TerminatedFields conf :=
  ⟨sessionTimers, sessionRefresher, closed.registerUsername.terminated,
    closed.registerSecret.terminated, closed.registerHost.terminated, closed.callerid.terminated,
    closed.fromuser.terminated, closed.insecure.terminated, closed.username.terminated,
    closed.secret.terminated, closed.host.terminated, closed.transport.terminated,
    closed.dtmfmode.terminated⟩

/-- The parser returns, and a structure that it returns has only terminated strings. -/
def ParsesTerminated (charSigned : Bool) (files : Files) : Prop :=
  ∃ found, parseConfig charSigned files = .ok found ∧ ∀ conf ∈ found, TerminatedFields conf

/-- What the lines of a file must keep to: no more codecs than the array holds, and a
last value of either session key that leaves room for the NUL. -/
def ShortSessionValues (lines : List (Text × Text)) : Prop :=
  (allowCodes lines).length ≤ numAvailableCodecs ∧ LastShort "session-timers" 16 lines ∧
    LastShort "session-refresher" 8 lines

theorem parsesTerminated_iff (charSigned : Bool) (files : Files) :
    ParsesTerminated charSigned files ↔
      ∀ text, files.openRead fileSipConf = some text → ShortSessionValues (linesOf text) := by
  cases opened : files.openRead fileSipConf with
  | none =>
      have parsed : parseConfig charSigned files = .ok none := by
        rw [parseConfig, opened]
      refine iff_of_true ⟨none, parsed, ?_⟩ ?_
      · intro conf impossible
        cases impossible
      · intro text impossible
        cases impossible
  | some text =>
      have parsed := parseConfig_eq_readAll charSigned opened
      rw [ParsesTerminated, parsed]
      constructor
      · rintro ⟨found, returned, terminated⟩ _ same
        cases same
        have few : (allowCodes (linesOf text)).length ≤ 9 := by
          by_contra many
          rw [readAll_overrun (noNul_linesOf text) (Nat.lt_of_not_le many)] at returned
          cases returned
        obtain ⟨state, soFar, read⟩ := @readAll_ok charSigned _ (noNul_linesOf text) few
        rw [soFar] at returned
        cases returned
        have fields := terminated state.conf rfl
        exact ⟨few, read.sessionTimers.mp fields.sessionTimers,
          read.sessionRefresher.mp fields.sessionRefresher⟩
      · intro short
        obtain ⟨few, timers, refresher⟩ := short text rfl
        obtain ⟨state, soFar, read⟩ := @readAll_ok charSigned _ (noNul_linesOf text) few
        refine ⟨some state.conf, by rw [soFar]; rfl, ?_⟩
        rintro _ same
        cases same
        exact read.closed.terminated (read.sessionTimers.mpr timers)
          (read.sessionRefresher.mpr refresher)

end Sip

/-! ## chan_dahdi.conf -/

namespace Dahdi

/-- The switch type of the first span, the one that every setting goes to. -/
def SwitchtypeClosed (spans : Spans) : Prop := spans.first.isdn.switchtype.Closed

theorem SwitchtypeClosed.update {spans : Spans} {edit : Span → Span}
    (kept : (edit spans.first).isdn.switchtype.Closed) : SwitchtypeClosed (spans.update edit) := by
  rw [SwitchtypeClosed, Spans.first_update]
  exact kept

/-- There is only one span that an edit can go to. -/
theorem updateAt_ensures {spans : Spans} (index : Int32) {edit : Span → Span}
    (kept : ∀ span : Span, (edit span).isdn.switchtype.Closed) :
    (spans.updateAt index edit).Ensures SwitchtypeClosed := by
  intro next stored
  rw [Spans.updateAt] at stored
  split at stored
  · rename_i inside
    cases stored
    have zero : index.toNatClampNeg = 0 := Nat.lt_one_iff.mp inside.2
    have first : Spans.first (spans.set index.toNatClampNeg
        (edit (spans.get ⟨index.toNatClampNeg, inside.2⟩)) inside.2) =
        edit (spans.get ⟨index.toNatClampNeg, inside.2⟩) := by
      show (spans.set _ _ inside.2)[0] = _
      rw [Vector.getElem_set, if_pos zero]
    rw [SwitchtypeClosed, first]
    exact kept _
  · cases stored

theorem copySpan_ensures {spans : Spans} (offset : Int32) (closed : SwitchtypeClosed spans) :
    (copySpan spans offset).Ensures SwitchtypeClosed := updateAt_ensures offset fun _ => closed

theorem storeChannel_ensures {spans : Spans} (token : Text) (closed : SwitchtypeClosed spans) :
    (storeChannel spans token).Ensures SwitchtypeClosed := by
  unfold storeChannel
  apply Checked.Ensures.ite
  · intro _
    exact .ok closed
  · intro _
    apply Checked.Ensures.ite
    · intro _
      exact .ok (.update closed)
    · intro _
      exact .error

theorem parseChannelBitmapLine_ensures {spans : Spans} (line : Text)
    (closed : SwitchtypeClosed spans) :
    (parseChannelBitmapLine spans line).Ensures SwitchtypeClosed := by
  rw [parseChannelBitmapLine]
  cases tokens [comma] line with
  | nil => exact .error
  | cons first others =>
      apply Checked.Ensures.bind
      · exact .foldlM (fun spans token closed => storeChannel_ensures token closed) _ closed
      · exact fun spans closed => copySpan_ensures _ closed

theorem parseChannelLine_ensures {spans : Spans} (line : Text) (closed : SwitchtypeClosed spans) :
    (parseChannelLine spans line).Ensures fun result => SwitchtypeClosed result.2 := by
  rw [parseChannelLine]
  cases scanInts [minus, comma, minus] line with
  | nil => exact .ok closed
  | cons first others =>
      apply Checked.Ensures.ite
      · intro _
        exact .ok closed
      · intro _
        apply Checked.Ensures.bind
        · exact copySpan_ensures _ (.update closed)
        · exact fun spans closed => .ok closed

theorem parseChannel_ensures (standardMode : Bool) (raw : Text) {spans : Spans}
    (closed : SwitchtypeClosed spans) :
    (parseChannel standardMode raw spans).Ensures SwitchtypeClosed := by
  unfold parseChannel
  split
  · exact .error
  · apply Checked.Ensures.bind
    · exact parseChannelLine_ensures _ closed
    · exact fun result closed => .ok closed
  · exact parseChannelBitmapLine_ensures _ closed
  · exact parseChannelBitmapLine_ensures _ closed

theorem applySetting_ensures (standardMode : Bool) (key raw : Text) {spans : Spans}
    (closed : SwitchtypeClosed spans) :
    (applySetting standardMode key raw spans).Ensures SwitchtypeClosed := by
  have enabled : SwitchtypeClosed (spans.update fun span => { span with enable := 1 }) := .update closed
  unfold applySetting
  generalize spans.update (fun span => { span with enable := 1 }) = spans at enabled
  have copied (value : Text) : SwitchtypeClosed (spans.update fun span =>
      { span with isdn.switchtype := span.isdn.switchtype.strncpy value 15 }) :=
    .update (enabled.strncpy value (by decide) (by decide))
  repeat' refine Checked.Ensures.ite (fun _ => ?_) fun _ => ?_
  all_goals first
    | exact Checked.Ensures.ok (SwitchtypeClosed.update enabled)
    | exact Checked.Ensures.ok (copied _)
    | exact parseChannel_ensures standardMode raw enabled
    | exact Checked.Ensures.ok enabled

theorem parseChanDahdiConf_ensures (standardMode : Bool) (files : Files) {spans : Spans}
    (closed : SwitchtypeClosed spans) :
    (parseChanDahdiConf standardMode files spans).Ensures fun result => SwitchtypeClosed result.2 := by
  unfold parseChanDahdiConf
  split
  · exact .ok closed
  · rw [parseLines_eq_foldl]
    apply Checked.Ensures.bind
    · refine .foldl ?_ _ (.ok closed)
      exact fun state line closed => closed.bind fun spans closed => applySetting_ensures _ _ _ closed
    · exact fun spans closed => .ok closed

theorem parseSpanFields_ensures {spans : Spans} (tokens : List Text)
    (closed : SwitchtypeClosed spans) : (parseSpanFields spans tokens).Ensures SwitchtypeClosed := by
  intro next parsed
  by_cases complete : Complete tokens
  · obtain ⟨after, same, changes⟩ := parseSpanFields_complete spans complete
    rw [same] at parsed
    cases parsed
    have first : next.first = spans.first.after (settingOf frontNumber 0 tokens) := changes 0
    rw [SwitchtypeClosed, first]
    cases settingOf frontNumber 0 tokens <;> exact closed
  · rw [parseSpanFields_incomplete spans complete] at parsed
    cases parsed

theorem parseSystemConf_ensures (files : Files) {spans : Spans} (closed : SwitchtypeClosed spans) :
    (parseSystemConf files spans).Ensures fun result => SwitchtypeClosed result.2 := by
  unfold parseSystemConf
  split
  · exact .ok closed
  · rw [foldl_systemStep]
    apply Checked.Ensures.bind
    · exact .foldlM (fun spans tokens closed => parseSpanFields_ensures tokens closed) _ closed
    · exact fun spans closed => .ok closed

/-- Whatever the two files hold, the switch type of every parsed span is terminated. -/
theorem parseConfig_terminated (standardMode : Bool) (files : Files) :
    (parseConfig standardMode files).Ensures fun found => ∀ spans ∈ found,
      ∀ index : Fin numSpans, (spans.get index).isdn.switchtype.Terminated := by
  have cleared : SwitchtypeClosed .zero := CharArray.closed_zero 15
  unfold parseConfig
  refine Checked.Ensures.bind (parseChanDahdiConf_ensures standardMode files cleared) ?_
  rintro ⟨status, spans⟩ closed
  refine Checked.Ensures.ite (fun _ => .ok nofun) fun _ => ?_
  refine Checked.Ensures.bind (parseSystemConf_ensures files closed) ?_
  rintro ⟨status, spans⟩ closed
  refine Checked.Ensures.ite (fun _ => .ok nofun) fun _ => .ok ?_
  rintro _ same index
  cases same
  obtain rfl : index = 0 := Subsingleton.elim _ _
  exact closed.terminated

end Dahdi

/-! ## All three -/

/-- Every string of the structures that the three parsers return is terminated. The parser of
`sip.conf` must return, as its only fault is a codec stored behind the structure that it
then hands out. The faults of the parser of the two other files are in numbers and do not
concern the one string that it stores, so only the parses that return are asked about. -/
def AllTerminated (charSigned standardMode : Bool) (files : Files) : Prop :=
  Sip.ParsesTerminated charSigned files ∧
    (∀ conf, SysLog.parseConfig files = some conf → conf.remoteHost.Terminated) ∧
    (Dahdi.parseConfig standardMode files).Ensures fun found => ∀ spans ∈ found,
      ∀ index : Fin Dahdi.numSpans, (spans.get index).isdn.switchtype.Terminated

/-- That holds exactly if `sip.conf` keeps the two session values short. -/
theorem allTerminated_iff (charSigned standardMode : Bool) (files : Files) :
    AllTerminated charSigned standardMode files ↔
      ∀ text, files.openRead Sip.fileSipConf = some text →
        Sip.ShortSessionValues (Sip.linesOf text) := by
  rw [← Sip.parsesTerminated_iff charSigned files]
  constructor
  · exact fun all => all.1
  · exact fun sip => ⟨sip, fun _ parsed => SysLog.parseConfig_terminated parsed,
      Dahdi.parseConfig_terminated standardMode files⟩

/-- A file whose value of `session-timers` takes up the whole array. -/
def longTimers : Text := lit "session-timers=originate-always\n"

theorem longTimers_value :
    (valuesOf "session-timers" (Sip.linesOf longTimers)).getLast? = some (lit "originate-always") := by
  decide

/-- The structure that is parsed from it has sixteen bytes in that array and no NUL. -/
theorem longTimers_unterminated :
    ¬ AllTerminated true true (Files.empty.write Sip.fileSipConf longTimers) := by
  rintro ⟨sip, -⟩
  have short := (Sip.parsesTerminated_iff _ _).mp sip longTimers (Files.openRead_write_self _ rfl)
  have room := short.2.1 (lit "originate-always") longTimers_value
  exact absurd room (by decide)

end Libamg
