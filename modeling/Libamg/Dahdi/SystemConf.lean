import Libamg.C.Lines
import Libamg.Dahdi.Config

/-!
# Reading any system.conf

What `libamg_dahdi_parse_system_conf` makes of a file with any lines. `strtok` passes over
empty fields, `atoi` takes the number at the front of a field and anything else for 0, and
a `span=` line that runs out of fields hands it a NULL. `readsSpans_iff` says for which
files this is the same as reading the fields that the lines have.
-/

namespace Libamg.Dahdi

open C

/-- The comma separated fields of a `span=` line, `none` for any other line. A field between
two commas is one also when it is empty. -/
def spanFields (line : Text) : Option (List Text) :=
  if (lit "span=").isPrefixOf (cstr line) then
    some ((crop dahdiDelimiters ((cstr line).drop 5)).splitOn comma)
  else none

example : spanFields (lit "span=1,,0,ccs # clock?\n") = some [lit "1", [], lit "0", lit "ccs"] := by
  decide

/-- The fields that `strtok` finds. -/
def present (fields : List Text) : List Text := fields.filter (· ≠ [])

/-- A span number of the array, counted from 1. -/
def SpanNumber (number : Int) : Prop := 1 ≤ number ∧ number ≤ numSpans

/-- A clock source. -/
def ClockSource (clock : Int) : Prop := 0 ≤ clock ∧ clock ≤ numSpans

instance (number : Int) : Decidable (SpanNumber number) := inferInstanceAs (Decidable (_ ∧ _))

instance (clock : Int) : Decidable (ClockSource clock) := inferInstanceAs (Decidable (_ ∧ _))

/-- The clock that a line gives to a span, and whether it asks for the CRC. -/
structure Setting where
  clock : Int
  crc : Bool
deriving DecidableEq

/-- What fields give to a span: the first names the span, the second is a clock source in
range, and the sixth may ask for the CRC. `number` says which number a field is. -/
def settingOf (number : Text → Option Int) (index : Fin numSpans) : List Text → Option Setting
  | span :: clock :: rest =>
      match number span, number clock with
      | some named, some source =>
          if named = index + 1 ∧ ClockSource source then
            some { clock := source, crc := rest[3]? = some (lit "crc4") }
          else none
      | _, _ => none
  | _ => none

/-- The first two fields are missing or out of range. -/
def Missing (fields : List Text) : Prop := ∀ index, settingOf numberOf index fields = none

/-- What the last of some lines that gives a span something gives it. -/
def lastSetting (number : Text → Option Int) (index : Fin numSpans) (lines : List (List Text)) :
    Option Setting :=
  (lines.filterMap (settingOf number index)).getLast?

/-- What the lines of a file give to a span. -/
def given (index : Fin numSpans) (lines : List Text) : Option Setting :=
  lastSetting numberOf index (lines.filterMap spanFields)

/-- The number at the front of a field, 0 if there is none. -/
def frontNumber (field : Text) : Option Int := some (strtol field)

/-- What buffers give to a span when their empty fields are left out and numbers are read
from the front of a field. -/
def taken (index : Fin numSpans) (buffers : List Text) : Option Setting :=
  lastSetting frontNumber index ((buffers.filterMap spanFields).map present)

/-- A span that was enabled with a clock and a CRC. -/
def Span.enabled (span : Span) (setting : Setting) : Span :=
  { span with
    enable := 1
    clock := Int32.ofInt setting.clock
    crc := if setting.crc then 1 else 0 }

/-- A span after what it was given, if anything. -/
def Span.after (span : Span) (setting : Option Setting) : Span := setting.elim span span.enabled

/-- A line with a number, and with a clock behind the number of a span. -/
def Complete : List Text → Prop
  | [] => False
  | [number] => ¬ SpanNumber (strtol number)
  | _ :: _ :: _ => True

instance : DecidablePred Complete
  | [] => inferInstanceAs (Decidable False)
  | [number] => inferInstanceAs (Decidable (¬ SpanNumber (strtol number)))
  | _ :: _ :: _ => inferInstanceAs (Decidable True)

/-! ## Numbers -/

/-- The range checks of the source. -/
theorem not_spanNumber_iff (token : Text) :
    (atoi token < 1 ∨ atoi token > Int32.ofNat numSpans) ↔ ¬ SpanNumber (strtol token) := by
  have value := toInt_atoi token
  rw [SpanNumber, gt_iff_lt, Int32.lt_iff_toInt_lt, Int32.lt_iff_toInt_lt, value]
  change max (-2 ^ 31) (min (2 ^ 31 - 1) (strtol token)) < 1 ∨
    1 < max (-2 ^ 31) (min (2 ^ 31 - 1) (strtol token)) ↔ ¬ (1 ≤ strtol token ∧ strtol token ≤ 1)
  omega

theorem not_clockSource_iff (token : Text) :
    (atoi token < 0 ∨ atoi token > Int32.ofNat numSpans) ↔ ¬ ClockSource (strtol token) := by
  have value := toInt_atoi token
  rw [ClockSource, gt_iff_lt, Int32.lt_iff_toInt_lt, Int32.lt_iff_toInt_lt, value]
  change max (-2 ^ 31) (min (2 ^ 31 - 1) (strtol token)) < 0 ∨
    1 < max (-2 ^ 31) (min (2 ^ 31 - 1) (strtol token)) ↔ ¬ (0 ≤ strtol token ∧ strtol token ≤ 1)
  omega

/-- A number in range is not saturated. -/
theorem atoi_of_clockSource {token : Text} (source : ClockSource (strtol token)) :
    atoi token = Int32.ofInt (strtol token) := by
  obtain ⟨lower, upper⟩ : 0 ≤ strtol token ∧ strtol token ≤ 1 := source
  have inside : max (-2 ^ 31) (min (2 ^ 31 - 1) (strtol token)) = strtol token := by omega
  rw [atoi, inside]

theorem atoi_of_spanNumber {token : Text} (number : SpanNumber (strtol token)) : atoi token = 1 := by
  obtain ⟨lower, upper⟩ : 1 ≤ strtol token ∧ strtol token ≤ 1 := number
  have one : strtol token = 1 := Int.le_antisymm upper lower
  rw [atoi_of_clockSource ⟨by omega, upper⟩, one]
  rfl

theorem settingOf_front (index : Fin numSpans) (span clock : Text) (rest : List Text) :
    settingOf frontNumber index (span :: clock :: rest) =
      if SpanNumber (strtol span) ∧ ClockSource (strtol clock) then
        some { clock := strtol clock, crc := rest[3]? = some (lit "crc4") }
      else none := by
  obtain rfl : index = 0 := Subsingleton.elim _ _
  have named : strtol span = ((0 : Fin numSpans) : Int) + 1 ↔ SpanNumber (strtol span) := by
    change strtol span = 0 + 1 ↔ 1 ≤ strtol span ∧ strtol span ≤ 1
    omega
  simp only [settingOf, frontNumber, named]

/-- The clock of a setting is in range. -/
theorem clockSource_of_settingOf {number : Text → Option Int} {index : Fin numSpans}
    {fields : List Text} {setting : Setting} (gives : settingOf number index fields = some setting) :
    ClockSource setting.clock := by
  unfold settingOf at gives
  split at gives
  · split at gives
    · obtain ⟨⟨-, source⟩, same⟩ := Option.ite_none_right_eq_some.mp gives
      rw [← Option.some.inj same]
      exact source
    · cases gives
  · cases gives

theorem clockSource_of_lastSetting {number : Text → Option Int} {index : Fin numSpans}
    {lines : List (List Text)} {setting : Setting}
    (gives : lastSetting number index lines = some setting) : ClockSource setting.clock := by
  obtain ⟨fields, -, found⟩ := List.mem_filterMap.mp (List.mem_of_getLast? gives)
  exact clockSource_of_settingOf found

theorem flag_inj {first second : Bool}
    (same : (if first then (1 : Int32) else 0) = if second then 1 else 0) : first = second := by
  revert same
  cases first <;> cases second <;> decide

/-- A cleared span shows what it was given. -/
theorem after_zero_inj {first second : Option Setting}
    (firstSource : ∀ setting ∈ first, ClockSource setting.clock)
    (secondSource : ∀ setting ∈ second, ClockSource setting.clock)
    (same : Span.zero.after first = Span.zero.after second) : first = second := by
  have off : (0 : Int32) ≠ 1 := by decide
  have on : (1 : Int32) ≠ 0 := by decide
  rcases first with - | ⟨clock, crc⟩ <;> rcases second with - | ⟨other, otherCrc⟩
  · rfl
  · exact absurd (congrArg Span.enable same) off
  · exact absurd (congrArg Span.enable same) on
  · obtain ⟨lower, upper⟩ : 0 ≤ clock ∧ clock ≤ 1 := firstSource _ rfl
    obtain ⟨otherLower, otherUpper⟩ : 0 ≤ other ∧ other ≤ 1 := secondSource _ rfl
    have clocks : Int32.ofInt clock = Int32.ofInt other := congrArg Span.clock same
    have sameCrc : crc = otherCrc := flag_inj (congrArg Span.crc same)
    have sameClock : clock = other := by
      have values := congrArg Int32.toInt clocks
      rwa [Int32.toInt_ofInt_of_le (by omega) (by omega),
        Int32.toInt_ofInt_of_le (by omega) (by omega)] at values
    rw [sameClock, sameCrc]

/-! ## One line -/

section Line

variable {tokens : List Text}

/-- Without a number, or with the number of a span and no clock, `atoi` gets a NULL. -/
theorem parseSpanFields_incomplete (spans : Spans) (incomplete : ¬ Complete tokens) :
    parseSpanFields spans tokens = .error .nullPointer := by
  rcases tokens with - | ⟨number, - | ⟨clock, rest⟩⟩
  · rfl
  · have range : ¬ (atoi number < 1 ∨ atoi number > Int32.ofNat numSpans) := by
      rw [not_spanNumber_iff]
      exact incomplete
    simp only [parseSpanFields, List.getElem?_cons_zero, if_neg range]
    rfl
  · exact absurd trivial incomplete

/-- A line with the number of no span changes nothing. -/
theorem parseSpanFields_outside (spans : Spans) {number : Text} (rest : List Text)
    (outside : ¬ SpanNumber (strtol number)) :
    parseSpanFields spans (number :: rest) = .ok spans := by
  have range := (not_spanNumber_iff number).mpr outside
  simp only [parseSpanFields, List.getElem?_cons_zero, if_pos range]

/-- Nor does a line with a clock out of range. -/
theorem parseSpanFields_clockless (spans : Spans) {number clock : Text} (rest : List Text)
    (inside : SpanNumber (strtol number)) (outside : ¬ ClockSource (strtol clock)) :
    parseSpanFields spans (number :: clock :: rest) = .ok spans := by
  have range : ¬ (atoi number < 1 ∨ atoi number > Int32.ofNat numSpans) := by
    rw [not_spanNumber_iff]
    exact not_not.mpr inside
  have clockRange := (not_clockSource_iff clock).mpr outside
  simp only [parseSpanFields, List.getElem?_cons_zero, List.getElem?_cons_succ, if_neg range,
    if_pos clockRange]

theorem parseSpanFields_valid (spans : Spans) {number clock : Text} (rest : List Text)
    (inside : SpanNumber (strtol number)) (source : ClockSource (strtol clock)) :
    parseSpanFields spans (number :: clock :: rest) = .ok (spans.update fun span =>
      span.enabled { clock := strtol clock, crc := rest[3]? = some (lit "crc4") }) := by
  have clockRange : ¬ (atoi clock < 0 ∨ atoi clock > Int32.ofNat numSpans) := by
    rw [not_clockSource_iff]
    exact not_not.mpr source
  simp only [parseSpanFields, List.getElem?_cons_zero, List.getElem?_cons_succ, if_neg clockRange,
    atoi_of_spanNumber inside, Span.enabled, ← atoi_of_clockSource source, decide_eq_true_eq]
  rfl

/-- A complete line does to each span what its tokens say. -/
theorem parseSpanFields_complete (spans : Spans) (complete : Complete tokens) :
    ∃ next, parseSpanFields spans tokens = .ok next ∧
      ∀ index : Fin numSpans,
        next.get index = (spans.get index).after (settingOf frontNumber index tokens) := by
  rcases tokens with - | ⟨number, - | ⟨clock, rest⟩⟩
  · exact complete.elim
  · exact ⟨spans, parseSpanFields_outside spans [] complete, fun _ => rfl⟩
  · by_cases inside : SpanNumber (strtol number)
    · by_cases source : ClockSource (strtol clock)
      · refine ⟨_, parseSpanFields_valid spans rest inside source, fun index => ?_⟩
        rw [settingOf_front, if_pos ⟨inside, source⟩]
        obtain rfl : index = 0 := Subsingleton.elim _ _
        exact Spans.first_update spans _
      · refine ⟨spans, parseSpanFields_clockless spans rest inside source, fun index => ?_⟩
        rw [settingOf_front, if_neg fun both => source both.2]
        rfl
    · refine ⟨spans, parseSpanFields_outside spans _ inside, fun index => ?_⟩
      rw [settingOf_front, if_neg fun both => inside both.1]
      rfl

end Line

/-! ## Whole files -/

/-- Run the loop over the `span=` lines. -/
def readSpans (spans : Spans) (lines : List (List Text)) : Checked Spans :=
  lines.foldlM parseSpanFields spans

theorem readSpans_snoc (spans : Spans) (lines : List (List Text)) (tokens : List Text) :
    readSpans spans (lines ++ [tokens]) =
      readSpans spans lines >>= fun spans => parseSpanFields spans tokens := by
  rw [readSpans, List.foldlM_append]
  simp only [List.foldlM_cons, List.foldlM_nil, bind_pure]
  rfl

theorem lastSetting_append (number : Text → Option Int) (index : Fin numSpans)
    (first second : List (List Text)) :
    lastSetting number index (first ++ second) =
      (lastSetting number index second).or (lastSetting number index first) := by
  rw [lastSetting, List.filterMap_append, List.getLast?_append]
  rfl

theorem after_or (span : Span) (later earlier : Option Setting) :
    span.after (later.or earlier) = (span.after earlier).after later := by
  cases later <;> cases earlier <;> rfl

/-- While lines are complete, the last one that sets a span decides. -/
theorem readSpans_complete (spans : Spans) {lines : List (List Text)}
    (complete : ∀ tokens ∈ lines, Complete tokens) :
    ∃ after, readSpans spans lines = .ok after ∧ ∀ index : Fin numSpans,
      after.get index = (spans.get index).after (lastSetting frontNumber index lines) := by
  induction lines using List.reverseRecOn with
  | nil => exact ⟨spans, rfl, fun _ => rfl⟩
  | append_singleton lines tokens inductionHypothesis =>
      obtain ⟨before, soFar, earlier⟩ := inductionHypothesis
        fun tokens member => complete tokens (List.mem_append_left _ member)
      obtain ⟨after, last, changes⟩ := parseSpanFields_complete before
        (complete tokens (List.mem_append_right _ List.mem_cons_self))
      refine ⟨after, ?_, fun index => ?_⟩
      · rw [readSpans_snoc, soFar]
        exact last
      · have single : lastSetting frontNumber index [tokens] = settingOf frontNumber index tokens := by
          rw [lastSetting]
          cases gives : settingOf frontNumber index tokens with
          | none => rw [List.filterMap_cons_none gives]; rfl
          | some setting => rw [List.filterMap_cons_some gives]; rfl
        rw [changes index, earlier index, lastSetting_append, single, after_or]

theorem parseSpanFields_onlyFaults (spans : Spans) (tokens : List Text) :
    (parseSpanFields spans tokens).OnlyFaults .nullPointer := by
  by_cases complete : Complete tokens
  · obtain ⟨next, parsed, -⟩ := parseSpanFields_complete spans complete
    rw [parsed]
    exact .ok
  · rw [parseSpanFields_incomplete spans complete]
    exact .error

/-- The first incomplete line ends the run. -/
theorem readSpans_incomplete (spans : Spans) {lines : List (List Text)}
    (incomplete : ¬ ∀ tokens ∈ lines, Complete tokens) :
    readSpans spans lines = .error .nullPointer := by
  obtain ⟨tokens, listed, missing⟩ : ∃ tokens ∈ lines, ¬ Complete tokens := by
    simpa using incomplete
  exact Checked.foldlM_faults parseSpanFields_onlyFaults
    (fun spans => parseSpanFields_incomplete spans missing) listed spans

/-- A buffer that begins with `span=` is cut behind these five bytes. -/
theorem nextToken_spanLine {buffer : Text} (spanLine : (lit "span=").isPrefixOf buffer = true) :
    Str.nextToken buffer equals = some (lit "span", buffer.drop 5) := by
  obtain ⟨rest, rfl⟩ := List.isPrefixOf_iff_prefix.mp spanLine
  have shape : lit "span=" ++ rest = lit "span" ++ equals :: rest := rfl
  rw [shape, Str.nextToken, splitFirst_append rest (by decide)]
  rfl

/-- One turn of the loop, through the fields of the buffer. -/
theorem systemStep_eq (state : Checked Spans) (buffer : Text) :
    systemStep state buffer = (spanFields buffer).elim state
      fun fields => state >>= fun spans => parseSpanFields spans (present fields) := by
  rw [systemStep, spanFields]
  split
  · rename_i spanLine
    rw [nextToken_spanLine spanLine]
    simp only [tokens_eq_filter]
    rfl
  · rfl

/-- The tokens of the `span=` lines among some buffers. -/
def spanTokens (buffers : List Text) : List (List Text) := (buffers.filterMap spanFields).map present

theorem spanTokens_append (first second : List Text) :
    spanTokens (first ++ second) = spanTokens first ++ spanTokens second := by
  rw [spanTokens, List.filterMap_append, List.map_append]
  rfl

theorem foldl_systemStep (buffers : List Text) (state : Checked Spans) :
    buffers.foldl systemStep state = state >>= fun spans => readSpans spans (spanTokens buffers) := by
  induction buffers generalizing state with
  | nil =>
      cases state <;> rfl
  | cons buffer buffers inductionHypothesis =>
      rw [List.foldl_cons, inductionHypothesis, systemStep_eq, spanTokens, spanTokens]
      cases isSpan : spanFields buffer with
      | none => rw [List.filterMap_cons_none isSpan]; rfl
      | some fields =>
          rw [List.filterMap_cons_some isSpan]
          cases state <;> rfl

/-- The buffers that some lines are read in. -/
def buffersOf (lines : List Text) : List Text := lines.flatMap (fgetsLines bufSize)

/-- The loop over the beginning of a file. -/
def runLines (spans : Spans) (lines : List Text) : Checked Spans :=
  (buffersOf lines).foldl systemStep (.ok spans)

theorem parseSystemConf_eq {files : Files} {text : Text} (spans : Spans)
    (opened : files.openRead fileDahdiSystemConf = some text) :
    parseSystemConf files spans =
      runLines spans (splitLines text) >>= fun spans => .ok (0, spans) := by
  rw [parseSystemConf, opened, runLines, buffersOf, ← fgetsLines_eq_flatMap]
  rfl

theorem runLines_eq (spans : Spans) (lines : List Text) :
    runLines spans lines = readSpans spans (spanTokens (buffersOf lines)) := foldl_systemStep _ _

/-- While every buffer is complete, each span is as they say. -/
theorem runLines_complete (spans : Spans) {lines : List Text}
    (complete : ∀ tokens ∈ spanTokens (buffersOf lines), Complete tokens) :
    ∃ after, runLines spans lines = .ok after ∧ ∀ index : Fin numSpans,
      after.get index = (spans.get index).after (taken index (buffersOf lines)) := by
  rw [runLines_eq]
  exact readSpans_complete spans complete

theorem taken_snoc (index : Fin numSpans) (lines : List Text) (line : Text) :
    taken index (buffersOf (lines ++ [line])) =
      (taken index (fgetsLines bufSize line)).or (taken index (buffersOf lines)) := by
  have pieces : buffersOf (lines ++ [line]) = buffersOf lines ++ fgetsLines bufSize line := by
    rw [buffersOf, List.flatMap_append, List.flatMap_singleton]
    rfl
  have both := spanTokens_append (buffersOf lines) (fgetsLines bufSize line)
  rw [pieces, taken, taken, taken, ← lastSetting_append, ← spanTokens, both]
  rfl

/-- What is to come of a file: the parser comes to its end, every span is as the last line
says that gives it something, or as it was, and a line with missing or out-of-range fields
changes neither `enable` nor `crc`. -/
structure ReadsSpans (files : Files) (text : Text) : Prop where
  decides : ∀ spans, ∃ after, parseSystemConf files spans = .ok (0, after) ∧
    ∀ index, after.get index = (spans.get index).after (given index (splitLines text))
  ignores : ∀ before line behind fields, splitLines text = before ++ line :: behind →
    spanFields line = some fields → Missing fields → ∀ spans old new,
    runLines spans before = .ok old → runLines spans (before ++ [line]) = .ok new →
    ∀ index, (new.get index).enable = (old.get index).enable ∧
      (new.get index).crc = (old.get index).crc

/-- Where leaving out empty fields and reading numbers from the front does no harm: a line is
not cut short, the file gives each span the same in the end, and a line with missing or
out-of-range fields gives nothing, or the CRC that the span has from lines before. -/
structure SameWithoutEmpty (text : Text) : Prop where
  complete : ∀ tokens ∈ spanTokens (buffersOf (splitLines text)), Complete tokens
  last : ∀ index, taken index (buffersOf (splitLines text)) = given index (splitLines text)
  missing : ∀ before line behind fields, splitLines text = before ++ line :: behind →
    spanFields line = some fields → Missing fields →
    ∀ index, ∀ setting ∈ taken index (fgetsLines bufSize line),
      ∃ earlier ∈ taken index (buffersOf before), earlier.crc = setting.crc

theorem complete_prefix {text line : Text} {before behind : List Text}
    (complete : ∀ tokens ∈ spanTokens (buffersOf (splitLines text)), Complete tokens)
    (shape : splitLines text = before ++ line :: behind) :
    (∀ tokens ∈ spanTokens (buffersOf before), Complete tokens) ∧
      ∀ tokens ∈ spanTokens (buffersOf (before ++ [line])), Complete tokens := by
  have whole : buffersOf (splitLines text) = buffersOf (before ++ [line]) ++ buffersOf behind := by
    rw [shape, List.append_cons, buffersOf, List.flatMap_append]
    rfl
  have front : buffersOf (before ++ [line]) = buffersOf before ++ buffersOf [line] :=
    List.flatMap_append
  refine ⟨fun tokens member => complete tokens ?_, fun tokens member => complete tokens ?_⟩
  · rw [whole, front, spanTokens_append, spanTokens_append]
    exact List.mem_append_left _ (List.mem_append_left _ member)
  · rw [whole, spanTokens_append]
    exact List.mem_append_left _ member

theorem get_zero (index : Fin numSpans) : (Vector.replicate numSpans Span.zero).get index = .zero :=
  Vector.getElem_replicate _

/-- The run from cleared spans tells the two readings apart. -/
theorem ReadsSpans.sameWithoutEmpty {files : Files} {text : Text}
    (opened : files.openRead fileDahdiSystemConf = some text) (reads : ReadsSpans files text) :
    SameWithoutEmpty text := by
  have parsed := parseSystemConf_eq (.replicate numSpans .zero) opened
  obtain ⟨after, returned, isGiven⟩ := reads.decides (.replicate numSpans .zero)
  have complete : ∀ tokens ∈ spanTokens (buffersOf (splitLines text)), Complete tokens := by
    by_contra incomplete
    rw [parsed, runLines_eq, readSpans_incomplete _ incomplete] at returned
    cases returned
  refine ⟨complete, fun index => ?_, ?_⟩
  · obtain ⟨final, ran, isTaken⟩ := runLines_complete (.replicate numSpans .zero) complete
    rw [parsed, ran] at returned
    cases returned
    have same := (isTaken index).symm.trans (isGiven index)
    rw [get_zero] at same
    exact after_zero_inj (fun _ => clockSource_of_lastSetting) (fun _ => clockSource_of_lastSetting)
      same
  · intro before line behind fields shape isSpan isMissing index setting gives
    obtain ⟨completeBefore, completeLine⟩ := complete_prefix complete shape
    obtain ⟨old, ranBefore, atOld⟩ := runLines_complete (.replicate numSpans .zero) completeBefore
    obtain ⟨new, ranLine, atNew⟩ := runLines_complete (.replicate numSpans .zero) completeLine
    obtain ⟨enable, crc⟩ :=
      reads.ignores before line behind fields shape isSpan isMissing _ old new ranBefore ranLine index
    rw [atNew, atOld, taken_snoc, gives, get_zero] at enable crc
    cases earlier : taken index (buffersOf before) with
    | none =>
        have off : (1 : Int32) ≠ 0 := by decide
        rw [earlier] at enable
        exact absurd enable off
    | some first =>
        rw [earlier] at crc
        exact ⟨first, rfl, (flag_inj crc).symm⟩

theorem SameWithoutEmpty.readsSpans {files : Files} {text : Text}
    (opened : files.openRead fileDahdiSystemConf = some text) (same : SameWithoutEmpty text) :
    ReadsSpans files text := by
  refine ⟨fun spans => ?_, ?_⟩
  · obtain ⟨after, ran, isTaken⟩ := runLines_complete spans same.complete
    refine ⟨after, by rw [parseSystemConf_eq spans opened, ran]; rfl, fun index => ?_⟩
    rw [isTaken, same.last]
  · intro before line behind fields shape isSpan isMissing spans old new ranBefore ranLine index
    obtain ⟨completeBefore, completeLine⟩ := complete_prefix same.complete shape
    obtain ⟨_, ranOld, atOld⟩ := runLines_complete spans completeBefore
    obtain ⟨_, ranNew, atNew⟩ := runLines_complete spans completeLine
    rw [ranBefore] at ranOld
    rw [ranLine] at ranNew
    cases ranOld
    cases ranNew
    rw [atNew, atOld, taken_snoc]
    cases gives : taken index (fgetsLines bufSize line) with
    | none => exact ⟨rfl, rfl⟩
    | some setting =>
        obtain ⟨first, earlier, sameCrc⟩ :=
          same.missing before line behind fields shape isSpan isMissing index setting gives
        rw [earlier]
        refine ⟨rfl, ?_⟩
        change (if setting.crc then (1 : Int32) else 0) = if first.crc then 1 else 0
        rw [sameCrc]

/-- The parser reads the fields that the lines have exactly then. -/
theorem readsSpans_iff {files : Files} {text : Text}
    (opened : files.openRead fileDahdiSystemConf = some text) :
    ReadsSpans files text ↔ SameWithoutEmpty text :=
  ⟨ReadsSpans.sameWithoutEmpty opened, SameWithoutEmpty.readsSpans opened⟩

/-- A file with a comment behind the fields and a line for a span that does not exist. -/
def spanText : Text := lit "span=1,1,0,ccs,hdb3,crc4 # first\nspan=7,0\n"

theorem readsSpans_iff_witness :
    ReadsSpans (Files.empty.write fileDahdiSystemConf spanText) spanText ↔
      SameWithoutEmpty spanText :=
  readsSpans_iff (Files.openRead_write_self _ rfl)

/-- A line without a clock. -/
def clocklessText : Text := lit "span=1\n"

/-- The second `strtok` finds no field, and its NULL goes to `atoi`. -/
theorem missing_clock_faults :
    parseSystemConf (Files.empty.write fileDahdiSystemConf clocklessText) (.replicate 1 .zero) =
      .error .nullPointer ∧
    ¬ ReadsSpans (Files.empty.write fileDahdiSystemConf clocklessText) clocklessText := by
  have incomplete : ¬ ∀ tokens ∈ spanTokens (buffersOf (splitLines clocklessText)), Complete tokens := by
    decide
  have faults : parseSystemConf (Files.empty.write fileDahdiSystemConf clocklessText)
      (.replicate 1 .zero) = .error .nullPointer := by
    rw [parseSystemConf_eq _ (Files.openRead_write_self _ rfl), runLines_eq,
      readSpans_incomplete _ incomplete]
    rfl
  refine ⟨faults, ?_⟩
  rintro ⟨decides, -⟩
  obtain ⟨after, returned, -⟩ := decides (.replicate 1 .zero)
  rw [faults] at returned
  cases returned

end Libamg.Dahdi
