import Libamg.Dahdi.Save

/-!
# Reading back a saved DAHDI configuration

The lines of both files are followed through their parsers. `parseConfig_lines` says
what comes back when the files were saved for two spans, and `parseConfig_saved` what
comes back when they were saved together.
-/

namespace Libamg.Dahdi

open C

/-! ## The printed lines fit the line buffer -/

/-- A value that is printed into one line and is what the crop step leaves of it. -/
structure Printable (value : Text) : Prop where
  clean : Clean value
  noNul : 0 ∉ value
  short : value.length ≤ 100

instance (value : Text) : Decidable (Printable value) :=
  decidable_of_iff (Clean value ∧ 0 ∉ value ∧ value.length ≤ 100)
    ⟨fun parts => ⟨parts.1, parts.2.1, parts.2.2⟩, fun printable =>
      ⟨printable.clean, printable.noNul, printable.short⟩⟩

/-- Cropping the printed value gives it back. -/
theorem Printable.crop {value : Text} (printable : Printable value) (nonempty : value ≠ []) :
    crop dahdiDelimiters (value ++ [newline]) = value := by
  rw [crop_line printable.clean (by decide), cropped_eq_self nonempty]

theorem Printable.wellFormed {key : String} {value : Text} (printable : Printable value)
    (keyShape : (newline ∉ lit key ∧ 0 ∉ lit key ∧ equals ∉ lit key) ∧ (lit key).length ≤ 30) :
    (Entry.setting (lit key) value).WellFormed bufSize := by
  have noNewline : newline ∉ value := fun member => printable.clean newline member (by decide)
  have short := printable.short
  refine .ofSetting keyShape.1 ⟨noNewline, printable.noNul⟩ ?_
  have buffer : bufSize = 256 := rfl
  omega

theorem clean_printInt (n : Int) : Clean (printInt n) := by
  intro byte member delimiter
  have others : dahdiDelimiters.all (fun byte => !isDigit byte && byte ≠ minus) = true := by decide
  have other := List.all_eq_true.mp others byte delimiter
  simp only [Bool.and_eq_true, Bool.not_eq_true', decide_eq_true_eq] at other
  exact notMem_printInt other.1 other.2 n member

theorem printInt_printable (n : Int32) : Printable (printInt n.toInt) where
  clean := clean_printInt _
  noNul := (printInt_isWord _).nul_notMem
  short := (printInt32_length_le n).trans (by decide)

theorem yesNo_printable (flag : Int32) : Printable (yesNo flag) := by
  rw [yesNo, choose]
  split <;> decide

theorem yesNo_ne_nil (flag : Int32) : yesNo flag ≠ [] := by
  rw [yesNo, choose]
  split <;> decide

theorem signallingName_printable (signalling : Int32) : Printable (signallingName signalling) := by
  unfold signallingName
  split
  · decide
  · split <;> decide

theorem signallingName_ne_nil (signalling : Int32) : signallingName signalling ≠ [] := by
  unfold signallingName
  split
  · decide
  · split <;> decide

/-- The printed channels of a word fit a line. -/
theorem channels_printable (channelsBitmap : UInt32) :
    Printable (lit ">" ++ channelList (bitsOf channelsBitmap)) := by
  have items : ∀ item ∈ (bitsOf channelsBitmap).map fun number : Nat => printInt number,
      ∀ byte ∈ item, byte ∉ dahdiDelimiters ∧ byte ≠ 0 := by
    intro item member byte inItem
    obtain ⟨number, _, rfl⟩ := List.mem_map.mp member
    exact ⟨clean_printInt _ byte inItem, fun isNul => (printInt_isWord _).nul_notMem (isNul ▸ inItem)⟩
  have bytes : ∀ byte ∈ channelList (bitsOf channelsBitmap), byte ∉ dahdiDelimiters ∧ byte ≠ 0 :=
    forall_mem_intercalate (by decide) items
  have shortItems : ∀ item ∈ (bitsOf channelsBitmap).map fun number : Nat => printInt number,
      item.length ≤ 2 := by
    intro item member
    obtain ⟨number, inWord, rfl⟩ := List.mem_map.mp member
    have small := (mem_bitsOf.mp inWord).1
    exact printInt_natCast_length_le (by decide) (by omega)
  have length := @length_intercalate_le comma _ 2 shortItems
  have count : (bitsOf channelsBitmap).length ≤ 32 := by
    have filtered := List.length_filter_le (testBit channelsBitmap) (List.range 32)
    rwa [List.length_range] at filtered
  have sign : lit ">" = [62] := by decide
  rw [List.length_map] at length
  constructor
  · intro byte member
    rcases List.mem_append.mp member with inSign | inList
    · rw [sign, List.mem_singleton] at inSign
      rw [inSign]
      decide
    · exact (bytes byte inList).1
  · rw [List.mem_append, not_or]
    exact ⟨by decide, fun member => (bytes 0 member).2 rfl⟩
  · rw [List.length_append, channelList, sign, List.length_singleton]
    omega

theorem Representable.switchtype_printable {span : Span} (representable : Representable span) :
    Printable span.isdn.switchtype.str where
  clean := representable.switchtype
  noNul := span.isdn.switchtype.nul_notMem_str
  short := (CharArray.str_length_lt representable.terminated).le.trans (by decide)

theorem chanDahdiLines_wellFormed {span : Span} (representable : Representable span) :
    ∀ entry ∈ chanDahdiLines span, entry.WellFormed bufSize := by
  have header : ∀ entry ∈ headerLines, entry.WellFormed bufSize := by decide
  simp only [chanDahdiLines, isdnLines, mfcr2Lines, channelLines, List.forall_mem_append,
    List.forall_mem_cons]
  refine ⟨header, ⟨⟨(signallingName_printable _).wellFormed (by decide),
    (yesNo_printable _).wellFormed (by decide), by simp⟩, ?_⟩,
    ⟨(yesNo_printable _).wellFormed (by decide), (printInt_printable _).wellFormed (by decide),
      (printInt_printable _).wellFormed (by decide), (yesNo_printable _).wellFormed (by decide),
      (yesNo_printable _).wellFormed (by decide), by decide, by decide,
      (yesNo_printable _).wellFormed (by decide), by simp⟩, ?_⟩
  · split
    · simpa using representable.switchtype_printable.wellFormed (by decide)
    · simp
  · split
    · simpa using (channels_printable _).wellFormed (by decide)
    · simp

/-! ## Reading chan_dahdi.conf -/

/-- Read a list of lines into the spans. -/
def readLines (lines : List Entry) (spans : Spans) : Checked Spans :=
  lines.foldl (applyEntry [] (parseStep false)) (.ok spans)

section Lines

variable {key : String} {spans : Spans} {span : Span}

theorem readLines_nil : readLines [] spans = .ok spans := rfl

theorem readLines_other (text : Text) (lines : List Entry) :
    readLines (.other text :: lines) spans = readLines lines spans := rfl

theorem foldl_parseStep (lines : List Entry) (state : Checked Spans) :
    lines.foldl (applyEntry [] (parseStep false)) state = state >>= readLines lines := by
  apply Checked.foldl_eq_bind
  intro fault entry
  cases entry <;> rfl

theorem readLines_append (first second : List Entry) :
    readLines (first ++ second) spans = readLines first spans >>= readLines second := by
  rw [readLines, List.foldl_append, foldl_parseStep, readLines]

theorem readLines_setting (value : Text) (lines : List Entry) :
    readLines (.setting (lit key) value :: lines) spans =
      applySetting false (lit key) (value ++ [newline]) spans >>= readLines lines := by
  rw [readLines, List.foldl_cons, foldl_parseStep, applyEntry, crop_nil, parseStep, Checked.ok_bind]

theorem readLines_headerLines :
    readLines headerLines spans = .ok (spans.update fun span => { span with enable := 1 }) := by
  simp only [headerLines, readLines_setting, readLines_other, readLines_nil, applySetting,
    Checked.ok_bind, lit_inj, String.reduceEq, ↓reduceIte, and_false]
  refine congrArg Except.ok (Spans.ext_first ?_)
  simp only [Spans.first_update]

theorem signallingCode_signallingName {signalling : Int32}
    (enumerated : signalling = dahdiSigMfcr2 ∨ signalling = dahdiSigIsdnNet ∨
      signalling = dahdiSigIsdnCpe) : signallingCode (signallingName signalling) = signalling := by
  rcases enumerated with rfl | rfl | rfl <;> decide

/-- A flag that is on unless the file says `no`. -/
theorem notNo_yesNo (flag : Int32) : (if yesNo flag = lit "no" then (0 : Int32) else 1) = truth flag := by
  by_cases on : flag ≠ 0
  · rw [yesNo, choose, truth, if_pos on, if_pos on]
    decide
  · rw [yesNo, choose, truth, if_neg on, if_neg on]
    decide

/-- A flag that is off unless the file says `yes`. -/
theorem isYes_yesNo (flag : Int32) : (if yesNo flag = lit "yes" then (1 : Int32) else 0) = truth flag :=
  sameText_yesNo flag

theorem readLines_isdnLines (representable : Representable span)
    (fresh : spans.first.isdn.switchtype = .zero 16) :
    readLines (isdnLines span) spans = .ok (spans.update fun read => { read with
      enable := 1
      signalling := span.signalling
      isdn.overlapdial := truth span.isdn.overlapdial
      isdn.switchtype := .filled 15 span.isdn.switchtype.str }) := by
  have signalling := signallingCode_signallingName representable.signalling
  have switchtype := representable.switchtype_printable
  by_cases empty : span.isdn.switchtype.str = []
  · simp only [isdnLines, empty, ne_eq, not_true_eq_false, List.append_nil, readLines_setting,
      readLines_nil, applySetting, Checked.ok_bind, lit_inj, String.reduceEq, ↓reduceIte,
      (signallingName_printable _).crop (signallingName_ne_nil _),
      (yesNo_printable _).crop (yesNo_ne_nil _), signalling, notNo_yesNo, CharArray.filled,
      CharArray.strncpy_zero_nil]
    refine congrArg Except.ok (Spans.ext_first ?_)
    simp only [Spans.first_update, ← fresh]
  · simp only [isdnLines, empty, ne_eq, not_false_eq_true, List.cons_append, List.nil_append,
      readLines_setting, readLines_nil, applySetting, Checked.ok_bind, lit_inj, String.reduceEq,
      ↓reduceIte, (signallingName_printable _).crop (signallingName_ne_nil _),
      (yesNo_printable _).crop (yesNo_ne_nil _), switchtype.crop empty, signalling, notNo_yesNo,
      CharArray.filled]
    refine congrArg Except.ok (Spans.ext_first ?_)
    simp only [Spans.first_update, ← fresh]

theorem readLines_mfcr2Lines (span : Span) (spans : Spans) :
    readLines (mfcr2Lines span) spans = .ok (spans.update fun read => { read with
      enable := 1
      echocancel := truth span.echocancel
      mfcr2 := {
        getAniFirst := truth span.mfcr2.getAniFirst
        maxAni := span.mfcr2.maxAni
        maxDnis := span.mfcr2.maxDnis
        allowCollectCalls := truth span.mfcr2.allowCollectCalls
        doubleAnswer := truth span.mfcr2.doubleAnswer } }) := by
  simp only [mfcr2Lines, readLines_setting, readLines_nil, applySetting, Checked.ok_bind, lit_inj,
    String.reduceEq, ↓reduceIte, Bool.false_eq_true, false_and,
    (yesNo_printable _).crop (yesNo_ne_nil _), (printInt_printable _).crop (printInt_ne_nil _),
    isYes_yesNo, notNo_yesNo, atoi_printInt]
  refine congrArg Except.ok (Spans.ext_first ?_)
  simp only [Spans.first_update]

/-- The channels of a representable span are read into an empty bitmap. -/
theorem readLines_channelLines (representable : Representable span)
    (fresh : spans.first.channelsBitmap = 0 ∧ spans.first.enable = 1) :
    readLines (channelLines span) spans =
      .ok (spans.update fun read => { read with channelsBitmap := span.channelsBitmap }) := by
  have sign : lit ">" = [62] := by decide
  cases bits : bitsOf span.channelsBitmap with
  | nil =>
      rw [channelLines, bits, if_neg (by simp), readLines_nil, bitsOf_eq_nil_iff.mp bits]
      refine congrArg Except.ok (Spans.ext_first ?_)
      rw [Spans.first_update, ← fresh.1]
  | cons first others =>
      have nonempty : bitsOf span.channelsBitmap ≠ [] := by simp [bits]
      obtain ⟨unset, position, small, set⟩ : testBit span.channelsBitmap 0 = false ∧
          ∃ position, position ≤ 30 ∧ testBit span.channelsBitmap position = true :=
        representable.channels.resolve_left fun zero => nonempty (bitsOf_eq_nil_iff.mpr zero)
      have range : ∀ number ∈ first :: others, 1 ≤ number ∧ number ≤ 31 := by
        intro number member
        rw [← bits] at member
        obtain ⟨inside, isSet⟩ := mem_bitsOf.mp member
        have notZero : number ≠ 0 := by
          rintro rfl
          rw [unset] at isSet
          cases isSet
        omega
      have lowest := bitsOf_head_le bits (mem_bitsOf.mpr ⟨by omega, set⟩)
      have notLast : first ≠ 31 := by omega
      have cropped := (channels_printable span.channelsBitmap).crop (by simp [sign])
      have cut : Str.nextToken (lit ">" ++ channelList (bitsOf span.channelsBitmap)) 62 =
          some ([], channelList (first :: others)) := by
        rw [bits, sign]
        rfl
      rw [channelLines, if_pos nonempty, readLines_setting]
      simp only [applySetting, lit_inj, String.reduceEq, ↓reduceIte, Bool.false_eq_true, false_and,
        parseChannel, cropped, cut]
      rw [parseChannelBitmapLine_channelList _ range, if_neg notLast, Checked.ok_bind,
        readLines_nil, ← bits]
      refine congrArg Except.ok (Spans.ext_first ?_)
      simp only [Spans.first_update, fresh.1, ← fresh.2, setBits_bitsOf]

end Lines

/-- What `chan_dahdi.conf` says about a span: everything but its clock and CRC. -/
def Span.rereadChannels (span : Span) : Span where
  enable := 1
  channels := 0
  channelsOffset := 0
  channelsBitmap := span.channelsBitmap
  clock := 0
  crc := 0
  signalling := span.signalling
  echocancel := truth span.echocancel
  isdn := {
    overlapdial := truth span.isdn.overlapdial
    switchtype := .filled 15 span.isdn.switchtype.str }
  mfcr2 := {
    getAniFirst := truth span.mfcr2.getAniFirst
    maxAni := span.mfcr2.maxAni
    maxDnis := span.mfcr2.maxDnis
    allowCollectCalls := truth span.mfcr2.allowCollectCalls
    doubleAnswer := truth span.mfcr2.doubleAnswer }

theorem readLines_chanDahdiLines {span : Span} (representable : Representable span) :
    readLines (chanDahdiLines span) .zero =
      .ok (Spans.zero.update fun _ => span.rereadChannels) := by
  rw [chanDahdiLines, readLines_append, readLines_headerLines, Checked.ok_bind, readLines_append,
    readLines_isdnLines representable (by rw [Spans.first_update]; rfl), Checked.ok_bind,
    readLines_append, readLines_mfcr2Lines, Checked.ok_bind,
    readLines_channelLines representable
      ⟨by simp only [Spans.first_update]; rfl, by simp only [Spans.first_update]⟩]
  refine congrArg Except.ok (Spans.ext_first ?_)
  simp only [Spans.first_update]
  rfl

/-- Parsing a `chan_dahdi.conf` that was saved for a representable span. -/
theorem parseChanDahdiConf_saved {files : Files} {span : Span} (representable : Representable span)
    (holds : files.openRead fileChanDahdiConf = some (render (chanDahdiLines span))) :
    parseChanDahdiConf false files .zero =
      .ok (0, Spans.zero.update fun _ => span.rereadChannels) := by
  rw [parseChanDahdiConf, holds]
  simp only [parseLines_render _ _ (chanDahdiLines_wellFormed representable)]
  rw [← readLines, readLines_chanDahdiLines representable]
  rfl

/-! ## Reading system.conf -/

/-- An item of the `span=` line. -/
structure IsItem (item : Text) : Prop where
  isWord : IsWord item
  clean : Clean item
  noComma : comma ∉ item
  nonempty : item ≠ []
  short : item.length ≤ 11

instance (item : Text) : Decidable (IsItem item) :=
  decidable_of_iff
    (IsWord item ∧ Clean item ∧ comma ∉ item ∧ item ≠ [] ∧ item.length ≤ 11)
    ⟨fun parts => ⟨parts.1, parts.2.1, parts.2.2.1, parts.2.2.2.1, parts.2.2.2.2⟩,
      fun isItem => ⟨isItem.isWord, isItem.clean, isItem.noComma, isItem.nonempty, isItem.short⟩⟩

theorem spanItems_isItem (span : Span) : ∀ item ∈ spanItems span, IsItem item := by
  have clock : IsItem (printInt span.clock.toInt) :=
    ⟨printInt_isWord _, clean_printInt _, comma_notMem_printInt _, printInt_ne_nil _,
      printInt32_length_le _⟩
  have framing : IsItem (if span.signalling = dahdiSigMfcr2 then lit "cas" else lit "ccs") := by
    split <;> decide
  have crc : IsItem (lit "crc4") := by decide
  simp only [spanItems, List.forall_mem_append, List.forall_mem_cons]
  refine ⟨⟨by decide, clock, by decide, framing, by decide, by simp⟩, ?_⟩
  split
  · simpa using crc
  · simp

theorem spanValue_printable (span : Span) : Printable ([comma].intercalate (spanItems span)) := by
  have items := spanItems_isItem span
  have count : (spanItems span).length ≤ 6 := by
    rw [spanItems, List.length_append]
    by_cases checked : span.crc = 0 <;> simp [checked]
  have length := @length_intercalate_le comma _ 11 fun item member => (items item member).short
  constructor
  · exact forall_mem_intercalate (by decide) fun item member => (items item member).clean
  · intro member
    have nonzero : ∀ byte ∈ [comma].intercalate (spanItems span), byte ≠ 0 :=
      forall_mem_intercalate (by decide) fun item inSpan byte inItem isNul =>
        (items item inSpan).isWord.nul_notMem (isNul ▸ inItem)
    exact nonzero 0 member rfl
  · omega

theorem tokens_spanValue (span : Span) :
    tokens [comma] ([comma].intercalate (spanItems span)) = spanItems span :=
  tokens_intercalate (fun item member => (spanItems_isItem span item member).nonempty)
    fun item member => (spanItems_isItem span item member).noComma

theorem framingLines_wellFormed (span : Span) :
    ∀ entry ∈ framingLines span, entry.WellFormed bufSize := by
  unfold framingLines
  split <;> decide

theorem systemLines_wellFormed (span : Span) :
    ∀ entry ∈ systemLines span, entry.WellFormed bufSize := by
  simp only [systemLines, List.forall_mem_append, List.forall_mem_cons]
  exact ⟨⟨by decide, by decide, (spanValue_printable span).wellFormed (by decide), by simp⟩,
    framingLines_wellFormed span⟩

/-- The fields of the `span=` line are stored in the first span, which is enabled. -/
theorem parseSpanFields_spanItems (spans : Spans) {span : Span}
    (clock : span.clock = 0 ∨ span.clock = 1) :
    parseSpanFields spans (spanItems span) = .ok (spans.update fun read => { read with
      clock := span.clock
      crc := truth span.crc
      enable := 1 }) := by
  have number : (spanItems span)[0]? = some (lit "1") := rfl
  have second : (spanItems span)[1]? = some (printInt span.clock.toInt) := rfl
  have one : atoi (lit "1") = 1 := by decide
  have outside : ¬ ((1 : Int32) < 1 ∨ (1 : Int32) > Int32.ofNat numSpans) := by decide
  have unclocked : ¬ (span.clock < 0 ∨ span.clock > Int32.ofNat numSpans) := by
    rcases clock with isZero | isOne
    · rw [isZero]
      decide
    · rw [isOne]
      decide
  have option : (if (spanItems span)[5]? = some (lit "crc4") then (1 : Int32) else 0) =
      truth span.crc := by
    by_cases on : span.crc ≠ 0
    · rw [truth, if_pos on, spanItems, if_pos on]
      rfl
    · rw [truth, if_neg on, spanItems, if_neg on]
      rfl
  have index : (1 : Int32) - 1 = 0 := rfl
  simp only [parseSpanFields, number, second, one, atoi_printInt]
  rw [if_neg outside, if_neg unclocked, option, index, Spans.updateAt_zero]

/-- A line that does not describe a span is skipped. -/
theorem systemStep_other {spans : Checked Spans} {buffer : Text}
    (other : (lit "span=").isPrefixOf (cstr buffer) = false) : systemStep spans buffer = spans := by
  rw [systemStep, other]
  rfl

theorem systemStep_spanLine (spans : Spans) {span : Span}
    (clock : span.clock = 0 ∨ span.clock = 1) :
    systemStep (.ok spans)
        ((Entry.setting (lit "span") ([comma].intercalate (spanItems span))).line ++ [newline]) =
      .ok (spans.update fun read => { read with
        clock := span.clock
        crc := truth span.crc
        enable := 1 }) := by
  have printable := spanValue_printable span
  have nonempty : [comma].intercalate (spanItems span) ≠ [] := by
    intro empty
    have found := tokens_spanValue span
    rw [empty, tokens_eq_nil (strtok_nil _)] at found
    have items : spanItems span ≠ [] := by simp [spanItems]
    exact items found.symm
  have noNul : 0 ∉ (Entry.setting (lit "span") ([comma].intercalate (spanItems span))).line ++
      [newline] := by
    have wellFormed := @Printable.wellFormed "span" _ printable (by decide)
    have different : (0 : Byte) ≠ newline := by decide
    simpa [different] using wellFormed.noNul
  have key : lit "span" = [115, 112, 97, 110] := by decide
  have start : lit "span=" = [115, 112, 97, 110, equals] := by decide
  have cut : Str.nextToken (lit "span" ++ equals :: ([comma].intercalate (spanItems span)) ++ [newline])
      equals = some (lit "span", [comma].intercalate (spanItems span) ++ [newline]) := by
    rw [Str.nextToken, List.append_assoc, List.cons_append]
    exact splitFirst_append _ (by decide)
  rw [systemStep, cstr_eq_self noNul, Entry.line, if_pos (by rw [key, start]; rfl), cut]
  simp only [printable.crop nonempty, tokens_spanValue, Checked.ok_bind]
  exact parseSpanFields_spanItems spans clock

theorem foldl_systemStep_framingLines (state : Checked Spans) (span : Span) :
    ((framingLines span).map fun entry => entry.line ++ [newline]).foldl systemStep state =
      state := by
  rw [framingLines]
  split
  · rw [List.map_singleton, List.foldl_cons, List.foldl_nil]
    exact systemStep_other (by decide)
  · rw [List.map_cons, List.map_singleton, List.foldl_cons, List.foldl_cons, List.foldl_nil]
    exact (systemStep_other (by decide)).trans (systemStep_other (by decide))

/-- The loop over a saved `system.conf`: only the `span=` line counts. -/
theorem foldl_systemStep_systemLines (spans : Spans) {span : Span}
    (clock : span.clock = 0 ∨ span.clock = 1) :
    (fgetsLines bufSize (render (systemLines span))).foldl systemStep (.ok spans) =
      .ok (spans.update fun read => { read with
        clock := span.clock
        crc := truth span.crc
        enable := 1 }) := by
  have loadzone : systemStep (.ok spans)
      ((Entry.setting (lit "loadzone") (lit "br")).line ++ [newline]) = .ok spans :=
    systemStep_other (by decide)
  have defaultzone : systemStep (.ok spans)
      ((Entry.setting (lit "defaultzone") (lit "br")).line ++ [newline]) = .ok spans :=
    systemStep_other (by decide)
  rw [fgetsLines_render (systemLines_wellFormed span), systemLines, List.map_append,
    List.foldl_append, foldl_systemStep_framingLines]
  simp only [List.map_cons, List.map_nil, List.foldl_cons, List.foldl_nil]
  rw [loadzone, defaultzone, systemStep_spanLine spans clock]

/-- Parsing a `system.conf` that was saved for a span. -/
theorem parseSystemConf_saved {files : Files} (spans : Spans) {span : Span}
    (clock : span.clock = 0 ∨ span.clock = 1)
    (holds : files.openRead fileDahdiSystemConf = some (render (systemLines span))) :
    parseSystemConf files spans = .ok (0, spans.update fun read => { read with
      clock := span.clock
      crc := truth span.crc
      enable := 1 }) := by
  rw [parseSystemConf, holds]
  simp only [foldl_systemStep_systemLines spans clock]
  rfl

/-! ## Reading back what was saved -/

/-- Parsing a `chan_dahdi.conf` saved for one span and a `system.conf` saved for
another: the clock and the CRC come from the second, all else from the first. -/
theorem parseConfig_lines {files : Files} {span clocked : Span} (representable : Representable span)
    (clock : clocked.clock = 0 ∨ clocked.clock = 1)
    (chanDahdi : files.openRead fileChanDahdiConf = some (render (chanDahdiLines span)))
    (system : files.openRead fileDahdiSystemConf = some (render (systemLines clocked))) :
    parseConfig false files = .ok (some (Spans.zero.update fun _ => { span.rereadChannels with
      clock := clocked.clock
      crc := truth clocked.crc })) := by
  rw [parseConfig, parseChanDahdiConf_saved representable chanDahdi, Checked.ok_bind]
  simp only [ne_eq, not_true_eq_false, ↓reduceIte]
  rw [parseSystemConf_saved _ clock system, Checked.ok_bind]
  simp only [not_true_eq_false, ↓reduceIte]
  refine congrArg (fun spans => Except.ok (some spans)) (Spans.ext_first ?_)
  simp only [Spans.first_update]
  rfl

/-- The files after a save that could open both of them. -/
theorem saveConfig_openable {files : Files} {spans : Spans} (representable : Representable spans.first)
    (system : files.Openable fileDahdiSystemConf) (chanDahdi : files.Openable fileChanDahdiConf) :
    ∃ saved, saveConfig false files spans = .ok (0, saved) ∧
      saved.openRead fileChanDahdiConf = some (render (chanDahdiLines spans.first)) ∧
      saved.openRead fileDahdiSystemConf = some (render (systemLines spans.first)) := by
  have different : fileDahdiSystemConf ≠ fileChanDahdiConf := by decide
  have chanDahdiPrinted := chanDahdiText_eq representable.enable representable.terminated
  refine ⟨(files.write fileDahdiSystemConf (systemText spans)).write fileChanDahdiConf
    (render (chanDahdiLines spans.first)), ?_, ?_, ?_⟩
  · rw [saveConfig, applySystemConf, if_pos system.2]
    simp only [saveChanDahdiConf, chanDahdiPrinted, Files.write_writable, chanDahdi.2]
    rfl
  · apply Files.openRead_write_self
    rw [Files.write_readable]
    exact chanDahdi.1
  · rw [Files.openRead_write_of_ne _ _ different, ← systemText_eq representable.enable]
    exact Files.openRead_write_self _ system.1

/-- The span that comes back: every flag as 0 or 1, the switch type in a cleared
array, and the channels that only the standard build prints lost. -/
def Span.reread (span : Span) : Span :=
  { span.rereadChannels with
    clock := span.clock
    crc := truth span.crc }

/-- Saving and parsing back a configuration with a representable span. -/
theorem parseConfig_saved {files : Files} {spans : Spans} (representable : Representable spans.first)
    (system : files.Openable fileDahdiSystemConf) (chanDahdi : files.Openable fileChanDahdiConf) :
    ∃ saved, saveConfig false files spans = .ok (0, saved) ∧
      parseConfig false saved = .ok (some (Spans.zero.update fun _ => spans.first.reread)) := by
  obtain ⟨saved, save, openChanDahdi, openSystem⟩ :=
    saveConfig_openable representable system chanDahdi
  exact ⟨saved, save, parseConfig_lines representable representable.clock openChanDahdi openSystem⟩

/-- A save that fails at `chan_dahdi.conf` lets the next parse mix two saves: the old
signalling and channels with the new clock and CRC. -/
theorem parseConfig_mixed {files : Files} {old new : Spans} (oldSpan : Representable old.first)
    (newSpan : Representable new.first) (system : files.Openable fileDahdiSystemConf)
    (readOnly : files.readable fileChanDahdiConf = true ∧ files.writable fileChanDahdiConf = false)
    (holds : files.content fileChanDahdiConf = some (render (chanDahdiLines old.first))) :
    ∃ after, saveConfig false files new = .ok (-1, after) ∧
      parseConfig false after = .ok (some (Spans.zero.update fun _ => { old.first.reread with
        clock := new.first.clock
        crc := truth new.first.crc })) := by
  have different : fileChanDahdiConf ≠ fileDahdiSystemConf := by decide
  refine ⟨files.write fileDahdiSystemConf (systemText new), ?_, ?_⟩
  · rw [saveConfig, applySystemConf, if_pos system.2]
    simp only [saveChanDahdiConf, Files.write_writable, readOnly.2]
    rfl
  · refine parseConfig_lines oldSpan newSpan.clock ?_ ?_
    · rw [Files.openRead_write_of_ne _ _ different, Files.openRead, if_pos readOnly.1, holds]
    · rw [← systemText_eq newSpan.enable]
      exact Files.openRead_write_self _ system.1

/-- What a round trip keeps of a span: the numbers and the switch type as they are, the
flags as truth values. The flag `enable` comes back as 1. -/
structure Restored (span reread : Span) : Prop where
  enable : reread.enable = 1
  clock : reread.clock = span.clock
  signalling : reread.signalling = span.signalling
  switchtype : reread.isdn.switchtype.read = span.isdn.switchtype.read
  maxAni : reread.mfcr2.maxAni = span.mfcr2.maxAni
  maxDnis : reread.mfcr2.maxDnis = span.mfcr2.maxDnis
  crc : truth reread.crc = truth span.crc
  overlapdial : truth reread.isdn.overlapdial = truth span.isdn.overlapdial
  getAniFirst : truth reread.mfcr2.getAniFirst = truth span.mfcr2.getAniFirst
  allowCollectCalls : truth reread.mfcr2.allowCollectCalls = truth span.mfcr2.allowCollectCalls
  doubleAnswer : truth reread.mfcr2.doubleAnswer = truth span.mfcr2.doubleAnswer
  echocancel : truth reread.echocancel = truth span.echocancel

theorem restored_reread {span : Span} (terminated : span.isdn.switchtype.Terminated) :
    Restored span span.reread where
  enable := rfl
  clock := rfl
  signalling := rfl
  switchtype := by
    have room := CharArray.str_length_lt terminated
    have noNul := span.isdn.switchtype.nul_notMem_str
    have short : span.isdn.switchtype.str.length ≤ 15 := Nat.le_of_lt_succ room
    have filled : (CharArray.filled 15 span.isdn.switchtype.str).str = span.isdn.switchtype.str :=
      CharArray.str_filled noNul short
    have ends : (CharArray.filled 15 span.isdn.switchtype.str).Terminated :=
      CharArray.filled_terminated short
    rw [CharArray.read_eq_str terminated, ← filled]
    exact CharArray.read_eq_str ends
  maxAni := rfl
  maxDnis := rfl
  crc := truth_truth _
  overlapdial := truth_truth _
  getAniFirst := truth_truth _
  allowCollectCalls := truth_truth _
  doubleAnswer := truth_truth _
  echocancel := truth_truth _

/-- Parsing what was saved restores the span, whatever both files held before. -/
theorem parse_save_span {files : Files} {spans : Spans} (representable : Representable spans.first)
    (system : files.Openable fileDahdiSystemConf) (chanDahdi : files.Openable fileChanDahdiConf) :
    ∃ saved reread, saveConfig false files spans = .ok (0, saved) ∧
      parseConfig false saved = .ok (some reread) ∧ Restored spans.first reread.first := by
  obtain ⟨saved, save, parse⟩ := parseConfig_saved representable system chanDahdi
  refine ⟨saved, _, save, parse, ?_⟩
  rw [Spans.first_update]
  exact restored_reread representable.terminated

/-- Channels 1 and 16 of an ISDN span, enabled
with a flag that is not 1. -/
def enabledSpans : Spans := Spans.zero.update fun span => { span with
  enable := 2
  signalling := dahdiSigIsdnCpe
  channelsBitmap := 0x10002
  isdn.switchtype := .filled 15 (lit "euroisdn") }

theorem enabledSpans_representable : Representable enabledSpans.first where
  enable := by decide
  clock := .inl rfl
  signalling := .inr (.inr rfl)
  terminated := by decide
  switchtype := by decide
  channels := .inr ⟨by decide, 1, by decide, by decide⟩

theorem parse_save_span_witness :
    ∃ saved reread, saveConfig false .empty enabledSpans = .ok (0, saved) ∧
      parseConfig false saved = .ok (some reread) ∧ Restored enabledSpans.first reread.first :=
  parse_save_span enabledSpans_representable ⟨rfl, rfl⟩ ⟨rfl, rfl⟩

/-- The flag 2 comes back as 1. -/
theorem enable_normalized :
    Representable enabledSpans.first ∧
      ∃ saved reread, saveConfig false .empty enabledSpans = .ok (0, saved) ∧
        parseConfig false saved = .ok (some reread) ∧
          reread.first.enable ≠ enabledSpans.first.enable := by
  obtain ⟨saved, save, parse⟩ :=
    @parseConfig_saved .empty _ enabledSpans_representable ⟨rfl, rfl⟩ ⟨rfl, rfl⟩
  refine ⟨enabledSpans_representable, saved, _, save, parse, ?_⟩
  rw [Spans.first_update]
  decide

end Libamg.Dahdi
