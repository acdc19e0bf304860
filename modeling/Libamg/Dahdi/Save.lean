import Libamg.Dahdi.Config

/-!
# What a save leaves in the two files

`saveConfig_cases` is everything a save can do to `system.conf` and `chan_dahdi.conf`;
there is no way back once the first one is written. For an enabled span the printed
texts are the lines `systemLines` and `chanDahdiLines`.
-/

namespace Libamg.Dahdi

open C

/-! ## The outcomes of a save -/

/-- A save stops at the first file it cannot open. -/
theorem saveConfig_cases {standardMode : Bool} {files after : Files} {spans : Spans}
    {status : Int32} (saved : saveConfig standardMode files spans = .ok (status, after)) :
    (files.writable fileDahdiSystemConf = false ∧ status = -1 ∧ after = files) ∨
    (files.writable fileDahdiSystemConf = true ∧ files.writable fileChanDahdiConf = false ∧
      status = -1 ∧ after = files.write fileDahdiSystemConf (systemText spans)) ∨
    (files.writable fileDahdiSystemConf = true ∧ files.writable fileChanDahdiConf = true ∧
      status = 0 ∧ ∃ text, chanDahdiText standardMode spans = .ok text ∧
        after = (files.write fileDahdiSystemConf (systemText spans)).write fileChanDahdiConf text) := by
  cases system : files.writable fileDahdiSystemConf with
  | false =>
      have applied : applySystemConf files spans = (-1, files) := by
        rw [applySystemConf, if_neg (by simp [system])]
      rw [saveConfig, applied] at saved
      cases saved
      exact .inl ⟨rfl, rfl, rfl⟩
  | true =>
      have applied : applySystemConf files spans =
          (0, files.write fileDahdiSystemConf (systemText spans)) := if_pos system
      rw [saveConfig, applied] at saved
      cases chanDahdi : files.writable fileChanDahdiConf with
      | false =>
          have closed : saveChanDahdiConf standardMode
              (files.write fileDahdiSystemConf (systemText spans)) spans =
              .ok (-1, files.write fileDahdiSystemConf (systemText spans)) :=
            if_neg (by simp [chanDahdi])
          simp only [closed] at saved
          cases saved
          exact .inr (.inl ⟨rfl, rfl, rfl, rfl⟩)
      | true =>
          have opened : saveChanDahdiConf standardMode
              (files.write fileDahdiSystemConf (systemText spans)) spans =
              (chanDahdiText standardMode spans >>= fun text => .ok (0,
                (files.write fileDahdiSystemConf (systemText spans)).write fileChanDahdiConf
                  text)) := if_pos chanDahdi
          simp only [opened] at saved
          cases printed : chanDahdiText standardMode spans with
          | error fault =>
              rw [printed] at saved
              cases saved
          | ok text =>
              rw [printed] at saved
              cases saved
              exact .inr (.inr ⟨rfl, rfl, rfl, text, rfl, rfl⟩)

/-- A failed save has left `chan_dahdi.conf` alone, and has rewritten `system.conf`
exactly when it could open that one. -/
theorem saveConfig_failed {standardMode : Bool} {files after : Files} {spans : Spans}
    {status : Int32} (saved : saveConfig standardMode files spans = .ok (status, after))
    (failed : status ≠ 0) :
    after.content fileChanDahdiConf = files.content fileChanDahdiConf ∧
      (files.writable fileDahdiSystemConf = false →
        after.content fileDahdiSystemConf = files.content fileDahdiSystemConf) ∧
      (files.writable fileDahdiSystemConf = true →
        after.content fileDahdiSystemConf = some (systemText spans)) := by
  have different : fileChanDahdiConf ≠ fileDahdiSystemConf := by decide
  rcases saveConfig_cases saved with ⟨closed, _, rfl⟩ | ⟨opened, _, _, rfl⟩ | ⟨_, _, succeeded, _⟩
  · exact ⟨rfl, fun _ => rfl, fun opened => absurd opened (by simp [closed])⟩
  · refine ⟨Files.write_content_of_ne _ _ different, fun closed => ?_, fun _ =>
      Files.write_content_self _ _ _⟩
    rw [opened] at closed
    cases closed
  · exact absurd succeeded failed

/-- Files of which only `system.conf` can be written; both are there and empty. -/
def systemOnly : Files where
  content := fun _ => some []
  readable := fun _ => true
  writable := fun path => path == fileDahdiSystemConf

theorem saveConfig_systemOnly (spans : Spans) :
    saveConfig false systemOnly spans =
      .ok (-1, systemOnly.write fileDahdiSystemConf (systemText spans)) := rfl

theorem saveConfig_failed_witness :
    (systemOnly.write fileDahdiSystemConf (systemText .zero)).content fileChanDahdiConf =
        systemOnly.content fileChanDahdiConf ∧
      (systemOnly.write fileDahdiSystemConf (systemText .zero)).content fileDahdiSystemConf =
        some (systemText .zero) := by
  obtain ⟨chanDahdi, _, system⟩ := saveConfig_failed (saveConfig_systemOnly .zero) (by decide)
  exact ⟨chanDahdi, system rfl⟩

/-- A failed save that has changed `system.conf`. -/
theorem system_changed :
    ∃ after, saveConfig false systemOnly .zero = .ok (-1, after) ∧
      after.content fileDahdiSystemConf ≠ systemOnly.content fileDahdiSystemConf := by
  refine ⟨_, saveConfig_systemOnly .zero, ?_⟩
  rw [Files.write_content_self]
  intro same
  have text : systemText .zero ≠ [] := by decide
  exact text (Option.some.inj same)

/-! ## The printed lines -/

/-- Text without a byte that the crop step stops at. -/
def Clean (value : Text) : Prop := ∀ byte ∈ value, byte ∉ dahdiDelimiters

instance (value : Text) : Decidable (Clean value) :=
  decidable_of_iff (value.all (fun byte => byte ∉ dahdiDelimiters) = true)
    (by simp [Clean, List.all_eq_true])

/-- The spans that a round trip is expected of: enabled, with a clock and a signalling
of the enumeration, and a lowest channel that is not 31. -/
structure Representable (span : Span) : Prop where
  enable : span.enable ≠ 0
  clock : span.clock = 0 ∨ span.clock = 1
  signalling : span.signalling = dahdiSigMfcr2 ∨ span.signalling = dahdiSigIsdnNet ∨
    span.signalling = dahdiSigIsdnCpe
  terminated : span.isdn.switchtype.Terminated
  switchtype : Clean span.isdn.switchtype.str
  channels : span.channelsBitmap = 0 ∨ testBit span.channelsBitmap 0 = false ∧
    ∃ position, position ≤ 30 ∧ testBit span.channelsBitmap position = true

def headerLines : List Entry :=
  [.other (lit "[channels]"), .setting (lit "language") (lit "br"),
    .setting (lit "usecallerid") (lit "yes"), .setting (lit "echocancelwhenbridged") (lit "no"),
    .setting (lit "buffers") (lit "8,half"), .setting (lit "context") (lit "from-span1"),
    .setting (lit "group") (lit "1"), .setting (lit "mfcr2_variant") (lit "br"),
    .setting (lit "mfcr2_category") (lit "national_subscriber"),
    .setting (lit "mfcr2_mfback_timeout") (lit "5000"),
    .setting (lit "mfcr2_metering_pulse_timeout") (lit "1000"),
    .other (lit "#include chan_dahdi_custom.conf")]

def isdnLines (span : Span) : List Entry :=
  [.setting (lit "signalling") (signallingName span.signalling),
    .setting (lit "overlapdial") (yesNo span.isdn.overlapdial)] ++
    if span.isdn.switchtype.str ≠ [] then
      [.setting (lit "switchtype") span.isdn.switchtype.str]
    else []

def mfcr2Lines (span : Span) : List Entry :=
  [.setting (lit "mfcr2_get_ani_first") (yesNo span.mfcr2.getAniFirst),
    .setting (lit "mfcr2_max_ani") (printInt span.mfcr2.maxAni.toInt),
    .setting (lit "mfcr2_max_dnis") (printInt span.mfcr2.maxDnis.toInt),
    .setting (lit "mfcr2_allow_collect_calls") (yesNo span.mfcr2.allowCollectCalls),
    .setting (lit "mfcr2_double_answer") (yesNo span.mfcr2.doubleAnswer),
    .setting (lit "context") (lit "from-span1"), .setting (lit "group") (lit "1"),
    .setting (lit "echocancel") (yesNo span.echocancel)]

def channelLines (span : Span) : List Entry :=
  if bitsOf span.channelsBitmap ≠ [] then
    [.setting (lit "channel") (lit ">" ++ channelList (bitsOf span.channelsBitmap))]
  else []

/-- The lines of `chan_dahdi.conf` for an enabled span. -/
def chanDahdiLines (span : Span) : List Entry :=
  headerLines ++ (isdnLines span ++ (mfcr2Lines span ++ channelLines span))

/-- The items of the `span=` line. -/
def spanItems (span : Span) : List Text :=
  [lit "1", printInt span.clock.toInt, lit "0",
    if span.signalling = dahdiSigMfcr2 then lit "cas" else lit "ccs", lit "hdb3"] ++
    if span.crc ≠ 0 then [lit "crc4"] else []

/-- The lines of `system.conf` behind the `span=` line. -/
def framingLines (span : Span) : List Entry :=
  if span.signalling = dahdiSigMfcr2 then [.setting (lit "cas") (lit "1-15,17-31:1101")]
  else [.setting (lit "bchan") (lit "1-15,17-31"), .setting (lit "dchan") (lit "16")]

/-- The lines of `system.conf` for an enabled span. -/
def systemLines (span : Span) : List Entry :=
  [.setting (lit "loadzone") (lit "br"), .setting (lit "defaultzone") (lit "br"),
    .setting (lit "span") ([comma].intercalate (spanItems span))] ++ framingLines span

theorem bitsOf_eq_nil_iff {word : UInt32} : bitsOf word = [] ↔ word = 0 := by
  constructor
  · intro empty
    rw [← setBits_bitsOf word, empty]
    rfl
  · rintro rfl
    rfl

theorem channelFields_eq (span : Span) :
    channelFields false 0 span = render (channelLines span) := by
  have generated := genChannelsBitmapLine_zero [] span.channelsBitmap
  rw [channelFields, channelLines]
  by_cases empty : bitsOf span.channelsBitmap = []
  · have zero := bitsOf_eq_nil_iff.mp empty
    rw [if_neg (not_not.mpr empty), zero]
    rfl
  · have positive : span.channelsBitmap > 0 := by
      have nonzero : span.channelsBitmap ≠ 0 := fun zero => empty (bitsOf_eq_nil_iff.mpr zero)
      exact UInt32.pos_iff_ne_zero.mpr nonzero
    rw [if_neg empty] at generated
    have printed : genChannelsBitmapLine [] ((0 : Nat) : Int) span.channelsBitmap =
        channelList (bitsOf span.channelsBitmap) := generated
    simp only [printed, positive, Bool.false_eq_true, ↓reduceIte, ne_eq,
      channelList_ne_nil empty, empty, not_false_eq_true]
    rw [render_setting, render_nil, List.append_nil]

set_option maxRecDepth 4000 in
theorem chanDahdiContent_eq : chanDahdiContent = render headerLines := by decide

/-- The text printed into `chan_dahdi.conf` for an enabled span. -/
theorem chanDahdiText_eq {spans : Spans} (enabled : spans.first.enable ≠ 0)
    (terminated : spans.first.isdn.switchtype.Terminated) :
    chanDahdiText false spans = .ok (render (chanDahdiLines spans.first)) := by
  have context : lit "from-span" ++ lit "1" = lit "from-span1" := by decide
  have group : printInt (((0 : Nat) : Int) + 1) = lit "1" := by decide
  have switchtype : (if spans.first.isdn.switchtype.str ≠ [] then
      field "switchtype" spans.first.isdn.switchtype.str else []) =
      render (if spans.first.isdn.switchtype.str ≠ [] then
        [.setting (lit "switchtype") spans.first.isdn.switchtype.str] else []) := by
    split
    · rw [render_setting, render_nil, List.append_nil]
    · rfl
  have printed : chanDahdiSpanText false 0 spans.first =
      .ok (render (isdnLines spans.first ++ (mfcr2Lines spans.first ++ channelLines spans.first))) := by
    rw [chanDahdiSpanText, if_neg enabled, CharArray.read_eq_str terminated]
    refine congrArg Except.ok ?_
    simp only [group, context, switchtype, channelFields_eq, isdnLines, mfcr2Lines, render_append,
      render_setting, render_nil, List.flatten_cons, List.flatten_nil, List.append_assoc,
      List.append_nil]
  have indices : List.finRange numSpans = [⟨0, Nat.one_pos⟩] := rfl
  rw [chanDahdiText, indices, List.mapM_cons, List.mapM_nil]
  change ((chanDahdiSpanText false 0 spans.first >>= _) >>= _) = _
  rw [printed, chanDahdiContent_eq, chanDahdiLines, render_append headerLines]
  change Except.ok (render headerLines ++ [render (isdnLines spans.first ++
    (mfcr2Lines spans.first ++ channelLines spans.first))].flatten) = _
  rw [List.flatten_singleton]

/-- The text printed into `system.conf` for an enabled span. -/
theorem systemText_eq {spans : Spans} (enabled : spans.first.enable ≠ 0) :
    systemText spans = render (systemLines spans.first) := by
  have header : dahdiSystemContent = render [.setting (lit "loadzone") (lit "br"),
      .setting (lit "defaultzone") (lit "br")] := by decide
  have number : printInt (((0 : Nat) : Int) + 1) = lit "1" := by decide
  have buffer : genChannelsLine ((0 : Nat) : Int) 30 = lit "1-15,17-31" := by decide
  have dchan : printInt (31 * ((0 : Nat) : Int) + 16) = lit "16" := by decide
  have spanText : systemSpanText 0 spans.first = render
      (.setting (lit "span") ([comma].intercalate (spanItems spans.first)) ::
        framingLines spans.first) := by
    have separator : lit "," = [comma] := by decide
    have cas : lit ",0,cas,hdb3" = [comma] ++ (lit "0" ++ ([comma] ++ (lit "cas" ++
        ([comma] ++ lit "hdb3")))) := by decide
    have ccs : lit ",0,ccs,hdb3" = [comma] ++ (lit "0" ++ ([comma] ++ (lit "ccs" ++
        ([comma] ++ lit "hdb3")))) := by decide
    have crc : lit ",crc4" = [comma] ++ lit "crc4" := by decide
    have casLine : lit "1-15,17-31" ++ lit ":1101" = lit "1-15,17-31:1101" := by decide
    rw [systemSpanText]
    by_cases mfcr2 : spans.first.signalling = dahdiSigMfcr2 <;>
      by_cases checked : spans.first.crc = 0 <;>
      simp only [number, buffer, dchan, enabled, mfcr2, checked, spanItems, framingLines,
        separator, cas, ccs, crc, casLine, ne_eq, not_true_eq_false, not_false_eq_true, ↓reduceIte,
        List.cons_append, List.nil_append, List.append_nil, List.append_assoc, render_setting,
        render_nil, List.intercalate_cons_cons, List.intercalate_singleton]
  have spansText : systemText spans =
      dahdiSystemContent ++ (systemSpanText 0 spans.first ++ []) := rfl
  rw [spansText, spanText, header, List.append_nil, ← render_append]
  rfl

end Libamg.Dahdi
