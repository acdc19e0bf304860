import Libamg.Config.Codec
import Libamg.Config.Value
import Libamg.Files

/-!
# comcerto.conf

Reading and printing of the DSP configuration in `comcerto.c`. The part of
`libamg_comcerto_save_config` that also rewrites `sip.conf` follows once that file
is modelled. `parseLines_saveText` is the whole round trip of the file's text.
-/

namespace Libamg.Comcerto

open C

def fileComcertoConf : Path := "/etc/asterisk/comcerto.conf"

/-- `BUF_SIZE` of `comcerto.c`. -/
def bufSize : Nat := 128

/-- `struct libamg_codecs_intvl`. -/
structure CodecsIntvl where
  g711_a : Int32
  g711_u : Int32
  g723_1 : Int32
  g726_16 : Int32
  g726_24 : Int32
  g726_32 : Int32
  g726_40 : Int32
  g729 : Int32
  gsm : Int32
deriving DecidableEq

/-- `struct libamg_jb_config`. -/
structure JbConfig where
  jbEnable : Int32
  jbMaxsize : Int32
  jbImpl : Int32
  jbMindelay : Int32
  jbTypdelay : Int32
  jbMaxdelay : Int32
  jbDeletThrld : Int32
deriving DecidableEq

/-- `struct libamg_comcerto_config`. -/
structure ComcertoConfig where
  debug : Int32
  codecG723_1 : Int32
  passThrough : Int32
  aisEnable : Int32
  vadEnable : Int32
  vadLevel : Int32
  cngEnable : Int32
  echocanEnable : Int32
  ectail : Int32
  txgain : Int32
  rxgain : Int32
  e1Enable : Int32
  e1LoopbackEnable : Int32
  mfcr2ToneAmp : Int32
  jbConf : JbConfig
  codecsIntvl : CodecsIntvl
deriving DecidableEq

def CodecsIntvl.zero : CodecsIntvl := ⟨0, 0, 0, 0, 0, 0, 0, 0, 0⟩

def JbConfig.zero : JbConfig := ⟨0, 0, 0, 0, 0, 0, 0⟩

/-- The structure cleared by `memset`. -/
def ComcertoConfig.zero : ComcertoConfig :=
  ⟨0, 0, 0, 0, 0, 0, 0, 0, 0, 0, 0, 0, 0, 0, .zero, .zero⟩

/-- What one `key=value` line does to the configuration. -/
def applySetting (key value : Text) (conf : ComcertoConfig) : ComcertoConfig :=
  if key = lit "codec_g723_1" then { conf with codecG723_1 := sameText value "6.3kbps" }
  else if key = lit "pass_through" then { conf with passThrough := getCodecPassthroughCode value }
  else if key = lit "ais_enable" then { conf with aisEnable := sameText value "yes" }
  else if key = lit "vad_enable" then { conf with vadEnable := sameText value "yes" }
  else if key = lit "vad_level" then { conf with vadLevel := atoi value }
  else if key = lit "cng_enable" then { conf with cngEnable := sameText value "yes" }
  else if key = lit "echocancel_enable" then { conf with echocanEnable := sameText value "yes" }
  else if key = lit "txgain" then { conf with txgain := atoi value }
  else if key = lit "rxgain" then { conf with rxgain := atoi value }
  else if key = lit "ectail" then { conf with ectail := atoi value }
  else if key = lit "e1_enable" then { conf with e1Enable := sameText value "yes" }
  else if key = lit "e1_loopback_enable" then { conf with e1LoopbackEnable := sameText value "yes" }
  -- Jitter buffer
  else if key = lit "jbenable" then { conf with jbConf.jbEnable := sameText value "yes" }
  else if key = lit "jbmaxsize" then { conf with jbConf.jbMaxsize := atoi value }
  else if key = lit "jbimpl" then { conf with jbConf.jbImpl := sameText value "adaptive" }
  else if key = lit "jbmindelay" then { conf with jbConf.jbMindelay := atoi value }
  else if key = lit "jbtypdelay" then { conf with jbConf.jbTypdelay := atoi value }
  else if key = lit "jbmaxdelay" then { conf with jbConf.jbMaxdelay := atoi value }
  else if key = lit "jbdelet_thrld" then { conf with jbConf.jbDeletThrld := atoi value }
  else if key = lit "mfcr2_tone_amp" then { conf with mfcr2ToneAmp := atoi value }
  else if key = lit "debug" then { conf with debug := atoi value }
  -- Codec intervals
  else if key = lit "codec_intvl_g711_a" then { conf with codecsIntvl.g711_a := atoi value }
  else if key = lit "codec_intvl_g711_u" then { conf with codecsIntvl.g711_u := atoi value }
  else if key = lit "codec_intvl_g723_1" then { conf with codecsIntvl.g723_1 := atoi value }
  else if key = lit "codec_intvl_g726_16" then { conf with codecsIntvl.g726_16 := atoi value }
  else if key = lit "codec_intvl_g726_24" then { conf with codecsIntvl.g726_24 := atoi value }
  else if key = lit "codec_intvl_g726_32" then { conf with codecsIntvl.g726_32 := atoi value }
  else if key = lit "codec_intvl_g726_40" then { conf with codecsIntvl.g726_40 := atoi value }
  else if key = lit "codec_intvl_g729" then { conf with codecsIntvl.g729 := atoi value }
  else if key = lit "codec_intvl_gsm" then { conf with codecsIntvl.gsm := atoi value }
  else conf

/-- `libamg_comcerto_parse_config`; `none` is the NULL it returns when the file
cannot be opened. -/
def parseConfig (files : Files) : Option ComcertoConfig :=
  (files.openRead fileComcertoConf).map
    (parseLines bufSize cropDelimiters applySetting .zero)

/-- The field that `libamg_comcerto_get_codec_packetization_interval` selects. -/
def CodecsIntvl.ofCode (intervals : CodecsIntvl) (codecCode : Int32) : Option Int32 :=
  if codecCode = codecG711ACod then some intervals.g711_a
  else if codecCode = codecG711UCod then some intervals.g711_u
  else if codecCode = codecG723_1Cod then some intervals.g723_1
  else if codecCode = codecG726_16KbpsCod then some intervals.g726_16
  else if codecCode = codecG726_24KbpsCod then some intervals.g726_24
  else if codecCode = codecG726_32KbpsCod then some intervals.g726_32
  else if codecCode = codecG726_40KbpsCod then some intervals.g726_40
  else if codecCode = codecG729Cod then some intervals.g729
  else if codecCode = codecGsmCod then some intervals.gsm
  else none

/-- `libamg_comcerto_get_codec_packetization_interval`: 20 without a configuration
or for an unknown code. -/
def getCodecPacketizationInterval (files : Files) (codecCode : Int32) : Int32 :=
  match parseConfig files with
  | none => 20
  | some config => (config.codecsIntvl.ofCode codecCode).getD 20

/-- The text that `libamg_comcerto_save_config` prints. -/
def saveText (conf : ComcertoConfig) : Text := List.flatten
  [lit "[general]\n",
    field "debug" (printInt conf.debug.toInt),
    field "ais_enable" (yesNo conf.aisEnable),
    field "vad_enable" (yesNo conf.vadEnable),
    field "vad_level" (printShort conf.vadLevel),
    field "cng_enable" (yesNo conf.cngEnable),
    field "echocancel_enable" (yesNo conf.echocanEnable),
    field "ectail" (printShort conf.ectail),
    field "e1_enable" (yesNo conf.e1Enable),
    field "e1_loopback_enable" (yesNo conf.e1LoopbackEnable),
    field "mfcr2_tone_amp" (printInt conf.mfcr2ToneAmp.toInt),
    -- Jitter buffer, always on
    field "jbenable" (lit "yes"),
    field "jbmaxsize" (printShort conf.jbConf.jbMaxsize),
    field "jbimpl" (choose conf.jbConf.jbImpl "adaptive" "fixed"),
    field "jbmindelay" (printShort conf.jbConf.jbMindelay),
    field "jbtypdelay" (printShort conf.jbConf.jbTypdelay),
    field "jbmaxdelay" (printShort conf.jbConf.jbMaxdelay),
    field "jbdelet_thrld" (printShort conf.jbConf.jbDeletThrld),
    field "txgain" (printShort conf.txgain),
    field "rxgain" (printShort conf.rxgain),
    field "codec_g723_1" (choose conf.codecG723_1 "6.3kbps" "5.3kbps"),
    (if conf.passThrough ≠ 0 then
      field "pass_through" (printName (getCodecPassthroughName conf.passThrough))
    else []),
    field "codec_intvl_g711_a" (printShort conf.codecsIntvl.g711_a),
    field "codec_intvl_g711_u" (printShort conf.codecsIntvl.g711_u),
    field "codec_intvl_g723_1" (printShort conf.codecsIntvl.g723_1),
    field "codec_intvl_g726_16" (printShort conf.codecsIntvl.g726_16),
    field "codec_intvl_g726_24" (printShort conf.codecsIntvl.g726_24),
    field "codec_intvl_g726_32" (printShort conf.codecsIntvl.g726_32),
    field "codec_intvl_g726_40" (printShort conf.codecsIntvl.g726_40),
    field "codec_intvl_g729" (printShort conf.codecsIntvl.g729),
    field "codec_intvl_gsm" (printShort conf.codecsIntvl.gsm)]

/-! ## The written file, line by line -/

def generalLines (conf : ComcertoConfig) : List Entry :=
  [.other (lit "[general]"),
    .setting (lit "debug") (printInt conf.debug.toInt),
    .setting (lit "ais_enable") (yesNo conf.aisEnable),
    .setting (lit "vad_enable") (yesNo conf.vadEnable),
    .setting (lit "vad_level") (printShort conf.vadLevel),
    .setting (lit "cng_enable") (yesNo conf.cngEnable),
    .setting (lit "echocancel_enable") (yesNo conf.echocanEnable),
    .setting (lit "ectail") (printShort conf.ectail),
    .setting (lit "e1_enable") (yesNo conf.e1Enable),
    .setting (lit "e1_loopback_enable") (yesNo conf.e1LoopbackEnable),
    .setting (lit "mfcr2_tone_amp") (printInt conf.mfcr2ToneAmp.toInt)]

def jitterLines (conf : ComcertoConfig) : List Entry :=
  [.setting (lit "jbenable") (lit "yes"),
    .setting (lit "jbmaxsize") (printShort conf.jbConf.jbMaxsize),
    .setting (lit "jbimpl") (choose conf.jbConf.jbImpl "adaptive" "fixed"),
    .setting (lit "jbmindelay") (printShort conf.jbConf.jbMindelay),
    .setting (lit "jbtypdelay") (printShort conf.jbConf.jbTypdelay),
    .setting (lit "jbmaxdelay") (printShort conf.jbConf.jbMaxdelay),
    .setting (lit "jbdelet_thrld") (printShort conf.jbConf.jbDeletThrld)]

def codecLines (conf : ComcertoConfig) : List Entry :=
  [.setting (lit "txgain") (printShort conf.txgain),
    .setting (lit "rxgain") (printShort conf.rxgain),
    .setting (lit "codec_g723_1") (choose conf.codecG723_1 "6.3kbps" "5.3kbps")]

def passThroughLines (conf : ComcertoConfig) : List Entry :=
  if conf.passThrough ≠ 0 then
    [.setting (lit "pass_through") (printName (getCodecPassthroughName conf.passThrough))]
  else []

def intervalLines (conf : ComcertoConfig) : List Entry :=
  [.setting (lit "codec_intvl_g711_a") (printShort conf.codecsIntvl.g711_a),
    .setting (lit "codec_intvl_g711_u") (printShort conf.codecsIntvl.g711_u),
    .setting (lit "codec_intvl_g723_1") (printShort conf.codecsIntvl.g723_1),
    .setting (lit "codec_intvl_g726_16") (printShort conf.codecsIntvl.g726_16),
    .setting (lit "codec_intvl_g726_24") (printShort conf.codecsIntvl.g726_24),
    .setting (lit "codec_intvl_g726_32") (printShort conf.codecsIntvl.g726_32),
    .setting (lit "codec_intvl_g726_40") (printShort conf.codecsIntvl.g726_40),
    .setting (lit "codec_intvl_g729") (printShort conf.codecsIntvl.g729),
    .setting (lit "codec_intvl_gsm") (printShort conf.codecsIntvl.gsm)]

def fileLines (conf : ComcertoConfig) : List Entry :=
  generalLines conf ++ jitterLines conf ++ codecLines conf ++ passThroughLines conf ++
    intervalLines conf

theorem passThrough_text (conf : ComcertoConfig) :
    (if conf.passThrough ≠ 0 then
      field "pass_through" (printName (getCodecPassthroughName conf.passThrough))
    else []) = render (passThroughLines conf) := by
  unfold passThroughLines
  split
  · rw [render_setting, render_nil, List.append_nil]
  · rfl

theorem saveText_eq_render (conf : ComcertoConfig) : saveText conf = render (fileLines conf) := by
  have header : lit "[general]\n" = lit "[general]" ++ [newline] := by decide
  simp only [saveText, List.flatten_cons, List.flatten_nil,
    fileLines, generalLines, jitterLines, codecLines, intervalLines,
    render_append, render_other, render_setting, render_nil, header, passThrough_text,
    List.append_assoc, List.append_nil, List.cons_append, List.nil_append]

theorem jbImpl_plain (flag : Int32) : Plain (choose flag "adaptive" "fixed") :=
  .choose flag (.ofLit _) (.ofLit _)

theorem bitrate_plain (flag : Int32) : Plain (choose flag "6.3kbps" "5.3kbps") :=
  .choose flag (.ofLit _) (.ofLit _)

theorem getCodecPassthroughName_plain (code : Int32) :
    Plain (printName (getCodecPassthroughName code)) := by
  unfold getCodecPassthroughName
  split
  · exact .ofLit _
  · split
    · exact .ofLit _
    · exact .ofLit _

theorem fileLines_wellFormed (conf : ComcertoConfig) :
    ∀ entry ∈ fileLines conf, entry.WellFormed bufSize := by
  have general : ∀ entry ∈ generalLines conf, entry.WellFormed bufSize := by
    simp only [generalLines, List.forall_mem_cons]
    exact ⟨by decide, (Plain.printInt _).wellFormed (by decide),
      (Plain.yesNo _).wellFormed (by decide), (Plain.yesNo _).wellFormed (by decide),
      (Plain.printShort _).wellFormed (by decide), (Plain.yesNo _).wellFormed (by decide),
      (Plain.yesNo _).wellFormed (by decide), (Plain.printShort _).wellFormed (by decide),
      (Plain.yesNo _).wellFormed (by decide), (Plain.yesNo _).wellFormed (by decide),
      (Plain.printInt _).wellFormed (by decide), by simp⟩
  have jitter : ∀ entry ∈ jitterLines conf, entry.WellFormed bufSize := by
    simp only [jitterLines, List.forall_mem_cons]
    exact ⟨by decide, (Plain.printShort _).wellFormed (by decide),
      (jbImpl_plain _).wellFormed (by decide),
      (Plain.printShort _).wellFormed (by decide), (Plain.printShort _).wellFormed (by decide),
      (Plain.printShort _).wellFormed (by decide), (Plain.printShort _).wellFormed (by decide),
      by simp⟩
  have codec : ∀ entry ∈ codecLines conf, entry.WellFormed bufSize := by
    simp only [codecLines, List.forall_mem_cons]
    exact ⟨(Plain.printShort _).wellFormed (by decide), (Plain.printShort _).wellFormed (by decide),
      (bitrate_plain _).wellFormed (by decide), by simp⟩
  have passThrough : ∀ entry ∈ passThroughLines conf, entry.WellFormed bufSize := by
    unfold passThroughLines
    split
    · simp only [List.forall_mem_cons]
      exact ⟨(getCodecPassthroughName_plain _).wellFormed (by decide), by simp⟩
    · simp
  have interval : ∀ entry ∈ intervalLines conf, entry.WellFormed bufSize := by
    simp only [intervalLines, List.forall_mem_cons]
    exact ⟨(Plain.printShort _).wellFormed (by decide), (Plain.printShort _).wellFormed (by decide),
      (Plain.printShort _).wellFormed (by decide), (Plain.printShort _).wellFormed (by decide),
      (Plain.printShort _).wellFormed (by decide), (Plain.printShort _).wellFormed (by decide),
      (Plain.printShort _).wellFormed (by decide), (Plain.printShort _).wellFormed (by decide),
      (Plain.printShort _).wellFormed (by decide), by simp⟩
  simp only [fileLines, List.forall_mem_append]
  exact ⟨⟨⟨⟨general, jitter⟩, codec⟩, passThrough⟩, interval⟩

/-! ## Reading back a written file -/

/-- What parsing brings back of the intervals that a save printed with `%hd`. -/
def CodecsIntvl.reread (intervals : CodecsIntvl) : CodecsIntvl where
  g711_a := lowShort intervals.g711_a
  g711_u := lowShort intervals.g711_u
  g723_1 := lowShort intervals.g723_1
  g726_16 := lowShort intervals.g726_16
  g726_24 := lowShort intervals.g726_24
  g726_32 := lowShort intervals.g726_32
  g726_40 := lowShort intervals.g726_40
  g729 := lowShort intervals.g729
  gsm := lowShort intervals.gsm

def JbConfig.reread (jbConf : JbConfig) : JbConfig where
  jbEnable := 1
  jbMaxsize := lowShort jbConf.jbMaxsize
  jbImpl := truth jbConf.jbImpl
  jbMindelay := lowShort jbConf.jbMindelay
  jbTypdelay := lowShort jbConf.jbTypdelay
  jbMaxdelay := lowShort jbConf.jbMaxdelay
  jbDeletThrld := lowShort jbConf.jbDeletThrld

/-- The configuration that parsing finds in the file a save of `conf` wrote. -/
def ComcertoConfig.reread (conf : ComcertoConfig) : ComcertoConfig where
  debug := conf.debug
  codecG723_1 := truth conf.codecG723_1
  passThrough :=
    if conf.passThrough = codecG711ACod ∨ conf.passThrough = codecG711UCod then conf.passThrough
    else 0
  aisEnable := truth conf.aisEnable
  vadEnable := truth conf.vadEnable
  vadLevel := lowShort conf.vadLevel
  cngEnable := truth conf.cngEnable
  echocanEnable := truth conf.echocanEnable
  ectail := lowShort conf.ectail
  txgain := lowShort conf.txgain
  rxgain := lowShort conf.rxgain
  e1Enable := truth conf.e1Enable
  e1LoopbackEnable := truth conf.e1LoopbackEnable
  mfcr2ToneAmp := conf.mfcr2ToneAmp
  jbConf := conf.jbConf.reread
  codecsIntvl := conf.codecsIntvl.reread

/-- Read a list of lines into a configuration. -/
def readLines (lines : List Entry) (state : ComcertoConfig) : ComcertoConfig :=
  lines.foldl (applyEntry cropDelimiters applySetting) state

theorem readLines_append (first second : List Entry) (state : ComcertoConfig) :
    readLines (first ++ second) state = readLines second (readLines first state) :=
  List.foldl_append

theorem readLines_generalLines (conf state : ComcertoConfig) :
    readLines (generalLines conf) state =
      { state with
        debug := conf.debug
        aisEnable := truth conf.aisEnable
        vadEnable := truth conf.vadEnable
        vadLevel := lowShort conf.vadLevel
        cngEnable := truth conf.cngEnable
        echocanEnable := truth conf.echocanEnable
        ectail := lowShort conf.ectail
        e1Enable := truth conf.e1Enable
        e1LoopbackEnable := truth conf.e1LoopbackEnable
        mfcr2ToneAmp := conf.mfcr2ToneAmp } := by
  simp only [generalLines, readLines, List.foldl_cons, List.foldl_nil, applyEntry, applySetting,
    lit_inj, String.reduceEq, ↓reduceIte, (Plain.printShort _).crop, (Plain.printInt _).crop,
    (Plain.yesNo _).crop, atoi_printShort_eq, atoi_printInt, sameText_yesNo]

theorem readLines_jitterLines (conf state : ComcertoConfig) :
    readLines (jitterLines conf) state = { state with jbConf := conf.jbConf.reread } := by
  simp only [jitterLines, readLines, List.foldl_cons, List.foldl_nil, applyEntry, applySetting,
    lit_inj, String.reduceEq, ↓reduceIte, (Plain.printShort _).crop,
    (Plain.ofLit (lit "yes")).crop, (jbImpl_plain _).crop, atoi_printShort_eq,
    sameText_adaptive, sameText_lit, JbConfig.reread]

theorem readLines_codecLines (conf state : ComcertoConfig) :
    readLines (codecLines conf) state =
      { state with
        txgain := lowShort conf.txgain
        rxgain := lowShort conf.rxgain
        codecG723_1 := truth conf.codecG723_1 } := by
  have different : "5.3kbps" ≠ "6.3kbps" := by simp
  simp only [codecLines, readLines, List.foldl_cons, List.foldl_nil, applyEntry, applySetting,
    lit_inj, String.reduceEq, ↓reduceIte, (Plain.printShort _).crop, (bitrate_plain _).crop,
    atoi_printShort_eq, sameText_choose _ different]

/-- The pass-through line, which is left out for 0. -/
theorem readLines_passThroughLines (conf : ComcertoConfig) {state : ComcertoConfig}
    (fresh : state.passThrough = 0) :
    readLines (passThroughLines conf) state =
      { state with passThrough := conf.reread.passThrough } := by
  unfold passThroughLines
  by_cases given : conf.passThrough ≠ 0
  · rw [if_pos given]
    simp only [readLines, List.foldl_cons, List.foldl_nil, applyEntry, applySetting,
      lit_inj, String.reduceEq, ↓reduceIte, (getCodecPassthroughName_plain _).crop,
      getCodecPassthroughCode_name, ComcertoConfig.reread]
  · have zero : conf.passThrough = 0 := not_not.mp given
    have unknown : conf.reread.passThrough = 0 := by
      rw [ComcertoConfig.reread, zero]
      rfl
    rw [if_neg given, unknown, ← fresh]
    rfl

theorem readLines_intervalLines (conf state : ComcertoConfig) :
    readLines (intervalLines conf) state = { state with codecsIntvl := conf.codecsIntvl.reread } := by
  simp only [intervalLines, readLines, List.foldl_cons, List.foldl_nil, applyEntry, applySetting,
    lit_inj, String.reduceEq, ↓reduceIte, (Plain.printShort _).crop, atoi_printShort_eq,
    CodecsIntvl.reread]

/-- Parsing the text of a save: every field comes back as `reread` says. -/
theorem parseLines_saveText (conf : ComcertoConfig) :
    parseLines bufSize cropDelimiters applySetting .zero (saveText conf) = conf.reread := by
  rw [saveText_eq_render, parseLines_render applySetting .zero (fileLines_wellFormed conf)]
  change readLines (fileLines conf) .zero = conf.reread
  simp only [fileLines, readLines_append, readLines_generalLines, readLines_jitterLines,
    readLines_codecLines, readLines_intervalLines]
  rw [readLines_passThroughLines conf rfl]
  rfl

/-- The interval that the file of a save reports for a codec. -/
theorem getCodecPacketizationInterval_saved {files : Files}
    (readable : files.readable fileComcertoConf = true) (conf : ComcertoConfig) (code : Int32) :
    getCodecPacketizationInterval (files.write fileComcertoConf (saveText conf)) code =
      (conf.codecsIntvl.reread.ofCode code).getD 20 := by
  rw [getCodecPacketizationInterval, parseConfig, Files.openRead_write_self _ readable,
    Option.map_some, parseLines_saveText]
  rfl

end Libamg.Comcerto
