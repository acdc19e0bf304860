import Libamg.Config.Value
import Libamg.Dahdi.Channels
import Libamg.Files
import Libamg.Str

/-!
# system.conf and chan_dahdi.conf

The DAHDI configuration of `dahdi.c`. One span is described by two files: its clock and
framing by a line of `system.conf`, its signalling and channels by the settings of
`chan_dahdi.conf`. `standardMode` says whether the library was built with
`DAHDI_CHANNEL_STANDARD_MODE`.
-/

namespace Libamg.Dahdi

open C

def fileDahdiSystemConf : Path := "/etc/dahdi/system.conf"

def fileChanDahdiConf : Path := "/etc/asterisk/chan_dahdi.conf"

/-- `BUF_SIZE` of `dahdi.h`. -/
def bufSize : Nat := 256

def dahdiSystemContent : Text := lit "loadzone=br\ndefaultzone=br\n"

def chanDahdiContent : Text := List.flatten
  [lit "[channels]\nlanguage=br\nusecallerid=yes\nechocancelwhenbridged=no\n",
    lit "buffers=8,half\ncontext=from-span1\ngroup=1\nmfcr2_variant=br\n",
    lit "mfcr2_category=national_subscriber\nmfcr2_mfback_timeout=5000\n",
    lit "mfcr2_metering_pulse_timeout=1000\n#include chan_dahdi_custom.conf\n"]

/-! The enumerators of `dahdi_sig`. -/

def dahdiSigMfcr2 : Int32 := 0
def dahdiSigIsdnNet : Int32 := 1
def dahdiSigIsdnCpe : Int32 := 2

/-- The delimiters of the crop step. -/
def dahdiDelimiters : Text := lit " \t\n;#"

/-! ## Parsing system.conf -/

/-- The tokens of a `span=` line: the span number, the clock, three that are skipped,
and the CRC option. A missing number or clock is a NULL handed to `atoi`. -/
def parseSpanFields (spans : Spans) (fields : List Text) : Checked Spans :=
  match fields[0]? with
  | none => .error .nullPointer
  | some token =>
      let number := atoi token
      if number < 1 ∨ number > Int32.ofNat numSpans then .ok spans
      else
        match fields[1]? with
        | none => .error .nullPointer
        | some token =>
            let clock := atoi token
            if clock < 0 ∨ clock > Int32.ofNat numSpans then .ok spans
            else spans.updateAt (number - 1) fun span => { span with
              clock := clock
              crc := if fields[5]? = some (lit "crc4") then 1 else 0
              enable := 1 }

/-- One turn of the loop over `system.conf`. -/
def systemStep (spans : Checked Spans) (buffer : Text) : Checked Spans :=
  if (lit "span=").isPrefixOf (cstr buffer) then
    match Str.nextToken (cstr buffer) equals with
    | none => .error .nullPointer
    | some (_, value) => do
        let spans ← spans
        parseSpanFields spans (tokens [comma] (crop dahdiDelimiters value))
  else spans

/-- `libamg_dahdi_parse_system_conf`: the returned status and the spans afterwards. -/
def parseSystemConf (files : Files) (spans : Spans) : Checked (Int32 × Spans) :=
  match files.openRead fileDahdiSystemConf with
  | none => .ok (-1, spans)
  | some text => do
      let spans ← (fgetsLines bufSize text).foldl systemStep (.ok spans)
      return (0, spans)

/-! ## Parsing chan_dahdi.conf -/

/-- The `channel` line. In the bitmap build a line without `>` makes the value NULL,
and `strtok` goes on behind the token of the crop step. -/
def parseChannel (standardMode : Bool) (raw : Text) (spans : Spans) : Checked Spans :=
  match standardMode, Str.nextToken (crop dahdiDelimiters raw) 62 with
  | true, none => .error .nullPointer
  | true, some (_, line) => do
      let (_, spans) ← parseChannelLine spans line
      return spans
  | false, none =>
      parseChannelBitmapLine spans (((strtok dahdiDelimiters raw).map Prod.snd).getD [])
  | false, some (_, line) => parseChannelBitmapLine spans line

/-- The signalling that a name stands for. -/
def signallingCode (value : Text) : Int32 :=
  if value = lit "pri_net" then dahdiSigIsdnNet
  else if value = lit "pri_cpe" then dahdiSigIsdnCpe
  else dahdiSigMfcr2

/-- What one `key=value` line does, before its value is cropped. Every such line
enables the first span. -/
def applySetting (standardMode : Bool) (key raw : Text) (spans : Spans) : Checked Spans :=
  let value := crop dahdiDelimiters raw
  let spans := spans.update fun span => { span with enable := 1 }
  if key = lit "signalling" then
    .ok (spans.update fun span => { span with signalling := signallingCode value })
  else if key = lit "overlapdial" then
    .ok (spans.update fun span =>
      { span with isdn.overlapdial := if value = lit "no" then 0 else 1 })
  else if key = lit "switchtype" then
    .ok (spans.update fun span =>
      { span with isdn.switchtype := span.isdn.switchtype.strncpy value 15 })
  else if key = lit "mfcr2_get_ani_first" then
    .ok (spans.update fun span =>
      { span with mfcr2.getAniFirst := if value = lit "yes" then 1 else 0 })
  else if key = lit "mfcr2_max_ani" then
    .ok (spans.update fun span => { span with mfcr2.maxAni := atoi value })
  else if key = lit "mfcr2_max_dnis" then
    .ok (spans.update fun span => { span with mfcr2.maxDnis := atoi value })
  else if key = lit "mfcr2_allow_collect_calls" then
    .ok (spans.update fun span =>
      { span with mfcr2.allowCollectCalls := if value = lit "no" then 0 else 1 })
  else if key = lit "mfcr2_double_answer" then
    .ok (spans.update fun span =>
      { span with mfcr2.doubleAnswer := if value = lit "yes" then 1 else 0 })
  else if standardMode = true ∧ key = lit ";channels_offset" then
    .ok (spans.update fun span => { span with channelsOffset := atoi value })
  else if key = lit "channel" then parseChannel standardMode raw spans
  else if key = lit "echocancel" then
    .ok (spans.update fun span => { span with echocancel := if value = lit "yes" then 1 else 0 })
  else .ok spans

/-- One turn of the loop over `chan_dahdi.conf`. -/
def parseStep (standardMode : Bool) (key raw : Text) (spans : Checked Spans) : Checked Spans :=
  spans >>= applySetting standardMode key raw

/-- `libamg_dahdi_parse_chan_dahdi_conf`. The crop step is part of `applySetting`, so
the reader of the lines crops nothing. -/
def parseChanDahdiConf (standardMode : Bool) (files : Files) (spans : Spans) :
    Checked (Int32 × Spans) :=
  match files.openRead fileChanDahdiConf with
  | none => .ok (-1, spans)
  | some text => do
      let spans ← parseLines bufSize [] (parseStep standardMode) (.ok spans) text
      return (0, spans)

/-- `libamg_dahdi_parse_config`; `none` is the NULL it returns when a file cannot be
opened. -/
def parseConfig (standardMode : Bool) (files : Files) : Checked (Option Spans) := do
  let (status, spans) ← parseChanDahdiConf standardMode files .zero
  if status ≠ 0 then return none
  let (status, spans) ← parseSystemConf files spans
  if status ≠ 0 then return none
  return some spans

/-! ## Saving -/

/-- What is printed into `system.conf` for one span. -/
def systemSpanText (index : Nat) (span : Span) : Text :=
  let buffer := genChannelsLine index 30
  let number := printInt (index + 1)
  let crc := if span.crc ≠ 0 then lit ",crc4" else []
  if span.enable = 0 then []
  else if span.signalling = dahdiSigMfcr2 then
    field "span" (number ++ lit "," ++ printInt span.clock.toInt ++ lit ",0,cas,hdb3" ++ crc) ++
      field "cas" (buffer ++ lit ":1101")
  else
    field "span" (number ++ lit "," ++ printInt span.clock.toInt ++ lit ",0,ccs,hdb3" ++ crc) ++
      field "bchan" buffer ++ field "dchan" (printInt (31 * index + 16))

/-- The text that `libamg_dahdi_apply_system_conf` prints. -/
def systemText (spans : Spans) : Text :=
  dahdiSystemContent ++
    ((List.finRange numSpans).map fun index : Fin numSpans =>
      systemSpanText index (spans.get index)).flatten

/-- `libamg_dahdi_apply_system_conf`: the returned status and the files afterwards. -/
def applySystemConf (files : Files) (spans : Spans) : Int32 × Files :=
  if files.writable fileDahdiSystemConf then
    (0, files.write fileDahdiSystemConf (systemText spans))
  else (-1, files)

/-- The name printed for a signalling. -/
def signallingName (signalling : Int32) : Text :=
  if signalling = dahdiSigIsdnCpe then lit "pri_cpe"
  else if signalling = dahdiSigIsdnNet then lit "pri_net"
  else lit "mfcr2"

/-- The channel lines. The line buffer is only read where it was printed into. -/
def channelFields (standardMode : Bool) (index : Nat) (span : Span) : Text :=
  if standardMode then
    let buffer := genChannelsLine index span.channels.toInt
    field ";channels_offset" (printInt span.channelsOffset.toInt) ++
      if buffer ≠ [] then field "channel" (lit ">" ++ buffer) else []
  else if span.channelsBitmap > 0 then
    let buffer := genChannelsBitmapLine [] index span.channelsBitmap
    if buffer ≠ [] then field "channel" (lit ">" ++ buffer) else []
  else []

/-- What is printed into `chan_dahdi.conf` for one span. -/
def chanDahdiSpanText (standardMode : Bool) (index : Nat) (span : Span) : Checked Text :=
  if span.enable = 0 then return []
  else do
    let switchtype ← span.isdn.switchtype.read
    return List.flatten
      [field "signalling" (signallingName span.signalling),
        field "overlapdial" (yesNo span.isdn.overlapdial),
        (if switchtype ≠ [] then field "switchtype" switchtype else []),
        field "mfcr2_get_ani_first" (yesNo span.mfcr2.getAniFirst),
        field "mfcr2_max_ani" (printInt span.mfcr2.maxAni.toInt),
        field "mfcr2_max_dnis" (printInt span.mfcr2.maxDnis.toInt),
        field "mfcr2_allow_collect_calls" (yesNo span.mfcr2.allowCollectCalls),
        field "mfcr2_double_answer" (yesNo span.mfcr2.doubleAnswer),
        field "context" (lit "from-span" ++ printInt (index + 1)),
        field "group" (printInt (index + 1)),
        field "echocancel" (yesNo span.echocancel),
        channelFields standardMode index span]

/-- The text that `libamg_dahdi_save_chan_dahdi_conf` prints. -/
def chanDahdiText (standardMode : Bool) (spans : Spans) : Checked Text := do
  let texts ← (List.finRange numSpans).mapM fun index : Fin numSpans =>
    chanDahdiSpanText standardMode index (spans.get index)
  return chanDahdiContent ++ texts.flatten

/-- `libamg_dahdi_save_chan_dahdi_conf`. -/
def saveChanDahdiConf (standardMode : Bool) (files : Files) (spans : Spans) :
    Checked (Int32 × Files) :=
  if files.writable fileChanDahdiConf then do
    let text ← chanDahdiText standardMode spans
    return (0, files.write fileChanDahdiConf text)
  else return (-1, files)

/-- `libamg_dahdi_save_config`. -/
def saveConfig (standardMode : Bool) (files : Files) (spans : Spans) :
    Checked (Int32 × Files) := do
  let (ret, files) := applySystemConf files spans
  if ret ≠ 0 then return (ret, files)
  let (ret, files) ← saveChanDahdiConf standardMode files spans
  if ret ≠ 0 then return (ret, files)
  return (0, files)

end Libamg.Dahdi
