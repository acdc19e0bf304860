import Libamg.C.Bits
import Libamg.C.Decimal
import Libamg.C.Memory
import Libamg.C.Tokens

/-!
# Channel lines

The span structures of `dahdi.h` and the two codecs of `dahdi.c` for the channels of
a span: ranges, in the build with `DAHDI_CHANNEL_STANDARD_MODE`, and lists of channel
numbers, in the build without. The parsers store their result through a span index
that they compute from the line; an index behind the array is a fault.
-/

namespace Libamg.Dahdi

open C

/-- `NUMSPANS`. -/
abbrev numSpans : Nat := 1

def comma : Byte := 44

/-- `struct libamg_dahdi_isdn`. -/
structure Isdn where
  overlapdial : Int32
  switchtype : CharArray 16
deriving DecidableEq

/-- `struct libamg_dahdi_mfcr2`. -/
structure Mfcr2 where
  getAniFirst : Int32
  maxAni : Int32
  maxDnis : Int32
  allowCollectCalls : Int32
  doubleAnswer : Int32
deriving DecidableEq

/-- `struct libamg_dahdi_span`. -/
structure Span where
  enable : Int32
  channels : Int32
  channelsOffset : Int32
  channelsBitmap : UInt32
  clock : Int32
  crc : Int32
  signalling : Int32
  echocancel : Int32
  isdn : Isdn
  mfcr2 : Mfcr2
deriving DecidableEq

/-- The span cleared by `memset`. -/
def Span.zero : Span where
  enable := 0
  channels := 0
  channelsOffset := 0
  channelsBitmap := 0
  clock := 0
  crc := 0
  signalling := 0
  echocancel := 0
  isdn := { overlapdial := 0, switchtype := .zero 16 }
  mfcr2 := { getAniFirst := 0, maxAni := 0, maxDnis := 0, allowCollectCalls := 0, doubleAnswer := 0 }

/-- `conf->spans`, all there is in `struct libamg_dahdi_config`. -/
abbrev Spans := Vector Span numSpans

/-- `conf->spans[0]`. -/
def Spans.first (spans : Spans) : Span := spans.get ⟨0, Nat.one_pos⟩

/-- Edit `conf->spans[0]` in place. -/
def Spans.update (spans : Spans) (edit : Span → Span) : Spans :=
  spans.set 0 (edit spans.first) Nat.one_pos

@[simp] theorem Spans.first_update (spans : Spans) (edit : Span → Span) :
    (spans.update edit).first = edit spans.first := Vector.getElem_set_self _

theorem Spans.ext_first {left right : Spans} (first : left.first = right.first) : left = right := by
  ext index inside
  obtain rfl : index = 0 := Nat.lt_one_iff.mp inside
  exact first

/-- Edit `conf->spans[index]`; an index outside the array is a fault. -/
def Spans.updateAt (spans : Spans) (index : Int32) (edit : Span → Span) : Checked Spans :=
  if inside : 0 ≤ index ∧ index.toNatClampNeg < numSpans then
    .ok (spans.set index.toNatClampNeg (edit (spans.get ⟨index.toNatClampNeg, inside.2⟩)) inside.2)
  else .error .outOfBounds

@[simp] theorem Spans.updateAt_zero (spans : Spans) (edit : Span → Span) :
    spans.updateAt 0 edit = .ok (spans.update edit) := rfl

/-- `memcpy(&conf->spans[offset], span, sizeof(*span))` for `span = &conf->spans[0]`. -/
def copySpan (spans : Spans) (offset : Int32) : Checked Spans :=
  spans.updateAt offset fun _ => spans.first

/-! ## Ranges -/

/-- The `%d` conversion of `sscanf`: the number, out of range saturated as `atoi` does,
and the text behind it. -/
def scanInt (text : Text) : Option (Int32 × Text) :=
  let body := text.dropWhile isSpace
  let unsigned := if body.head? = some minus ∨ body.head? = some 43 then body.tail else body
  if unsigned.takeWhile isDigit = [] then none
  else some (atoi body, unsigned.dropWhile isDigit)

/-- The numbers that `sscanf` converts for `%d`, the first separator, `%d` and so on. -/
def scanInts : Text → Text → List Int32
  | separators, text =>
      match scanInt text with
      | none => []
      | some (number, rest) =>
          number :: match separators, rest with
            | separator :: separators, byte :: rest =>
                if byte = separator then scanInts separators rest else []
            | _, _ => []

/-- `_parse_chan_dahdi_channel_line` for `span = &conf->spans[0]`: the returned status
and the spans afterwards. -/
def parseChannelLine (spans : Spans) (line : Text) : Checked (Int32 × Spans) :=
  match scanInts [minus, comma, minus] line with
  | [] => .ok (-1, spans)
  | first :: others =>
      if first ≤ 0 then .ok (-1, spans)
      else do
        let channels := match others with
          | [] => 1
          | [a] => a - first + 1
          | [a, _] => a - first + 2
          | a :: b :: c :: _ => c - b + a - first + 2
        let spans := spans.update fun span => { span with channels := channels }
        let spans ← copySpan spans ((first - 1) / 31)
        return (0, spans)

/-- `_gen_channels_line`. -/
def genChannelsLine (span channels : Int) : Text :=
  let offset := span * 31 + 1
  if channels = 1 then printInt offset
  else if channels < 16 then
    printInt offset ++ lit "-" ++ printInt (offset + channels - 1)
  else if channels = 16 then
    printInt offset ++ lit "-" ++ printInt (offset + 14) ++ lit "," ++ printInt (offset + 16)
  else
    printInt offset ++ lit "-" ++ printInt (offset + 14) ++ lit "," ++ printInt (offset + 16) ++
      lit "-" ++ printInt (offset + channels)

/-! ## Bitmaps -/

/-- One turn of the loop of `_parse_chan_dahdi_channel_bitmap_line`. The shift is
defined for the bits of the word only. -/
def storeChannel (spans : Spans) (token : Text) : Checked Spans :=
  let number := atoi token
  if number = 0 then .ok spans
  else if 0 ≤ number ∧ number < 32 then
    .ok (spans.update fun span =>
      { span with channelsBitmap := setBit span.channelsBitmap number.toNatClampNeg })
  else .error .shiftRange

/-- `_parse_chan_dahdi_channel_bitmap_line` for `span = &conf->spans[0]`; `line` is
what the first `strtok` sees. Without a token `atoi` gets a NULL pointer. -/
def parseChannelBitmapLine (spans : Spans) (line : Text) : Checked Spans :=
  match tokens [comma] line with
  | [] => .error .nullPointer
  | first :: others => do
      let spans ← (first :: others).foldlM storeChannel spans
      copySpan spans (atoi first / 31)

/-- `_getBit`. -/
def getBit (number : UInt32) (position : Nat) : Int32 := if testBit number position then 1 else 0

/-- `_gen_channels_bitmap_line`: the buffer afterwards. Nothing is printed into it when
no bit is set. -/
def genChannelsBitmapLine (line : Text) (span : Int) (channelsBitmap : UInt32) : Text :=
  let offset := span * 31
  let printed := (List.range 32).foldl
    (fun printed i =>
      if getBit channelsBitmap i ≠ 0 then appendItem comma printed (printInt (i + offset))
      else printed)
    []
  if printed = [] then line else printed

/-- The text of a list of channel numbers. -/
def channelList (numbers : List Nat) : Text :=
  [comma].intercalate (numbers.map fun number : Nat => printInt number)

theorem comma_notMem_printInt (n : Int) : comma ∉ printInt n :=
  notMem_printInt (by decide) (by decide) n

theorem tokens_channelList (numbers : List Nat) :
    tokens [comma] (channelList numbers) = numbers.map fun number : Nat => printInt number := by
  refine tokens_intercalate ?_ ?_
  · intro word member
    obtain ⟨number, _, rfl⟩ := List.mem_map.mp member
    exact printInt_ne_nil _
  · intro word member
    obtain ⟨number, _, rfl⟩ := List.mem_map.mp member
    exact comma_notMem_printInt _

theorem channelList_ne_nil {numbers : List Nat} (nonempty : numbers ≠ []) :
    channelList numbers ≠ [] := by
  intro empty
  have found := tokens_channelList numbers
  rw [empty, tokens_eq_nil (strtok_nil _)] at found
  exact nonempty (List.map_eq_nil_iff.mp found.symm)

/-- What the parser computes from one channel number of an E1 line. -/
theorem atoi_channel {number : Nat} (range : 1 ≤ number ∧ number ≤ 31) :
    atoi (printInt number) ≠ 0 ∧ 0 ≤ atoi (printInt number) ∧ atoi (printInt number) < 32 ∧
      (atoi (printInt number)).toNatClampNeg = number ∧
      atoi (printInt number) / 31 = if number = 31 then 1 else 0 := by
  have read : atoi (printInt number) = Int32.ofInt number := by
    have appended := atoi_printInt_append number (by omega) (by omega) noDigitNext_nil
    rwa [List.append_nil] at appended
  have all : ∀ number < 32, 1 ≤ number → Int32.ofInt (number : Nat) ≠ 0 ∧
      0 ≤ Int32.ofInt (number : Nat) ∧ Int32.ofInt (number : Nat) < 32 ∧
      (Int32.ofInt (number : Nat)).toNatClampNeg = number ∧
      Int32.ofInt (number : Nat) / 31 = if number = 31 then 1 else 0 := by decide
  rw [read]
  exact all number (by omega) range.1

/-- One number of the line sets its bit. -/
theorem storeChannel_channel (spans : Spans) {number : Nat} (range : 1 ≤ number ∧ number ≤ 31) :
    storeChannel spans (printInt number) = .ok (spans.update fun span =>
      { span with channelsBitmap := setBit span.channelsBitmap number }) := by
  obtain ⟨nonzero, nonnegative, small, value, _⟩ := atoi_channel range
  rw [storeChannel, if_neg nonzero, if_pos ⟨nonnegative, small⟩, value]

/-- The whole loop sets the bits of the numbers. -/
theorem foldlM_storeChannel (spans : Spans) {numbers : List Nat}
    (range : ∀ number ∈ numbers, 1 ≤ number ∧ number ≤ 31) :
    (numbers.map fun number : Nat => printInt number).foldlM storeChannel spans =
      .ok (spans.update fun span =>
        { span with channelsBitmap := setBits span.channelsBitmap numbers }) := by
  induction numbers generalizing spans with
  | nil =>
      have same : spans = spans.update fun span =>
          { span with channelsBitmap := setBits span.channelsBitmap [] } := by
        apply Spans.ext_first
        rw [Spans.first_update]
        rfl
      exact congrArg Except.ok same
  | cons number numbers inductionHypothesis =>
      have first := storeChannel_channel spans (range number List.mem_cons_self)
      have rest := inductionHypothesis (spans.update fun span =>
          { span with channelsBitmap := setBit span.channelsBitmap number })
        fun other member => range other (List.mem_cons_of_mem _ member)
      rw [List.map_cons, List.foldlM_cons, first]
      refine rest.trans (congrArg Except.ok ?_)
      apply Spans.ext_first
      simp only [Spans.first_update]
      rfl

/-- Copying the first span onto itself changes nothing. -/
theorem copySpan_zero (spans : Spans) : copySpan spans 0 = .ok spans := by
  rw [copySpan, Spans.updateAt_zero]
  refine congrArg Except.ok (Spans.ext_first ?_)
  rw [Spans.first_update]

/-- Parsing a list of channel numbers: the bits are set, and the span is the one that
the first number is taken to belong to. -/
theorem parseChannelBitmapLine_channelList (spans : Spans) {first : Nat} {others : List Nat}
    (range : ∀ number ∈ first :: others, 1 ≤ number ∧ number ≤ 31) :
    parseChannelBitmapLine spans (channelList (first :: others)) =
      if first = 31 then .error .outOfBounds
      else .ok (spans.update fun span =>
        { span with channelsBitmap := setBits span.channelsBitmap (first :: others) }) := by
  obtain ⟨_, _, _, _, quotient⟩ := atoi_channel (range first List.mem_cons_self)
  have stored := foldlM_storeChannel spans range
  rw [List.map_cons] at stored
  rw [parseChannelBitmapLine, tokens_channelList, List.map_cons]
  simp only [stored, quotient]
  by_cases last : first = 31
  · rw [if_pos last, if_pos last]
    rfl
  · rw [if_neg last, if_neg last]
    exact copySpan_zero _

/-- The printed line is the list of the channels whose bits are set. -/
theorem genChannelsBitmapLine_zero (line : Text) (channelsBitmap : UInt32) :
    genChannelsBitmapLine line 0 channelsBitmap =
      if bitsOf channelsBitmap = [] then line else channelList (bitsOf channelsBitmap) := by
  have items : ∀ item ∈ (bitsOf channelsBitmap).map fun number : Nat => printInt number,
      item ≠ [] := by
    intro item member
    obtain ⟨number, _, rfl⟩ := List.mem_map.mp member
    exact printInt_ne_nil _
  have condition (i : Nat) : getBit channelsBitmap i ≠ 0 ↔ testBit channelsBitmap i = true := by
    rw [getBit]
    cases testBit channelsBitmap i <;> decide
  have printed : (List.range 32).foldl
      (fun printed i =>
        if getBit channelsBitmap i ≠ 0 then appendItem comma printed (printInt (i + 0 * 31))
        else printed) [] = channelList (bitsOf channelsBitmap) := by
    rw [channelList, ← foldl_appendItem comma items, List.foldl_map, bitsOf, List.foldl_filter]
    simp only [condition, Int.zero_mul, Int.add_zero]
  rw [genChannelsBitmapLine]
  simp only [printed]
  by_cases empty : bitsOf channelsBitmap = []
  · rw [if_pos empty, empty]
    rfl
  · rw [if_neg empty, if_neg (channelList_ne_nil empty)]

/-! ## When the codec works -/

/-- Parsing `line` stores `channelsBitmap` in the first span and nothing else. -/
def StoresBitmap (spans : Spans) (line : Text) (channelsBitmap : UInt32) : Prop :=
  parseChannelBitmapLine spans line =
    .ok (spans.update fun span => { span with channelsBitmap := channelsBitmap })

/-- The line generated for a bitmap is parsed as that bitmap, whatever the line buffer
held before. -/
def BitmapRestored (channelsBitmap : UInt32) : Prop :=
  ∀ (spans : Spans) (buffer : Text), spans.first.channelsBitmap = 0 →
    StoresBitmap spans (genChannelsBitmapLine buffer 0 channelsBitmap) channelsBitmap

/-- A list of channel numbers is parsed as the set of these numbers. -/
def ListAccepted (numbers : List Nat) : Prop :=
  ∀ spans : Spans, spans.first.channelsBitmap = 0 →
    ∃ channelsBitmap, StoresBitmap spans (channelList numbers) channelsBitmap ∧
      ∀ position < 32, testBit channelsBitmap position = true ↔ position ∈ numbers

/-- The spans of a cleared configuration. -/
def Spans.zero : Spans := .replicate numSpans Span.zero

theorem parseChannelBitmapLine_nil (spans : Spans) :
    parseChannelBitmapLine spans [] = .error .nullPointer := rfl

/-- A list is accepted unless it starts with channel 31, which is taken for another span. -/
theorem listAccepted_iff {numbers : List Nat} (nonempty : numbers ≠ [])
    (range : ∀ number ∈ numbers, 1 ≤ number ∧ number ≤ 31) :
    ListAccepted numbers ↔ numbers.head? ≠ some 31 := by
  obtain ⟨first, others, rfl⟩ := List.exists_cons_of_ne_nil nonempty
  have inside : ∀ number ∈ first :: others, number < 32 := fun number member =>
    Nat.lt_succ_of_le (range number member).2
  rw [List.head?_cons, ne_eq, Option.some.injEq]
  constructor
  · intro accepted last
    obtain ⟨channelsBitmap, stored, _⟩ := accepted .zero rfl
    rw [StoresBitmap, parseChannelBitmapLine_channelList _ range, if_pos last] at stored
    cases stored
  · intro notLast spans cleared
    refine ⟨setBits 0 (first :: others), ?_, ?_⟩
    · rw [StoresBitmap, parseChannelBitmapLine_channelList _ range, if_neg notLast]
      refine congrArg Except.ok (Spans.ext_first ?_)
      rw [Spans.first_update, Spans.first_update, cleared]
    · intro position small
      rw [testBit_setBits 0 inside small, testBit_zero, Bool.false_or, decide_eq_true_iff]

/-- A bitmap of channels is restored unless its lowest channel is 31 or it is empty. -/
theorem bitmapRestored_iff {channelsBitmap : UInt32}
    (range : ∀ position < 32, testBit channelsBitmap position = true → 1 ≤ position) :
    BitmapRestored channelsBitmap ↔
      ∃ position, position ≤ 30 ∧ testBit channelsBitmap position = true := by
  have inRange : ∀ number ∈ bitsOf channelsBitmap, 1 ≤ number ∧ number ≤ 31 := by
    intro number member
    obtain ⟨small, set⟩ := mem_bitsOf.mp member
    exact ⟨range number small set, Nat.le_of_lt_succ small⟩
  cases bits : bitsOf channelsBitmap with
  | nil =>
      -- Nothing is printed, and an empty buffer has no token to parse.
      constructor
      · intro restored
        have stored := restored .zero [] rfl
        rw [genChannelsBitmapLine_zero, if_pos bits, StoresBitmap, parseChannelBitmapLine_nil]
          at stored
        cases stored
      · rintro ⟨position, small, set⟩
        have member := mem_bitsOf.mpr ⟨Nat.lt_of_le_of_lt small (by decide), set⟩
        rw [bits] at member
        cases member
  | cons first others =>
      have nonempty : bitsOf channelsBitmap ≠ [] := by simp [bits]
      rw [bits] at inRange
      have generated (buffer : Text) : genChannelsBitmapLine buffer 0 channelsBitmap =
          channelList (first :: others) := by
        rw [genChannelsBitmapLine_zero, if_neg nonempty, bits]
      constructor
      · intro restored
        have stored := restored .zero [] rfl
        rw [generated, StoresBitmap, parseChannelBitmapLine_channelList _ inRange] at stored
        by_cases last : first = 31
        · rw [if_pos last] at stored
          cases stored
        · have member : first ∈ bitsOf channelsBitmap := by simp [bits]
          have upper := (inRange first List.mem_cons_self).2
          exact ⟨first, by omega, (mem_bitsOf.mp member).2⟩
      · rintro ⟨position, small, set⟩ spans buffer cleared
        have lowest := bitsOf_head_le bits (mem_bitsOf.mpr ⟨by omega, set⟩)
        have notLast : first ≠ 31 := by omega
        rw [generated, StoresBitmap, parseChannelBitmapLine_channelList _ inRange, if_neg notLast]
        refine congrArg Except.ok (Spans.ext_first ?_)
        rw [Spans.first_update, Spans.first_update, cleared, ← bits, setBits_bitsOf]

/-- The channel codec works exactly when the first number of the line is not 31: for a
bitmap when one of the channels 1 to 30 is set, for a list when it starts with another
number. -/
theorem channelCodec_iff {channelsBitmap : UInt32}
    (bitmapRange : ∀ position < 32, testBit channelsBitmap position = true → 1 ≤ position)
    {numbers : List Nat} (nonempty : numbers ≠ [])
    (listRange : ∀ number ∈ numbers, 1 ≤ number ∧ number ≤ 31) :
    (BitmapRestored channelsBitmap ↔
        ∃ position, position ≤ 30 ∧ testBit channelsBitmap position = true) ∧
      (ListAccepted numbers ↔ numbers.head? ≠ some 31) :=
  ⟨bitmapRestored_iff bitmapRange, listAccepted_iff nonempty listRange⟩

theorem channelCodec_iff_witness :
    BitmapRestored 0x8000000A ∧ ListAccepted [16, 31, 1] := by
  have bitmapRange : ∀ position < 32, testBit 0x8000000A position = true → 1 ≤ position := by decide
  have listRange : ∀ number ∈ [16, 31, 1], 1 ≤ number ∧ number ≤ 31 := by simp
  obtain ⟨restored, accepted⟩ := channelCodec_iff bitmapRange (by simp) listRange
  exact ⟨restored.mpr ⟨1, by decide, by decide⟩, accepted.mpr (by simp)⟩

/-- Channel 31 alone, and any list that starts with it, are stored behind the array. -/
theorem channel31_lost : ¬ BitmapRestored 0x80000000 ∧ ¬ ListAccepted [31, 1] := by
  constructor
  · intro restored
    have lines := restored .zero [] rfl
    have bits : bitsOf 0x80000000 = [31] := by decide
    rw [genChannelsBitmapLine_zero, bits, if_neg (by simp), StoresBitmap,
      parseChannelBitmapLine_channelList _ (by simp), if_pos rfl] at lines
    cases lines
  · intro accepted
    exact (listAccepted_iff (by simp) (by simp)).mp accepted rfl

end Libamg.Dahdi
