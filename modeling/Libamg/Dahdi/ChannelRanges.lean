import Libamg.Dahdi.ChannelLines

/-!
# Channel ranges

The two ends of the `channel` line in the build with `DAHDI_CHANNEL_STANDARD_MODE`. An
E1 span `s` has the channels `31 * s + 1` to `31 * s + 31` and keeps the one in the middle
for signalling; a line for `n` channels names the first `n` of the others.
-/

namespace Libamg.Dahdi

open C

/-! ## Reading printed numbers -/

theorem printInt_natAbs {n : Int} (nonnegative : 0 ≤ n) : printInt n = printNat n.natAbs :=
  if_neg (Int.not_lt.mpr nonnegative)

theorem minus_notMem_printInt {n : Int} (nonnegative : 0 ≤ n) : minus ∉ printInt n := by
  rw [printInt_natAbs nonnegative]
  intro member
  exact (isDigit_cases (printNat_isDigit _ _ member)).2.1 rfl

theorem scanInt_printInt {n : Int} {rest : Text} (nonnegative : 0 ≤ n) (upper : n < 2 ^ 31)
    (stop : NoDigitNext rest) : scanInt (printInt n ++ rest) = some (Int32.ofInt n, rest) := by
  have read := atoi_printInt_append n (by omega) upper stop
  rw [printInt_natAbs nonnegative] at read ⊢
  have digits := printNat_isDigit n.natAbs
  obtain ⟨byte, tail, printed⟩ := List.exists_cons_of_ne_nil (printNat_ne_nil n.natAbs)
  obtain ⟨notSpace, notMinus, notPlus⟩ := isDigit_cases
    (digits byte (by rw [printed]; exact List.mem_cons_self))
  have body : (printNat n.natAbs ++ rest).dropWhile isSpace = printNat n.natAbs ++ rest := by
    rw [printed]
    exact List.dropWhile_cons_of_neg (by rw [notSpace]; exact Bool.false_ne_true)
  have noSign : ¬ ((printNat n.natAbs ++ rest).head? = some minus ∨
      (printNat n.natAbs ++ rest).head? = some 43) := by
    rw [printed, List.cons_append, List.head?_cons, Option.some.injEq, Option.some.injEq]
    exact not_or.mpr ⟨notMinus, notPlus⟩
  have taken := takeWhile_append_stop digits stop
  have dropped := dropWhile_append_stop digits stop
  simp only [scanInt, body, if_neg noSign, taken, dropped, if_neg (printNat_ne_nil _), read]

/-- The last number of a line. -/
theorem scanInts_last {n : Int} (separators : Text) (nonnegative : 0 ≤ n) (upper : n < 2 ^ 31) :
    scanInts separators (printInt n) = [Int32.ofInt n] := by
  have read := scanInt_printInt nonnegative upper noDigitNext_nil
  rw [List.append_nil] at read
  cases separators with
  | nil => rw [scanInts, read]
  | cons separator separators => rw [scanInts, read]

/-- A number with its separator. -/
theorem scanInts_cons {n : Int} {separator : Byte} (separators rest : Text) (nonnegative : 0 ≤ n)
    (upper : n < 2 ^ 31) (noDigit : isDigit separator = false) :
    scanInts (separator :: separators) (printInt n ++ separator :: rest) =
      Int32.ofInt n :: scanInts separators rest := by
  have stop : NoDigitNext (separator :: rest) := by
    rintro byte ⟨rfl⟩
    exact noDigit
  rw [scanInts, scanInt_printInt nonnegative upper stop]
  simp only [if_true]

/-! ## The parser for any number of spans -/

/-- `memcpy(&conf->spans[offset], span, sizeof(*span))` for `span = &conf->spans[own]`. -/
def copySpanFrom {count : Nat} (spans : Vector Span count) (own : Fin count) (offset : Int32) :
    Checked (Vector Span count) :=
  if inside : 0 ≤ offset ∧ offset.toNatClampNeg < count then
    .ok (spans.set offset.toNatClampNeg (spans.get own) inside.2)
  else .error .outOfBounds

/-- `_parse_chan_dahdi_channel_line` for `NUMSPANS` and `span` as they may be:
`count` spans, and `span = &conf->spans[own]`. -/
def parseChannelLineAt {count : Nat} (spans : Vector Span count) (own : Fin count) (line : Text) :
    Checked (Int32 × Vector Span count) :=
  match scanInts [minus, comma, minus] line with
  | [] => .ok (-1, spans)
  | first :: others =>
      if first ≤ 0 then .ok (-1, spans)
      else do
        let channels := rangeChannels first others
        let spans := spans.set own { spans.get own with channels := channels } own.isLt
        let spans ← copySpanFrom spans own ((first - 1) / 31)
        return (0, spans)

/-- The caller in `dahdi.c` has one span. -/
theorem parseChannelLineAt_numSpans (spans : Spans) (line : Text) :
    parseChannelLineAt spans ⟨0, Nat.one_pos⟩ line = parseChannelLine spans line := by
  rw [parseChannelLineAt]
  cases scanned : scanInts [minus, comma, minus] line with
  | nil => rw [parseChannelLine, scanned]
  | cons first others =>
      rw [parseChannelLine_cons spans scanned]
      rfl

/-! ## The line is read back -/

/-- No `int` overflows while a line is printed: neither the first channel of the span nor,
where it is computed, the sum of it and the number of channels. -/
def NoOverflow (s n : Nat) : Prop :=
  31 * s + 1 < 2 ^ 31 ∧ (n = 1 ∨ 31 * s + 1 + n < 2 ^ 31)

instance (s n : Nat) : Decidable (NoOverflow s n) := inferInstanceAs (Decidable (_ ∧ _))

/-- The four shapes of a line. -/
theorem genChannelsLine_cases {s n : Nat} (positive : 1 ≤ n) :
    let offset : Int := 31 * s + 1
    n = 1 ∧ genChannelsLine s n = printInt offset ∨
    1 < n ∧ n < 16 ∧
      genChannelsLine s n = printInt offset ++ minus :: printInt (offset + n - 1) ∨
    n = 16 ∧ genChannelsLine s n =
      printInt offset ++ minus :: (printInt (offset + 14) ++ comma :: printInt (offset + 16)) ∨
    16 < n ∧ genChannelsLine s n =
      printInt offset ++ minus :: (printInt (offset + 14) ++ comma ::
        (printInt (offset + 16) ++ minus :: printInt (offset + n))) := by
  intro offset
  have first : (s : Int) * 31 + 1 = offset := by omega
  rw [genChannelsLine, first]
  rcases Nat.lt_trichotomy n 16 with below | same | above
  · by_cases alone : n = 1
    · exact .inl ⟨alone, if_pos (by omega)⟩
    · refine .inr (.inl ⟨by omega, below, ?_⟩)
      rw [if_neg (by omega), if_pos (by omega), List.append_assoc]
      rfl
  · refine .inr (.inr (.inl ⟨same, ?_⟩))
    rw [if_neg (by omega), if_neg (by omega), if_pos (by omega)]
    simp only [List.append_assoc]
    rfl
  · refine .inr (.inr (.inr ⟨above, ?_⟩))
    rw [if_neg (by omega), if_neg (by omega), if_neg (by omega)]
    simp only [List.append_assoc]
    rfl

/-- The numbers that `sscanf` converts, and what the parser computes from them. -/
theorem scanInts_genChannelsLine {s n : Nat} (positive : 1 ≤ n) (fits : NoOverflow s n) :
    ∃ others, scanInts [minus, comma, minus] (genChannelsLine s n) =
        Int32.ofInt (31 * s + 1) :: others ∧
      rangeChannels (Int32.ofInt (31 * s + 1)) others = Int32.ofInt n := by
  have dash : isDigit minus = false := rfl
  have between : isDigit comma = false := rfl
  obtain ⟨small, far⟩ := fits
  obtain ⟨alone, line⟩ | ⟨more, few, line⟩ | ⟨half, line⟩ | ⟨many, line⟩ :=
    genChannelsLine_cases (s := s) positive
  all_goals rw [line]
  · refine ⟨[], scanInts_last _ (by omega) (by omega), ?_⟩
    rw [alone]
    rfl
  · refine ⟨[Int32.ofInt (31 * s + 1 + n - 1)], ?_, ?_⟩
    · rw [scanInts_cons _ _ (by omega) (by omega) dash, scanInts_last _ (by omega) (by omega)]
    · change Int32.ofInt _ - Int32.ofInt _ + Int32.ofInt 1 = _
      rw [← Int32.ofInt_sub, ← Int32.ofInt_add]
      exact congrArg Int32.ofInt (by omega)
  · refine ⟨[Int32.ofInt (31 * s + 1 + 14), Int32.ofInt (31 * s + 1 + 16)], ?_, ?_⟩
    · rw [scanInts_cons _ _ (by omega) (by omega) dash,
        scanInts_cons _ _ (by omega) (by omega) between, scanInts_last _ (by omega) (by omega)]
    · change Int32.ofInt _ - Int32.ofInt _ + Int32.ofInt 2 = _
      rw [← Int32.ofInt_sub, ← Int32.ofInt_add]
      exact congrArg Int32.ofInt (by omega)
  · refine ⟨[Int32.ofInt (31 * s + 1 + 14), Int32.ofInt (31 * s + 1 + 16),
      Int32.ofInt (31 * s + 1 + n)], ?_, ?_⟩
    · rw [scanInts_cons _ _ (by omega) (by omega) dash,
        scanInts_cons _ _ (by omega) (by omega) between,
        scanInts_cons _ _ (by omega) (by omega) dash, scanInts_last _ (by omega) (by omega)]
    · change Int32.ofInt _ - Int32.ofInt _ + Int32.ofInt _ - Int32.ofInt _ + Int32.ofInt 2 = _
      rw [← Int32.ofInt_sub, ← Int32.ofInt_add, ← Int32.ofInt_sub, ← Int32.ofInt_add]
      exact congrArg Int32.ofInt (by omega)

/-- The span index of the first channel of a span. -/
theorem rangeOffset_first {s : Nat} (small : 31 * s + 1 < 2 ^ 31) :
    (Int32.ofInt (31 * s + 1) - 1) / 31 = Int32.ofNat s := by
  have shifted : Int32.ofInt (31 * s + 1) - 1 = Int32.ofInt (31 * s) := by
    change Int32.ofInt _ - Int32.ofInt 1 = _
    rw [← Int32.ofInt_sub]
    exact congrArg Int32.ofInt (by omega)
  rw [shifted, ← Int32.toInt_inj, Int32.toInt_div_of_ne_right _ _ (by decide),
    Int32.toInt_ofInt_of_le (by omega) (by omega), Int32.toInt_ofNat_of_lt (by omega)]
  change ((31 * s : Int)).tdiv 31 = s
  rw [Int.tdiv_eq_ediv_of_nonneg (by omega)]
  omega

theorem copySpanFrom_ofNat {count s : Nat} (spans : Vector Span count) (own : Fin count)
    (inside : s < count) (small : s < 2 ^ 31) :
    copySpanFrom spans own (Int32.ofNat s) = .ok (spans.set s (spans.get own) inside) := by
  have index : (Int32.ofNat s).toNatClampNeg = s := Int32.toNatClampNeg_ofNat_of_lt small
  have nonnegative : 0 ≤ Int32.ofNat s := by
    rw [Int32.le_iff_toInt_le, Int32.toInt_ofNat_of_lt small]
    exact Int.natCast_nonneg s
  rw [copySpanFrom, dif_pos ⟨nonnegative, by rw [index]; exact inside⟩]
  simp only [index]

/-! ## The channels of a line -/

def interval (first last : Int) : List Int :=
  (List.range (last + 1 - first).toNat).map fun step : Nat => first + step

/-- The channels that one item of a line denotes: a number, or two with everything
between them. -/
def itemChannels (item : Text) : List Int :=
  match splitFirst minus item with
  | none => [strtol item]
  | some (first, last) => interval (strtol first) (strtol last)

/-- The channels that a line denotes. -/
def lineChannels (line : Text) : List Int := (tokens [comma] line).flatMap itemChannels

/-- The channel that DAHDI is told to use for signalling. -/
def dChannel (s : Nat) : Int := 31 * s + 16

/-- The channels of a span in order, without the one for signalling. -/
def channelAt (s position : Nat) : Int :=
  31 * s + 1 + position + if position < 15 then 0 else 1

theorem strtol_printed (n : Int) : strtol (printInt n) = n := by
  have read := strtol_printInt n noDigitNext_nil
  rwa [List.append_nil] at read

theorem itemChannels_number {n : Int} (nonnegative : 0 ≤ n) : itemChannels (printInt n) = [n] := by
  rw [itemChannels, splitFirst_eq_none (minus_notMem_printInt nonnegative)]
  exact congrArg (fun number => [number]) (strtol_printed n)

theorem itemChannels_range {first : Int} (last : Int) (nonnegative : 0 ≤ first) :
    itemChannels (printInt first ++ minus :: printInt last) = interval first last := by
  rw [itemChannels, splitFirst_append _ (minus_notMem_printInt nonnegative)]
  exact congrArg₂ interval (strtol_printed first) (strtol_printed last)

/-- An item of a printed line is neither empty nor cut by a comma. -/
structure LineItem (item : Text) : Prop where
  nonempty : item ≠ []
  noComma : comma ∉ item

theorem lineItem_number (n : Int) : LineItem (printInt n) :=
  ⟨printInt_ne_nil n, comma_notMem_printInt n⟩

theorem lineItem_range (first last : Int) : LineItem (printInt first ++ minus :: printInt last) := by
  refine ⟨List.append_ne_nil_of_left_ne_nil (printInt_ne_nil first) _, ?_⟩
  rw [List.mem_append, List.mem_cons]
  rintro (inFirst | isMinus | inLast)
  · exact comma_notMem_printInt first inFirst
  · exact absurd isMinus (by decide)
  · exact comma_notMem_printInt last inLast

theorem lineChannels_intercalate {items : List Text} (clean : ∀ item ∈ items, LineItem item) :
    lineChannels ([comma].intercalate items) = items.flatMap itemChannels := by
  rw [lineChannels, tokens_intercalate (fun item member => (clean item member).nonempty)
    fun item member => (clean item member).noComma]

theorem lineChannels_item {item : Text} (clean : LineItem item) :
    lineChannels item = itemChannels item := by
  have all : ∀ other ∈ [item], LineItem other := by simpa using clean
  simpa using lineChannels_intercalate all

theorem lineChannels_items {first last : Text} (cleanFirst : LineItem first)
    (cleanLast : LineItem last) :
    lineChannels (first ++ comma :: last) = itemChannels first ++ itemChannels last := by
  have both : ∀ item ∈ [first, last], LineItem item := by simpa using ⟨cleanFirst, cleanLast⟩
  simpa using lineChannels_intercalate both

theorem interval_eq_map {first last : Int} {count : Nat} {channel : Nat → Int}
    (length : last + 1 - first = count)
    (values : ∀ position < count, channel position = first + position) :
    interval first last = (List.range count).map channel := by
  rw [interval, length, Int.toNat_natCast]
  exact List.map_congr_left fun position member => (values position (List.mem_range.mp member)).symm

/-- A line for `n` channels denotes the first `n` of its span. -/
theorem lineChannels_genChannelsLine (s : Nat) {n : Nat} (positive : 1 ≤ n) :
    lineChannels (genChannelsLine s n) = (List.range n).map (channelAt s) := by
  have low {position : Nat} (below : position < 15) :
      channelAt s position = 31 * s + 1 + position := by
    rw [channelAt, if_pos below, Int.add_zero]
  have high (position : Nat) : channelAt s (15 + position) = 31 * s + 1 + 16 + position := by
    rw [channelAt, if_neg (by omega)]
    omega
  have half : interval (31 * s + 1) (31 * s + 1 + 14) = (List.range 15).map (channelAt s) :=
    interval_eq_map (by omega) fun position below => low below
  obtain ⟨alone, line⟩ | ⟨more, few, line⟩ | ⟨same, line⟩ | ⟨many, line⟩ :=
    genChannelsLine_cases (s := s) positive
  all_goals rw [line]
  · rw [lineChannels_item (lineItem_number _), itemChannels_number (by omega), alone,
      List.range_one, List.map_singleton, low (by decide)]
    exact congrArg (fun channel => [channel]) (by omega)
  · rw [lineChannels_item (lineItem_range _ _), itemChannels_range _ (by omega)]
    exact interval_eq_map (by omega) fun position below => low (by omega)
  · rw [← List.cons_append, ← List.append_assoc,
      lineChannels_items (lineItem_range _ _) (lineItem_number _), itemChannels_range _ (by omega),
      itemChannels_number (by omega), half, same, List.range_succ, List.map_append]
    exact congrArg (fun channel => _ ++ [channel]) (by rw [high 0]; omega)
  · obtain ⟨rest, rfl⟩ : ∃ rest, n = 15 + rest := Nat.exists_eq_add_of_le (by omega)
    have upper : interval (31 * s + 1 + 16) (31 * s + 1 + (15 + rest : Nat)) =
        (List.range rest).map fun position => channelAt s (15 + position) :=
      interval_eq_map (by omega) fun position _ => high position
    rw [← List.cons_append, ← List.append_assoc,
      lineChannels_items (lineItem_range _ _) (lineItem_range _ _), itemChannels_range _ (by omega),
      itemChannels_range _ (by omega), half, upper, List.range_add, List.map_append, List.map_map]
    rfl

/-! ## Channels of different spans -/

theorem channelAt_injective (s : Nat) : Function.Injective (channelAt s) := by
  intro left right same
  unfold channelAt at same
  split at same <;> split at same <;> omega

/-- The channel at a position belongs to the span and is not the one for signalling. -/
theorem channelAt_inside (s : Nat) {position : Nat} (below : position < 30) :
    31 * s + 1 ≤ channelAt s position ∧ channelAt s position ≤ 31 * s + 31 ∧
      channelAt s position ≠ dChannel s := by
  unfold channelAt dChannel
  split <;> omega

theorem mem_lineChannels {s n : Nat} (positive : 1 ≤ n) {channel : Int} :
    channel ∈ lineChannels (genChannelsLine s n) ↔ ∃ position < n, channelAt s position = channel := by
  simp only [lineChannels_genChannelsLine s positive, List.mem_map, List.mem_range]

/-- Every line for the channels of a span is part of the one for 30 channels. -/
theorem lineChannels_subset (s : Nat) {n : Nat} (positive : 1 ≤ n) (most : n ≤ 30) :
    lineChannels (genChannelsLine s n) ⊆ lineChannels (genChannelsLine s 30) := by
  intro channel member
  obtain ⟨position, below, rfl⟩ := (mem_lineChannels positive).mp member
  exact (mem_lineChannels (n := 30) (by decide)).mpr ⟨position, Nat.lt_of_lt_of_le below most, rfl⟩

theorem lineChannels_inside {s n : Nat} (positive : 1 ≤ n) (most : n ≤ 30) :
    ∀ channel ∈ lineChannels (genChannelsLine s n),
      31 * s + 1 ≤ channel ∧ channel ≤ 31 * s + 31 ∧ channel ≠ dChannel s := by
  intro channel member
  obtain ⟨position, below, rfl⟩ := (mem_lineChannels positive).mp member
  exact channelAt_inside s (Nat.lt_of_lt_of_le below most)

theorem lineChannels_disjoint {s other n m : Nat} (different : other ≠ s) (positive : 1 ≤ n)
    (most : n ≤ 30) (otherPositive : 1 ≤ m) (otherMost : m ≤ 30) :
    (lineChannels (genChannelsLine s n)).Disjoint (lineChannels (genChannelsLine other m)) := by
  intro channel member otherMember
  have bounds := lineChannels_inside positive most channel member
  have otherBounds := lineChannels_inside otherPositive otherMost channel otherMember
  omega

/-- What `system.conf` declares for an enabled span behind its `span` line. -/
theorem systemSpanText_declares (s : Nat) {span : Span} (enabled : span.enable ≠ 0) :
    ∃ spanLine, systemSpanText s span = spanLine ++
      if span.signalling = dahdiSigMfcr2 then field "cas" (genChannelsLine s 30 ++ lit ":1101")
      else field "bchan" (genChannelsLine s 30) ++ field "dchan" (printInt (dChannel s)) := by
  unfold systemSpanText
  dsimp only
  rw [if_neg enabled]
  split
  · exact ⟨_, rfl⟩
  · exact ⟨_, List.append_assoc _ _ _⟩

/-! ## The two directions together -/

/-- The parser succeeds, selects the span `s` and finds `n` channels: with any number of
spans it writes the span that it fills to the place of span `s`, and the parser of the
source, which has one, copies to the index `s` as well. -/
structure ParsedBack (s n : Nat) : Prop where
  number : (Int32.ofNat n).toInt = n
  selects : ∀ {count : Nat} (spans : Vector Span count) (own : Fin count) (inside : s < count),
    let span := { spans.get own with channels := Int32.ofNat n }
    parseChannelLineAt spans own (genChannelsLine s n) =
      .ok (0, (spans.set own span own.isLt).set s span inside)
  source : ∀ spans : Spans, parseChannelLine spans (genChannelsLine s n) =
    copySpan (spans.update fun span => { span with channels := Int32.ofNat n }) (Int32.ofNat s) >>=
      fun spans => .ok (0, spans)

/-- The line denotes `n` channels that belong to the span and do not signal, no channel
of another span, and none that `system.conf` does not declare. -/
structure OwnChannels (s n : Nat) : Prop where
  distinct : (lineChannels (genChannelsLine s n)).Nodup
  length : (lineChannels (genChannelsLine s n)).length = n
  inside : ∀ channel ∈ lineChannels (genChannelsLine s n),
    31 * s + 1 ≤ channel ∧ channel ≤ 31 * s + 31 ∧ channel ≠ dChannel s
  disjoint : ∀ other m : Nat, other ≠ s → 1 ≤ m → m ≤ 30 →
    (lineChannels (genChannelsLine s n)).Disjoint (lineChannels (genChannelsLine other m))
  declared : ∀ span : Span, span.enable ≠ 0 → ∃ spanLine, systemSpanText s span = spanLine ++
    if span.signalling = dahdiSigMfcr2 then field "cas" (genChannelsLine s 30 ++ lit ":1101")
    else field "bchan" (genChannelsLine s 30) ++ field "dchan" (printInt (dChannel s))
  included : lineChannels (genChannelsLine s n) ⊆ lineChannels (genChannelsLine s 30)

theorem parsedBack {s n : Nat} (positive : 1 ≤ n) (fits : NoOverflow s n) : ParsedBack s n := by
  obtain ⟨others, scanned, channels⟩ := scanInts_genChannelsLine positive fits
  rw [Int32.ofInt_eq_ofNat] at channels
  obtain ⟨small, far⟩ := fits
  have offset := rangeOffset_first small
  have accepted : ¬ Int32.ofInt (31 * s + 1) ≤ 0 := by
    rw [Int32.le_iff_toInt_le, Int32.toInt_ofInt_of_le (by omega) (by omega)]
    change ¬ (31 * s + 1 : Int) ≤ 0
    omega
  refine ⟨Int32.toInt_ofNat_of_lt (by omega), ?_, ?_⟩
  · intro count spans own inside span
    have filled : (spans.set own span own.isLt).get own = span := Vector.getElem_set_self _
    rw [parseChannelLineAt, scanned]
    dsimp only
    rw [if_neg accepted, channels, offset, copySpanFrom_ofNat _ own inside (by omega), filled]
    rfl
  · intro spans
    rw [parseChannelLine_cons spans scanned, if_neg accepted, channels, offset]

theorem ownChannels {s n : Nat} (positive : 1 ≤ n) (most : n ≤ 30) : OwnChannels s n where
  distinct := by
    rw [lineChannels_genChannelsLine s positive]
    exact List.nodup_range.map (channelAt_injective s)
  length := by rw [lineChannels_genChannelsLine s positive, List.length_map, List.length_range]
  inside := lineChannels_inside positive most
  disjoint _ _ different otherPositive otherMost :=
    lineChannels_disjoint different positive most otherPositive otherMost
  declared _ enabled := systemSpanText_declares s enabled
  included := lineChannels_subset s positive most

/-- The line that is printed for `n` channels of the span `s` is parsed as just that, and
up to 30 channels it denotes `n` of the span's own. -/
theorem channelRanges {s n : Nat} (positive : 1 ≤ n) (fits : NoOverflow s n) :
    ParsedBack s n ∧ (n ≤ 30 → OwnChannels s n) :=
  ⟨parsedBack positive fits, ownChannels positive⟩

theorem channelRanges_witness : ParsedBack 69273666 1 ∧ ParsedBack 2 17 ∧ OwnChannels 2 17 := by
  have alone : ParsedBack 69273666 1 ∧ _ := channelRanges (by decide) (by decide)
  have ranges : ParsedBack 2 17 ∧ _ := channelRanges (by decide) (by decide)
  exact ⟨alone.1, ranges.1, ranges.2 (by decide)⟩

example : genChannelsLine 2 17 = lit "63-77,79-80" := by decide

end Libamg.Dahdi
