import Libamg.C.Lines
import Libamg.Dahdi.Config

/-!
# Channel lines of any shape

What the two line parsers of `chan_dahdi.conf` do with a `channel` line that was not
written by the library. Nothing between the file and the span index, the shift count or
the pointers given to `strtok` and `atoi` is checked, and numbers behind the ones that are
converted are not looked at: `readsChannels_iff` says for which files this does no harm.
-/

namespace Libamg.Dahdi

open C

/-- The values that are read with the key `channel`, before they are cropped. -/
def channelValues (text : Text) : List Text := valuesOf "channel" (linesRead bufSize [] text)

/-- What a line parser gets of such a value: the string behind `>`, or a NULL pointer. -/
def channelText (raw : Text) : Option Text :=
  (Str.nextToken (crop dahdiDelimiters raw) 62).map Prod.snd

/-- A channel of a configured span. -/
def IsChannel (number : Int) : Prop := 1 ≤ number ∧ number ≤ 31 * numSpans

instance (number : Int) : Decidable (IsChannel number) := inferInstanceAs (Decidable (_ ∧ _))

/-- A string that a `channel` line must not have behind its `>`: none at all, an empty one,
or one with a number written in it that is the channel of no span. -/
def BadChannels (channels : Option Text) : Prop :=
  ∀ string ∈ channels, string = [] ∨ ∃ number ∈ writtenNumbers string, ¬ IsChannel number

example : ∀ string ∈ [lit "1,40", lit "1-15,17-31,40-50", lit "5-40", lit "0,5", lit "1--5"],
    ∃ number ∈ writtenNumbers string, ¬ IsChannel number := by decide

/-- A `channel` line without a `>`, with nothing behind it, or with the number of a channel
that no span has. -/
def Malformed (line : Text) : Prop :=
  ∃ raw, keyValue [] line = some (lit "channel", raw) ∧ BadChannels (channelText raw)

/-- The items of a comma separated list, without the empty ones. -/
def listItems (string : Text) : List Text := (string.splitOn comma).filter (· ≠ [])

/-- Strings that the line parser of a build stays inside its arrays for. The one for ranges
rejects what begins with a number below 1. The one for bitmaps needs an item, passes over
zeros, and takes 31 for a channel of the next span if it comes first. -/
def Handled (standardMode : Bool) (string : Text) : Prop :=
  if standardMode then ∀ number ∈ numberAtFront string, 0 < number → IsChannel number
  else
    listItems string ≠ [] ∧
      (∀ item ∈ listItems string, strtol item = 0 ∨ IsChannel (strtol item)) ∧
      ∀ first ∈ (listItems string).head?, strtol first ≠ 31

/-- Strings that it takes no channel from. -/
def TakesNothing (standardMode : Bool) (string : Text) : Prop :=
  if standardMode then ∀ number ∈ numberAtFront string, number ≤ 0
  else ∀ item ∈ listItems string, strtol item = 0

/-- The keys that the loop knows, `channel` apart. -/
def knownKeys (standardMode : Bool) : List Text :=
  (if standardMode then [lit ";channels_offset"] else []) ++
    [lit "signalling", lit "overlapdial", lit "switchtype", lit "mfcr2_get_ani_first",
      lit "mfcr2_max_ani", lit "mfcr2_max_dnis", lit "mfcr2_allow_collect_calls",
      lit "mfcr2_double_answer", lit "echocancel"]

/-- A setting that is taken for nothing but a reason to enable the span. -/
def Idle (standardMode : Bool) (setting : Text × Text) : Prop :=
  setting.1 ∉ knownKeys standardMode ∧
    (setting.1 = lit "channel" →
      ∀ string ∈ channelText setting.2, TakesNothing standardMode string)

/-- What every setting does. -/
def enableFirst (spans : Spans) : Spans := spans.update fun span => { span with enable := 1 }

/-! ## Span indexes -/

/-- The channels of the only span. -/
theorem isChannel_iff {number : Int} : IsChannel number ↔ 1 ≤ number ∧ number ≤ 31 := Iff.rfl

/-- Behind the only span there is none. -/
theorem copySpan_of_ne_zero (spans : Spans) {offset : Int32} (outside : offset ≠ 0) :
    copySpan spans offset = .error .outOfBounds := by
  rw [copySpan, Spans.updateAt]
  refine dif_neg ?_
  rintro ⟨nonnegative, inside⟩
  have zero : offset.toNatClampNeg = 0 := Nat.lt_one_iff.mp inside
  exact outside (Int32.le_antisymm (Int32.toNatClampNeg_eq_zero_iff.mp zero) nonnegative)

/-- An index into the array of spans. -/
theorem copySpan_ok_iff {spans after : Spans} {offset : Int32} :
    copySpan spans offset = .ok after ↔ offset = 0 ∧ spans = after := by
  by_cases zero : offset = 0
  · rw [zero, copySpan_zero, Except.ok.injEq]
    exact (and_iff_right rfl).symm
  · rw [copySpan_of_ne_zero spans zero]
    exact iff_of_false nofun fun both => zero both.1

/-- The span of the first number of a range. -/
theorem rangeOffset_iff {first : Int32} (positive : 0 < first) :
    (first - 1) / 31 = 0 ↔ IsChannel first.toInt := by
  have lower : 1 ≤ first.toInt := Int32.lt_iff_toInt_lt.mp positive
  have upper := first.toInt_lt
  have before : (first - 1).toInt = first.toInt - 1 :=
    Int32.toInt_sub_of_le first 1 (by decide) (Int32.le_iff_toInt_le.mpr lower)
  have quotient : ((first - 1) / 31).toInt = (first.toInt - 1) / 31 := by
    rw [Int32.toInt_div_of_ne_right _ _ (by decide), before]
    exact Int.tdiv_eq_ediv_of_nonneg (by omega)
  rw [isChannel_iff, ← Int32.toInt_inj, quotient]
  change (first.toInt - 1) / 31 = 0 ↔ _
  omega

/-- The span of the first number of a list. -/
theorem listOffset_iff {first : Int32} (small : first.toInt = 0 ∨ IsChannel first.toInt) :
    first / 31 = 0 ↔ first.toInt ≠ 31 := by
  have range : 0 ≤ first.toInt ∧ first.toInt ≤ 31 := by
    rw [isChannel_iff] at small
    omega
  have quotient : (first / 31).toInt = first.toInt / 31 := by
    rw [Int32.toInt_div_of_ne_right _ _ (by decide)]
    exact Int.tdiv_eq_ediv_of_nonneg range.1
  rw [← Int32.toInt_inj, quotient]
  change first.toInt / 31 = 0 ↔ _
  omega

/-! ## The parser of ranges -/

theorem atoi_dropWhile (text : Text) : atoi (text.dropWhile isSpace) = atoi text := by
  have idempotent : (text.dropWhile isSpace).dropWhile isSpace = text.dropWhile isSpace :=
    List.dropWhile_idempotent isSpace text
  rw [atoi, atoi, strtol, strtol, idempotent]

/-- The first number that is converted is the one at the front. -/
theorem scanInts_cases (separators line : Text) :
    (numberAtFront line = none ∧ scanInts separators line = []) ∨
      ∃ others, numberAtFront line = some (strtol line) ∧
        scanInts separators line = atoi line :: others := by
  have scan : scanInt line = if (unsigned line).takeWhile isDigit = [] then none
      else some (atoi line, (unsigned line).dropWhile isDigit) := by
    rw [← atoi_dropWhile line]
    rfl
  rw [numberAtFront]
  by_cases noDigits : (unsigned line).takeWhile isDigit = []
  · rw [if_pos noDigits] at scan ⊢
    refine .inl ⟨rfl, ?_⟩
    cases separators <;> rw [scanInts, scan]
  · rw [if_neg noDigits] at scan ⊢
    refine .inr ?_
    cases separators <;> rw [scanInts, scan] <;> exact ⟨_, rfl, rfl⟩

/-- Saturation does not move a number over a bound of the channels. -/
theorem atoi_pos_iff (text : Text) : 0 < atoi text ↔ 0 < strtol text := by
  have value := toInt_atoi text
  rw [Int32.lt_iff_toInt_lt]
  change 0 < (atoi text).toInt ↔ _
  omega

theorem isChannel_atoi_iff (text : Text) : IsChannel (atoi text).toInt ↔ IsChannel (strtol text) := by
  have value := toInt_atoi text
  rw [isChannel_iff, isChannel_iff]
  omega

theorem atoi_eq_zero_iff (text : Text) : atoi text = 0 ↔ strtol text = 0 := by
  have value := toInt_atoi text
  rw [← Int32.toInt_inj]
  change (atoi text).toInt = 0 ↔ _
  omega

/-- A number is not its successor. -/
theorem ne_add_one (number : Int32) : number ≠ number + 1 := by
  intro equal
  have one : (0 : Int32) = 1 := by
    calc (0 : Int32) = number - number := (Int32.sub_self number).symm
      _ = number + 1 - number := congrArg (· - number) equal
      _ = 1 := by rw [Int32.add_comm, Int32.add_sub_cancel]
  exact absurd one (by decide)

/-- The number of channels that the parser of ranges computes. -/
def rangeChannels (first : Int32) : List Int32 → Int32
  | [] => 1
  | [a] => a - first + 1
  | [a, _] => a - first + 2
  | a :: b :: c :: _ => c - b + a - first + 2

/-- The parser of ranges on a line with numbers. -/
theorem parseChannelLine_cons {line : Text} {first : Int32} {others : List Int32} (spans : Spans)
    (scanned : scanInts [minus, comma, minus] line = first :: others) :
    parseChannelLine spans line =
      if first ≤ 0 then .ok (-1, spans)
      else copySpan (spans.update fun span => { span with channels := rangeChannels first others })
        ((first - 1) / 31) >>= fun spans => .ok (0, spans) := by
  rw [parseChannelLine, scanned]
  cases others using rangeChannels.fun_cases <;> rfl

/-- Ranges without numbers, or with a first one below 1, are rejected. -/
theorem parseChannelLine_rejected {line : Text} (spans : Spans) (nothing : TakesNothing true line) :
    parseChannelLine spans line = .ok (-1, spans) := by
  rcases scanInts_cases [minus, comma, minus] line with ⟨-, scanned⟩ | ⟨others, front, scanned⟩
  · rw [parseChannelLine, scanned]
  · have notPositive : ¬ 0 < atoi line := by
      rw [atoi_pos_iff]
      exact Int.not_lt.mpr (nothing _ front)
    rw [parseChannelLine_cons spans scanned, if_pos (Int32.not_lt.mp notPositive)]

/-- The others set the number of channels, whatever it was before, or leave the array. -/
theorem parseChannelLine_taken {line : Text} (something : ¬ TakesNothing true line) :
    ∃ channels, ∀ spans, parseChannelLine spans line =
      if IsChannel (strtol line) then
        .ok (0, spans.update fun span => { span with channels := channels })
      else .error .outOfBounds := by
  rcases scanInts_cases [minus, comma, minus] line with ⟨none, -⟩ | ⟨others, front, scanned⟩
  · refine absurd (fun number found => ?_) something
    rw [none] at found
    cases found
  · have positive : 0 < atoi line := by
      rw [atoi_pos_iff]
      by_contra notPositive
      refine something fun number found => ?_
      rw [front] at found
      cases found
      exact Int.not_lt.mp notPositive
    refine ⟨rangeChannels (atoi line) others, fun spans => ?_⟩
    rw [parseChannelLine_cons spans scanned, if_neg (Int32.not_le.mpr positive)]
    by_cases inside : IsChannel (strtol line)
    · have offset := (rangeOffset_iff positive).mpr ((isChannel_atoi_iff line).mpr inside)
      rw [if_pos inside, offset, copySpan_zero]
      rfl
    · have outside : ¬ (atoi line - 1) / 31 = 0 := by
        rwa [rangeOffset_iff positive, isChannel_atoi_iff]
      rw [if_neg inside, copySpan_of_ne_zero _ outside]
      rfl

theorem parseChannelLine_ok_iff (spans : Spans) (line : Text) :
    (∃ after, parseChannelLine spans line = .ok after) ↔ Handled true line := by
  by_cases nothing : TakesNothing true line
  · refine iff_of_true ⟨_, parseChannelLine_rejected spans nothing⟩ fun number found positive => ?_
    exact absurd positive (Int.not_lt.mpr (nothing number found))
  · obtain ⟨channels, outcome⟩ := parseChannelLine_taken nothing
    obtain ⟨number, front, positive⟩ : ∃ number ∈ numberAtFront line, ¬ number ≤ 0 := by
      simpa only [TakesNothing, if_true, not_forall, exists_prop] using nothing
    have value : strtol line = number := by
      rw [numberAtFront] at front
      exact Option.some.inj (Option.ite_none_left_eq_some.mp front).2
    have handled : Handled true line ↔ IsChannel (strtol line) := by
      simp only [Handled, if_true, Option.mem_def.mp front, Option.mem_some_iff, forall_eq', value,
        imp_iff_right (Int.not_le.mp positive)]
    rw [outcome, handled]
    split
    · exact iff_of_true ⟨_, rfl⟩ ‹_›
    · exact iff_of_false (Checked.error_not_ok _) ‹_›

/-! ## The parser of lists -/

/-- An item that may be stored. -/
def Storable (item : Text) : Prop := strtol item = 0 ∨ IsChannel (strtol item)

/-- Zeros are passed over, channels are set, and anything else is no shift count. -/
theorem storeChannel_eq (spans : Spans) (item : Text) :
    storeChannel spans item =
      if strtol item = 0 then .ok spans
      else if IsChannel (strtol item) then
        .ok (spans.update fun span =>
          { span with channelsBitmap := setBit span.channelsBitmap (strtol item).toNat })
      else .error .shiftRange := by
  have value := toInt_atoi item
  rw [storeChannel]
  by_cases zero : strtol item = 0
  · rw [if_pos zero, if_pos ((atoi_eq_zero_iff item).mpr zero)]
  · have nonzero : atoi item ≠ 0 := fun same => zero ((atoi_eq_zero_iff item).mp same)
    have range : (0 ≤ atoi item ∧ atoi item < 32) ↔ IsChannel (strtol item) := by
      rw [Int32.le_iff_toInt_le, Int32.lt_iff_toInt_lt, isChannel_iff]
      change 0 ≤ (atoi item).toInt ∧ (atoi item).toInt < 32 ↔ _
      omega
    rw [if_neg zero, if_neg nonzero]
    by_cases inside : IsChannel (strtol item)
    · have same : (atoi item).toNatClampNeg = (strtol item).toNat := by
        rw [isChannel_iff] at inside
        change (atoi item).toInt.toNat = _
        omega
      rw [if_pos inside, if_pos (range.mpr inside), same]
    · rw [if_neg inside, if_neg fun both => inside (range.mp both)]

/-- The loop over the items. -/
theorem storeChannels_ok_iff (spans : Spans) (items : List Text) :
    (∃ after, items.foldlM storeChannel spans = .ok after) ↔ ∀ item ∈ items, Storable item := by
  apply Checked.foldlM_ok_iff
  · intro item storable state
    rw [storeChannel_eq]
    by_cases zero : strtol item = 0
    · exact ⟨state, if_pos zero⟩
    · exact ⟨_, (if_neg zero).trans (if_pos (storable.resolve_left zero))⟩
  · intro item outside state
    obtain ⟨nonzero, outside⟩ := not_or.mp outside
    exact ⟨_, (storeChannel_eq state item).trans ((if_neg nonzero).trans (if_neg outside))⟩

/-- Once set, a bit stays. -/
theorem storeChannel_keeps {spans next : Spans} {item : Text} {position : Nat}
    (inside : position < 32) (stored : storeChannel spans item = .ok next)
    (present : testBit spans.first.channelsBitmap position = true) :
    testBit next.first.channelsBitmap position = true := by
  rw [storeChannel_eq] at stored
  split at stored
  · cases stored
    exact present
  · split at stored
    · rename_i channel
      cases stored
      have small : (strtol item).toNat < 32 := by
        rw [isChannel_iff] at channel
        omega
      rw [Spans.first_update, testBit_setBit _ small inside, present, Bool.true_or]
    · cases stored

theorem storeChannels_keep {spans after : Spans} {items : List Text} {position : Nat}
    (inside : position < 32) (stored : items.foldlM storeChannel spans = .ok after)
    (present : testBit spans.first.channelsBitmap position = true) :
    testBit after.first.channelsBitmap position = true := by
  induction items generalizing spans with
  | nil =>
      cases stored
      exact present
  | cons item items inductionHypothesis =>
      rw [List.foldlM_cons] at stored
      obtain ⟨next, first, rest⟩ := Checked.bind_eq_ok stored
      exact inductionHypothesis rest (storeChannel_keeps inside first present)

/-- The bit of a number on the line is set in the end. -/
theorem storeChannels_set {spans after : Spans} {items : List Text} {item : Text}
    (stored : items.foldlM storeChannel spans = .ok after) (listed : item ∈ items)
    (nonzero : strtol item ≠ 0) :
    IsChannel (strtol item) ∧ testBit after.first.channelsBitmap (strtol item).toNat = true := by
  induction items generalizing spans with
  | nil => cases listed
  | cons first items inductionHypothesis =>
      rw [List.foldlM_cons] at stored
      obtain ⟨next, setFirst, rest⟩ := Checked.bind_eq_ok stored
      rcases List.mem_cons.mp listed with rfl | later
      · rw [storeChannel_eq, if_neg nonzero] at setFirst
        split at setFirst
        · rename_i channel
          have small : (strtol item).toNat < 32 := by
            rw [isChannel_iff] at channel
            omega
          cases setFirst
          refine ⟨channel, storeChannels_keep small rest ?_⟩
          rw [Spans.first_update, testBit_setBit _ small small, decide_eq_true rfl, Bool.or_true]
        · cases setFirst
      · exact inductionHypothesis rest later

/-- The parser of lists, through the items. -/
theorem parseChannelBitmapLine_ok_iff {spans after : Spans} {line : Text} :
    parseChannelBitmapLine spans line = .ok after ↔
      Handled false line ∧ (listItems line).foldlM storeChannel spans = .ok after := by
  have handled : Handled false line ↔ listItems line ≠ [] ∧ (∀ item ∈ listItems line, Storable item) ∧
      ∀ first ∈ (listItems line).head?, strtol first ≠ 31 := Iff.rfl
  rw [handled, parseChannelBitmapLine, tokens_eq_filter, ← listItems]
  cases listItems line with
  | nil =>
      constructor
      · intro returned
        cases returned
      · rintro ⟨⟨some, -⟩, -⟩
        exact absurd rfl some
  | cons first others =>
      simp only [List.head?_cons, Option.mem_some_iff, forall_eq', ne_eq, reduceCtorEq,
        not_false_eq_true, true_and]
      have offset (storable : Storable first) : atoi first / 31 = 0 ↔ strtol first ≠ 31 := by
        have value := toInt_atoi first
        have small : (atoi first).toInt = 0 ∨ IsChannel (atoi first).toInt := by
          rw [Storable, isChannel_iff] at storable
          rw [isChannel_iff]
          omega
        rw [listOffset_iff small]
        omega
      constructor
      · intro returned
        obtain ⟨stored, loop, copied⟩ := Checked.bind_eq_ok returned
        have storable := (storeChannels_ok_iff spans _).mp ⟨stored, loop⟩
        obtain ⟨inside, rfl⟩ := copySpan_ok_iff.mp copied
        exact ⟨⟨storable, (offset (storable first List.mem_cons_self)).mp inside⟩, loop⟩
      · rintro ⟨⟨storable, notLast⟩, loop⟩
        have inside := (offset (storable first List.mem_cons_self)).mpr notLast
        rw [loop]
        exact copySpan_ok_iff.mpr ⟨inside, rfl⟩

/-! ## Settings -/

/-- What a turn of the loop leaves to be seen in a span, whatever was there before, and what
enabling a span does not. -/
structure Leaves (turn : Spans → Checked Spans) (seen : Span → Prop) : Prop where
  blind : ∀ span enable, seen { span with enable := enable } ↔ seen span
  absent : ∃ span, ¬ seen span
  leaves : ∀ spans after, turn spans = .ok after → seen after.first

/-- A turn that gives a field a value. -/
theorem Leaves.update {α : Type} {turn : Spans → Checked Spans} {edit : Span → Span}
    (same : ∀ spans, turn spans = .ok ((enableFirst spans).update edit)) (field : Span → α) {value : α}
    (blind : ∀ span enable, field { span with enable := enable } = field span) (other : Span)
    (different : field other ≠ value) (sets : ∀ span, field (edit span) = value) :
    ∃ seen, Leaves turn seen := by
  refine ⟨fun span => field span = value, fun span enable => ?_, ⟨other, different⟩, ?_⟩
  · rw [blind]
  · intro spans after returned
    rw [same] at returned
    cases returned
    rw [Spans.first_update]
    exact sets _

section Channel

variable {raw string : Text}

/-- A string goes through to the parser of ranges. -/
theorem parseChannel_ranges (spans : Spans) (found : channelText raw = some string) :
    parseChannel true raw spans = parseChannelLine spans string >>= fun result => .ok result.2 := by
  obtain ⟨parts, cut, rfl⟩ := Option.map_eq_some_iff.mp found
  unfold parseChannel
  rw [cut]
  rfl

theorem parseChannel_list (spans : Spans) (found : channelText raw = some string) :
    parseChannel false raw spans = parseChannelBitmapLine spans string := by
  obtain ⟨parts, cut, rfl⟩ := Option.map_eq_some_iff.mp found
  unfold parseChannel
  rw [cut]

theorem parseChannel_ok_iff {standardMode : Bool} (spans : Spans)
    (found : channelText raw = some string) :
    (∃ after, parseChannel standardMode raw spans = .ok after) ↔ Handled standardMode string := by
  cases standardMode with
  | true =>
      rw [parseChannel_ranges spans found, ← parseChannelLine_ok_iff spans]
      constructor
      · rintro ⟨after, returned⟩
        obtain ⟨result, parsed, -⟩ := Checked.bind_eq_ok returned
        exact ⟨result, parsed⟩
      · rintro ⟨result, parsed⟩
        exact ⟨result.2, by rw [parsed]; rfl⟩
  | false =>
      rw [parseChannel_list spans found]
      constructor
      · rintro ⟨after, returned⟩
        exact (parseChannelBitmapLine_ok_iff.mp returned).1
      · intro handled
        obtain ⟨after, stored⟩ := (storeChannels_ok_iff spans _).mpr handled.2.1
        exact ⟨after, parseChannelBitmapLine_ok_iff.mpr ⟨handled, stored⟩⟩

/-- Strings without a channel leave the spans alone. -/
theorem parseChannel_nothing {standardMode : Bool} (spans : Spans)
    (found : channelText raw = some string) (handled : Handled standardMode string)
    (nothing : TakesNothing standardMode string) :
    parseChannel standardMode raw spans = .ok spans := by
  cases standardMode with
  | true =>
      rw [parseChannel_ranges spans found, parseChannelLine_rejected spans nothing]
      rfl
  | false =>
      have zeros : ∀ items : List Text, (∀ item ∈ items, strtol item = 0) →
          items.foldlM storeChannel spans = .ok spans := by
        intro items all
        induction items with
        | nil => rfl
        | cons item items inductionHypothesis =>
            obtain ⟨zero, others⟩ := List.forall_mem_cons.mp all
            rw [List.foldlM_cons, storeChannel_eq, if_pos zero]
            exact inductionHypothesis others
      rw [parseChannel_list spans found, parseChannelBitmapLine_ok_iff]
      exact ⟨handled, zeros _ nothing⟩

/-- All others can be seen in a span. -/
theorem parseChannel_something {standardMode : Bool} (found : channelText raw = some string)
    (something : ¬ TakesNothing standardMode string) :
    ∃ seen, Leaves (fun spans => parseChannel standardMode raw (enableFirst spans)) seen := by
  cases standardMode with
  | true =>
      obtain ⟨channels, outcome⟩ := parseChannelLine_taken something
      refine ⟨fun span => span.channels = channels, fun _ _ => Iff.rfl,
        ⟨{ Span.zero with channels := channels + 1 }, fun same => ne_add_one _ same.symm⟩, ?_⟩
      intro spans after returned
      rw [parseChannel_ranges _ found, outcome] at returned
      split at returned
      · cases returned
        rw [Spans.first_update]
      · cases returned
  | false =>
      obtain ⟨item, listed, nonzero⟩ : ∃ item ∈ listItems string, strtol item ≠ 0 := by
        simpa [TakesNothing] using something
      refine ⟨fun span => testBit span.channelsBitmap (strtol item).toNat = true, fun _ _ => Iff.rfl,
        ⟨.zero, by simp [Span.zero]⟩, ?_⟩
      intro spans after returned
      rw [parseChannel_list _ found] at returned
      have stored := (parseChannelBitmapLine_ok_iff.mp returned).2
      exact (storeChannels_set stored listed nonzero).2

end Channel

theorem applySetting_channel (standardMode : Bool) (raw : Text) (spans : Spans) :
    applySetting standardMode (lit "channel") raw spans =
      parseChannel standardMode raw (enableFirst spans) := by
  simp only [applySetting, lit_inj, String.reduceEq, and_false, if_false, if_true]
  rfl

/-- A key that the loop does not know. -/
theorem applySetting_unknown {standardMode : Bool} {key : Text} (raw : Text) (spans : Spans)
    (notChannel : key ≠ lit "channel") (unknown : key ∉ knownKeys standardMode) :
    applySetting standardMode key raw spans = .ok (enableFirst spans) := by
  simp only [knownKeys, List.mem_append, List.mem_cons, List.not_mem_nil, or_false, not_or] at unknown
  have offset : ¬ (standardMode = true ∧ key = lit ";channels_offset") := by
    rintro ⟨rfl, isOffset⟩
    exact unknown.1 (List.mem_singleton.mpr isOffset)
  simp only [applySetting, unknown, notChannel, offset, if_false]
  rfl

/-- The first 15 bytes of the switch type. -/
theorem switchtype_differs (value : Text) : ∃ other : Span,
    other.isdn.switchtype.bytes.take 15 ≠ value.take 15 ++ List.replicate (15 - value.length) 0 := by
  let byte : Byte := (value ++ [0]).headD 0 + 1
  refine ⟨{ Span.zero with isdn.switchtype := ⟨List.replicate 16 byte, List.length_replicate⟩ }, ?_⟩
  intro same
  have heads := congrArg List.head? same
  cases value with
  | nil => exact absurd heads (by decide)
  | cons first value =>
      have equal : first + 1 = first := Option.some.inj heads
      have one : (1 : Byte) = 0 := by
        rwa [UInt8.add_eq_left] at equal
      exact absurd one (by decide)

/-- Every key that the loop knows gives a field a value. -/
theorem applySetting_known {standardMode : Bool} {key : Text} (raw : Text)
    (known : key ∈ knownKeys standardMode) :
    ∃ seen, Leaves (applySetting standardMode key raw) seen := by
  have successor (value : Int32) : value + 1 ≠ value := (ne_add_one value).symm
  simp only [knownKeys, List.mem_append, List.mem_cons, List.not_mem_nil, or_false] at known
  rcases known with offset | rfl | rfl | rfl | rfl | rfl | rfl | rfl | rfl | rfl
  · cases standardMode with
    | false => cases offset
    | true =>
        rw [List.mem_singleton.mp offset]
        have turn (spans : Spans) : applySetting true (lit ";channels_offset") raw spans =
            .ok ((enableFirst spans).update fun span =>
              { span with channelsOffset := atoi (crop dahdiDelimiters raw) }) := by
          simp only [applySetting, lit_inj, String.reduceEq, and_self, if_false, if_true]
          rfl
        exact Leaves.update turn Span.channelsOffset (fun _ _ => rfl)
          { Span.zero with channelsOffset := _ } (successor _) fun _ => rfl
  · have turn (spans : Spans) : applySetting standardMode (lit "signalling") raw spans =
        .ok ((enableFirst spans).update fun span =>
          { span with signalling := signallingCode (crop dahdiDelimiters raw) }) := by
      simp only [applySetting, lit_inj, String.reduceEq, and_false, if_false, if_true]
      rfl
    exact Leaves.update turn Span.signalling (fun _ _ => rfl)
      { Span.zero with signalling := _ } (successor _) fun _ => rfl
  · have turn (spans : Spans) : applySetting standardMode (lit "overlapdial") raw spans =
        .ok ((enableFirst spans).update fun span =>
          { span with isdn.overlapdial := if crop dahdiDelimiters raw = lit "no" then 0 else 1 }) := by
      simp only [applySetting, lit_inj, String.reduceEq, and_false, if_false, if_true]
      rfl
    exact Leaves.update turn (fun span => span.isdn.overlapdial) (fun _ _ => rfl)
      { Span.zero with isdn.overlapdial := _ } (successor _) fun _ => rfl
  · have turn (spans : Spans) : applySetting standardMode (lit "switchtype") raw spans =
        .ok ((enableFirst spans).update fun span => { span with
          isdn.switchtype := span.isdn.switchtype.strncpy (crop dahdiDelimiters raw) 15 }) := by
      simp only [applySetting, lit_inj, String.reduceEq, if_false, if_true]
      rfl
    obtain ⟨other, different⟩ := switchtype_differs (crop dahdiDelimiters raw)
    refine Leaves.update turn (fun span => span.isdn.switchtype.bytes.take 15) (fun _ _ => rfl) other
      different fun span => ?_
    have front : ((crop dahdiDelimiters raw).take 15 ++
        List.replicate (15 - (crop dahdiDelimiters raw).length) (0 : Byte)).length = 15 := by
      rw [List.length_append, List.length_take, List.length_replicate]
      omega
    rw [CharArray.strncpy_bytes, List.take_append_of_le_length (Nat.le_of_eq front.symm),
      List.take_of_length_le (Nat.le_of_eq front)]
  · have turn (spans : Spans) : applySetting standardMode (lit "mfcr2_get_ani_first") raw spans =
        .ok ((enableFirst spans).update fun span =>
          { span with mfcr2.getAniFirst := if crop dahdiDelimiters raw = lit "yes" then 1 else 0 }) := by
      simp only [applySetting, lit_inj, String.reduceEq, and_false, if_false, if_true]
      rfl
    exact Leaves.update turn (fun span => span.mfcr2.getAniFirst) (fun _ _ => rfl)
      { Span.zero with mfcr2.getAniFirst := _ } (successor _) fun _ => rfl
  · have turn (spans : Spans) : applySetting standardMode (lit "mfcr2_max_ani") raw spans =
        .ok ((enableFirst spans).update fun span =>
          { span with mfcr2.maxAni := atoi (crop dahdiDelimiters raw) }) := by
      simp only [applySetting, lit_inj, String.reduceEq, and_false, if_false, if_true]
      rfl
    exact Leaves.update turn (fun span => span.mfcr2.maxAni) (fun _ _ => rfl)
      { Span.zero with mfcr2.maxAni := _ } (successor _) fun _ => rfl
  · have turn (spans : Spans) : applySetting standardMode (lit "mfcr2_max_dnis") raw spans =
        .ok ((enableFirst spans).update fun span =>
          { span with mfcr2.maxDnis := atoi (crop dahdiDelimiters raw) }) := by
      simp only [applySetting, lit_inj, String.reduceEq, and_false, if_false, if_true]
      rfl
    exact Leaves.update turn (fun span => span.mfcr2.maxDnis) (fun _ _ => rfl)
      { Span.zero with mfcr2.maxDnis := _ } (successor _) fun _ => rfl
  · have turn (spans : Spans) : applySetting standardMode (lit "mfcr2_allow_collect_calls") raw spans =
        .ok ((enableFirst spans).update fun span =>
          { span with mfcr2.allowCollectCalls := if crop dahdiDelimiters raw = lit "no" then 0 else 1 }) := by
      simp only [applySetting, lit_inj, String.reduceEq, and_false, if_false, if_true]
      rfl
    exact Leaves.update turn (fun span => span.mfcr2.allowCollectCalls) (fun _ _ => rfl)
      { Span.zero with mfcr2.allowCollectCalls := _ } (successor _) fun _ => rfl
  · have turn (spans : Spans) : applySetting standardMode (lit "mfcr2_double_answer") raw spans =
        .ok ((enableFirst spans).update fun span =>
          { span with mfcr2.doubleAnswer := if crop dahdiDelimiters raw = lit "yes" then 1 else 0 }) := by
      simp only [applySetting, lit_inj, String.reduceEq, and_false, if_false, if_true]
      rfl
    exact Leaves.update turn (fun span => span.mfcr2.doubleAnswer) (fun _ _ => rfl)
      { Span.zero with mfcr2.doubleAnswer := _ } (successor _) fun _ => rfl
  · have turn (spans : Spans) : applySetting standardMode (lit "echocancel") raw spans =
        .ok ((enableFirst spans).update fun span =>
          { span with echocancel := if crop dahdiDelimiters raw = lit "yes" then 1 else 0 }) := by
      simp only [applySetting, lit_inj, String.reduceEq, and_false, if_false, if_true]
      rfl
    exact Leaves.update turn Span.echocancel (fun _ _ => rfl)
      { Span.zero with echocancel := _ } (successor _) fun _ => rfl

/-- A setting that does not end the run: a `channel` line has a string that its parser
handles. -/
def Sound (standardMode : Bool) (setting : Text × Text) : Prop :=
  setting.1 = lit "channel" →
    ∃ string, channelText setting.2 = some string ∧ Handled standardMode string

theorem applySetting_returns {standardMode : Bool} {setting : Text × Text}
    (sound : Sound standardMode setting) (spans : Spans) :
    ∃ next, applySetting standardMode setting.1 setting.2 spans = .ok next := by
  obtain ⟨key, raw⟩ := setting
  by_cases isChannel : key = lit "channel"
  · obtain ⟨string, found, handled⟩ := sound isChannel
    rw [isChannel, applySetting_channel]
    exact (parseChannel_ok_iff _ found).mpr handled
  · simp only [applySetting, if_neg isChannel]
    repeat' first
      | exact ⟨_, rfl⟩
      | refine Checked.ite_returns (fun _ => ?_) (fun _ => ?_)

theorem applySetting_idle {standardMode : Bool} {setting : Text × Text}
    (sound : Sound standardMode setting) (idle : Idle standardMode setting) (spans : Spans) :
    applySetting standardMode setting.1 setting.2 spans = .ok (enableFirst spans) := by
  obtain ⟨key, raw⟩ := setting
  by_cases isChannel : key = lit "channel"
  · obtain ⟨string, found, handled⟩ := sound isChannel
    rw [isChannel, applySetting_channel]
    exact parseChannel_nothing _ found handled (idle.2 isChannel string found)
  · exact applySetting_unknown raw spans isChannel idle.1

theorem exists_leaves {standardMode : Bool} {setting : Text × Text}
    (sound : Sound standardMode setting) (busy : ¬ Idle standardMode setting) :
    ∃ seen, Leaves (applySetting standardMode setting.1 setting.2) seen := by
  obtain ⟨key, raw⟩ := setting
  by_cases known : key ∈ knownKeys standardMode
  · exact applySetting_known raw known
  · have isChannel : key = lit "channel" := by
      by_contra other
      exact busy ⟨known, fun same => absurd same other⟩
    obtain ⟨string, found, -⟩ := sound isChannel
    have something : ¬ TakesNothing standardMode string := by
      intro nothing
      refine busy ⟨known, fun _ other foundOther => ?_⟩
      rw [found] at foundOther
      cases foundOther
      exact nothing
    have turn : applySetting standardMode (lit "channel") raw =
        fun spans => parseChannel standardMode raw (enableFirst spans) :=
      funext (applySetting_channel standardMode raw)
    rw [isChannel, turn]
    exact parseChannel_something found something

/-! ## Whole files -/

theorem enableFirst_enableFirst (spans : Spans) :
    enableFirst (enableFirst spans) = enableFirst spans := by
  apply Spans.ext_first
  rw [enableFirst, enableFirst, Spans.first_update, Spans.first_update]

/-- The loop over settings. -/
def runSettings (standardMode : Bool) (spans : Spans) (settings : List (Text × Text)) :
    Checked Spans :=
  settings.foldlM (fun spans setting => applySetting standardMode setting.1 setting.2 spans) spans

/-- The loop over a file that has one line only. -/
def runLine (standardMode : Bool) (spans : Spans) (line : Text) : Checked Spans :=
  parseLines bufSize [] (parseStep standardMode) (.ok spans) line

theorem parseLines_eq_runSettings (standardMode : Bool) (spans : Spans) (text : Text) :
    parseLines bufSize [] (parseStep standardMode) (.ok spans) text =
      runSettings standardMode spans (linesRead bufSize [] text) := by
  simp only [parseLines_eq_foldl, parseStep, Checked.foldl_bind, Checked.ok_bind]
  rfl

theorem parseChanDahdiConf_eq (standardMode : Bool) {files : Files} {text : Text} (spans : Spans)
    (opened : files.openRead fileChanDahdiConf = some text) :
    parseChanDahdiConf standardMode files spans =
      runSettings standardMode spans (linesRead bufSize [] text) >>= fun spans => .ok (0, spans) := by
  rw [parseChanDahdiConf, opened, ← parseLines_eq_runSettings]
  rfl

section Settings

variable {standardMode : Bool} {settings : List (Text × Text)}

theorem runSettings_append (spans : Spans) (first second : List (Text × Text)) :
    runSettings standardMode spans (first ++ second) =
      runSettings standardMode spans first >>= fun spans => runSettings standardMode spans second := by
  rw [runSettings, List.foldlM_append]
  rfl

theorem runSettings_singleton (spans : Spans) (setting : Text × Text) :
    runSettings standardMode spans [setting] = applySetting standardMode setting.1 setting.2 spans := by
  simp only [runSettings, List.foldlM_cons, List.foldlM_nil, bind_pure]

/-- Idle settings do no more than the first of them. -/
theorem runSettings_idle (sound : ∀ setting ∈ settings, Sound standardMode setting)
    (idle : ∀ setting ∈ settings, Idle standardMode setting) (nonempty : settings ≠ [])
    (spans : Spans) : runSettings standardMode spans settings = .ok (enableFirst spans) := by
  induction settings using List.reverseRecOn with
  | nil => exact absurd rfl nonempty
  | append_singleton settings last inductionHypothesis =>
      have member := List.mem_append_right settings (List.mem_singleton_self last)
      have turn := applySetting_idle (sound last member) (idle last member)
      rw [runSettings_append]
      by_cases empty : settings = []
      · rw [empty]
        exact (runSettings_singleton spans last).trans (turn spans)
      · rw [inductionHypothesis (fun setting listed => sound setting (List.mem_append_left _ listed))
          (fun setting listed => idle setting (List.mem_append_left _ listed)) empty]
        refine (runSettings_singleton _ last).trans ?_
        rw [turn, enableFirst_enableFirst]

/-- A run that only enables the span has idle settings only: what the last busy one leaves
would be seen. -/
theorem idle_of_runSettings (sound : ∀ setting ∈ settings, Sound standardMode setting)
    (same : ∀ spans, ∃ after, runSettings standardMode spans settings = .ok after ∧
      enableFirst after = enableFirst spans) :
    ∀ setting ∈ settings, Idle standardMode setting := by
  induction settings using List.reverseRecOn with
  | nil => exact nofun
  | append_singleton settings last inductionHypothesis =>
      have soundLast := sound last (List.mem_append_right _ (List.mem_singleton_self last))
      have lastIdle : Idle standardMode last := by
        by_contra busy
        obtain ⟨seen, leaves⟩ := exists_leaves soundLast busy
        obtain ⟨span, absent⟩ := leaves.absent
        obtain ⟨after, ran, sameAfter⟩ := same (.replicate 1 span)
        rw [runSettings_append] at ran
        obtain ⟨middle, -, turn⟩ := Checked.bind_eq_ok ran
        have shown := leaves.leaves middle after ((runSettings_singleton middle last).symm.trans turn)
        have firsts := congrArg Spans.first sameAfter
        rw [enableFirst, enableFirst, Spans.first_update, Spans.first_update] at firsts
        rw [← leaves.blind _ 1, firsts, leaves.blind] at shown
        exact absent shown
      have others := inductionHypothesis
        (fun setting listed => sound setting (List.mem_append_left _ listed)) fun spans => by
          obtain ⟨after, ran, sameAfter⟩ := same spans
          rw [runSettings_append] at ran
          obtain ⟨middle, ranMiddle, turn⟩ := Checked.bind_eq_ok ran
          refine ⟨middle, ranMiddle, ?_⟩
          have enabled := applySetting_idle soundLast lastIdle middle
          rw [← runSettings_singleton, turn] at enabled
          rw [← sameAfter, Except.ok.inj enabled, enableFirst_enableFirst]
      intro setting listed
      rcases List.mem_append.mp listed with earlier | isLast
      · exact others setting earlier
      · rw [List.mem_singleton.mp isLast]
        exact lastIdle

end Settings

/-- The values read with the key `channel`, and the settings they are from. -/
theorem forall_channelValues (text : Text) (good : Text → Prop) :
    (∀ raw ∈ channelValues text, good raw) ↔
      ∀ setting ∈ linesRead bufSize [] text, setting.1 = lit "channel" → good setting.2 := by
  simp only [channelValues, valuesOf, List.mem_filterMap, Option.ite_none_right_eq_some,
    Option.some.injEq, forall_exists_index, and_imp]
  exact ⟨fun all setting read isKey => all setting.2 setting read isKey rfl,
    fun all raw setting read isKey same => same ▸ all setting read isKey⟩

/-- What is read of a line is read of the file. -/
theorem mem_linesRead_of_line {text line : Text} {setting : Text × Text}
    (listed : line ∈ splitLines text) (read : setting ∈ linesRead bufSize [] line) :
    setting ∈ linesRead bufSize [] text := by
  obtain ⟨buffer, inLine, found⟩ := List.mem_filterMap.mp read
  refine List.mem_filterMap.mpr ⟨buffer, ?_, found⟩
  rw [fgetsLines_eq_flatMap]
  exact List.mem_flatMap.mpr ⟨line, listed, inLine⟩

/-- The first buffer of a `channel` line has its key. -/
theorem linesRead_ne_nil {text line : Text} (listed : line ∈ splitLines text)
    (malformed : Malformed line) : linesRead bufSize [] line ≠ [] := by
  obtain ⟨raw, read, -⟩ := malformed
  obtain ⟨rest, rfl⟩ := of_keyValue_key read
  obtain ⟨pieces, first⟩ := fgetsLines_line (show 0 < 255 by decide) listed
  have key : (lit "channel" ++ [equals] ++ rest).take 255 =
      lit "channel" ++ equals :: rest.take 247 := rfl
  have found := @keyValue_key (lit "channel") (by decide) (by decide) [] (rest.take 247)
  rw [linesRead, bufSize, first, key, List.filterMap_cons_some found]
  exact List.cons_ne_nil _ _

/-- What is to come of a file: the parser gets to its end, no line parser is handed a NULL,
and malformed lines are ignored. -/
structure ReadsChannels (standardMode : Bool) (files : Files) (text : Text) : Prop where
  ends : ∀ spans, ∃ after, parseChanDahdiConf standardMode files spans = .ok (0, after)
  noNull : ∀ raw ∈ channelValues text, channelText raw ≠ none
  ignores : ∀ line ∈ splitLines text, Malformed line →
    ∀ spans, runLine standardMode spans line = .ok (enableFirst spans)

/-- Where what is not checked does no harm: every `channel` line has a string that its parser
stays inside its arrays for, and from a malformed one nothing is taken. -/
structure HarmlessChannels (standardMode : Bool) (text : Text) : Prop where
  handled : ∀ raw ∈ channelValues text,
    ∃ string, channelText raw = some string ∧ Handled standardMode string
  idle : ∀ line ∈ splitLines text, Malformed line →
    ∀ setting ∈ linesRead bufSize [] line, Idle standardMode setting

theorem sound_of_ends {standardMode : Bool} {files : Files} {text : Text}
    (opened : files.openRead fileChanDahdiConf = some text)
    (reads : ReadsChannels standardMode files text) :
    ∀ setting ∈ linesRead bufSize [] text, Sound standardMode setting := by
  intro setting read isChannel
  obtain ⟨string, found⟩ := Option.ne_none_iff_exists'.mp
    ((forall_channelValues text _).mp reads.noNull setting read isChannel)
  obtain ⟨after, returned⟩ := reads.ends .zero
  rw [parseChanDahdiConf_eq standardMode _ opened] at returned
  obtain ⟨last, ran, -⟩ := Checked.bind_eq_ok returned
  obtain ⟨before, next, turn⟩ := Checked.foldlM_ok_mem ran read
  rw [isChannel, applySetting_channel] at turn
  exact ⟨string, found, (parseChannel_ok_iff _ found).mp ⟨next, turn⟩⟩

/-- The parser reads the lines as it should exactly for these files. -/
theorem readsChannels_iff (standardMode : Bool) {files : Files} {text : Text}
    (opened : files.openRead fileChanDahdiConf = some text) :
    ReadsChannels standardMode files text ↔ HarmlessChannels standardMode text := by
  constructor
  · intro reads
    have sound := sound_of_ends opened reads
    refine ⟨(forall_channelValues text _).mpr sound, fun line listed malformed => ?_⟩
    refine idle_of_runSettings (fun setting read => sound setting (mem_linesRead_of_line listed read))
      fun spans => ?_
    have ignored := reads.ignores line listed malformed spans
    rw [runLine, parseLines_eq_runSettings] at ignored
    exact ⟨_, ignored, enableFirst_enableFirst spans⟩
  · rintro ⟨handled, idle⟩
    have sound : ∀ setting ∈ linesRead bufSize [] text, Sound standardMode setting :=
      (forall_channelValues text _).mp handled
    refine ⟨fun spans => ?_, fun raw listed null => ?_, fun line listed malformed spans => ?_⟩
    · obtain ⟨after, ran⟩ := Checked.foldlM_returns
        (fun setting read => applySetting_returns (sound setting read)) spans
      exact ⟨after, by rw [parseChanDahdiConf_eq standardMode spans opened, runSettings, ran]; rfl⟩
    · obtain ⟨string, found, -⟩ := handled raw listed
      rw [null] at found
      cases found
    · rw [runLine, parseLines_eq_runSettings]
      exact runSettings_idle (fun setting read => sound setting (mem_linesRead_of_line listed read))
        (idle line listed malformed) (linesRead_ne_nil listed malformed) spans

/-- The ranges of a span with a comment behind them, and a line with the channel of no span. -/
def rangesText : Text := lit "channel=>1-15,17-31 # span 1\n;channels_offset=0\nchannel=>0\n"

theorem readsChannels_iff_witness :
    ReadsChannels true (Files.empty.write fileChanDahdiConf rangesText) rangesText ↔
      HarmlessChannels true rangesText :=
  readsChannels_iff true (Files.openRead_write_self _ rfl)

/-- A line as Asterisk also takes it, without the `>`. -/
def arrowlessText : Text := lit "channel=1-15\n"

/-- Both line parsers get a NULL, which only `sscanf` has no use for. -/
theorem arrowless_faults :
    parseChanDahdiConf true (Files.empty.write fileChanDahdiConf arrowlessText) (.replicate 1 .zero) =
      .error .nullPointer ∧
    ∀ standardMode, ¬ ReadsChannels standardMode
      (Files.empty.write fileChanDahdiConf arrowlessText) arrowlessText := by
  constructor
  · rfl
  · intro standardMode reads
    exact reads.noNull (lit "1-15\n") (by decide) (by decide)

end Libamg.Dahdi
