import Libamg.C.Lines
import Libamg.Config.SipRoundTrip

/-!
# Reading any sip.conf

What `libamg_sip_parse_config` makes of a file that nobody has to have written with a
save. `ReadBack` is the loop invariant: the codecs seen so far and the state of every
`char` array. The loop comes to its end exactly if it reads at most nine `allow` settings
(`readAll_ok`, `readAll_overrun`). It reads a long line in pieces, so these can be more
than the file has lines for: `storesFirstCodecs_iff` is about the lines.
-/

namespace Libamg.Sip

open C

/-- The keys and values that the loop reads, from one `fgets` buffer each. A line that does
not fit its buffer is read as several. -/
def linesOf (text : Text) : List (Text × Text) := linesRead bufSize cropDelimiters text

/-- The codecs of the `allow` lines, in the order of the file. -/
def allowCodes (lines : List (Text × Text)) : List Int32 :=
  (valuesOf "allow" lines).map getCodecCode

/-- Run the parsing loop over lines. -/
def readAll (charSigned : Bool) (lines : List (Text × Text)) : Checked ParseState :=
  lines.foldl (fun state line => parseStep charSigned line.1 line.2 state)
    (.ok { conf := .zero, posCodecs := 0 })

/-- The arrays whose last byte no copy ever reaches. -/
structure ClosedFields (conf : SipConfig) : Prop where
  registerUsername : conf.registerUsername.Closed
  registerSecret : conf.registerSecret.Closed
  registerHost : conf.registerHost.Closed
  callerid : conf.account.callerid.Closed
  fromuser : conf.account.fromuser.Closed
  insecure : conf.account.insecure.Closed
  username : conf.account.username.Closed
  secret : conf.account.secret.Closed
  host : conf.account.host.Closed
  transport : conf.account.transport.Closed
  dtmfmode : conf.account.dtmfmode.Closed

theorem ClosedFields.zero : ClosedFields .zero :=
  ⟨CharArray.closed_zero 63, CharArray.closed_zero 63, CharArray.closed_zero 63,
    CharArray.closed_zero 63, CharArray.closed_zero 63, CharArray.closed_zero 31,
    CharArray.closed_zero 63, CharArray.closed_zero 63, CharArray.closed_zero 63,
    CharArray.closed_zero 7, CharArray.closed_zero 31⟩

/-- The last value that a key was given fits an array of `size` bytes with its NUL. -/
def LastShort (key : String) (size : Nat) (lines : List (Text × Text)) : Prop :=
  ∀ value ∈ (valuesOf key lines).getLast?, value.length < size

/-- What the loop has made of the lines read so far. -/
structure ReadBack (lines : List (Text × Text)) (state : ParseState) : Prop where
  posCodecs : state.posCodecs = (allowCodes lines).length
  allow : state.conf.account.allow = padded (allowCodes lines)
  sessionTimers :
    state.conf.sessionTimers.Terminated ↔ LastShort "session-timers" 16 lines
  sessionRefresher :
    state.conf.sessionRefresher.Terminated ↔ LastShort "session-refresher" 8 lines
  closed : ClosedFields state.conf

theorem ReadBack.zero : ReadBack [] { conf := .zero, posCodecs := 0 } where
  posCodecs := rfl
  allow := rfl
  sessionTimers := iff_of_true (CharArray.closed_zero 15).terminated nofun
  sessionRefresher := iff_of_true (CharArray.closed_zero 7).terminated nofun
  closed := .zero

/-! ## One line -/

theorem lastShort_snoc_self (key : String) (size : Nat) (lines : List (Text × Text)) (value : Text) :
    LastShort key size (lines ++ [(lit key, value)]) ↔ value.length < size := by
  rw [LastShort, valuesOf_append, valuesOf_singleton_self, List.getLast?_concat]
  simp

theorem lastShort_snoc_of_ne {key : String} {other : Text} (size : Nat)
    (lines : List (Text × Text)) (value : Text) (different : other ≠ lit key) :
    LastShort key size (lines ++ [(other, value)]) ↔ LastShort key size lines := by
  rw [LastShort, valuesOf_append, valuesOf_singleton_of_ne value different, List.append_nil]
  rfl

theorem allowCodes_snoc_self (lines : List (Text × Text)) (value : Text) :
    allowCodes (lines ++ [(lit "allow", value)]) = allowCodes lines ++ [getCodecCode value] := by
  rw [allowCodes, valuesOf_append, valuesOf_singleton_self, List.map_append]
  rfl

theorem allowCodes_snoc_of_ne {key : Text} (lines : List (Text × Text)) (value : Text)
    (different : key ≠ lit "allow") : allowCodes (lines ++ [(key, value)]) = allowCodes lines := by
  rw [allowCodes, valuesOf_append, valuesOf_singleton_of_ne value different, List.append_nil]
  rfl

section Step

variable {charSigned : Bool} {key value : Text} {lines : List (Text × Text)} {state : ParseState}

/-- What a line that is none of the special three leaves as it was. -/
structure Keeps (state next : ParseState) : Prop where
  posCodecs : next.posCodecs = state.posCodecs
  allow : next.conf.account.allow = state.conf.account.allow
  sessionTimers : next.conf.sessionTimers = state.conf.sessionTimers
  sessionRefresher : next.conf.sessionRefresher = state.conf.sessionRefresher
  closed : ClosedFields state.conf → ClosedFields next.conf

/-- The outcome of a line that keeps what `Keeps` lists. -/
def Kept (state : ParseState) (outcome : Checked ParseState) : Prop :=
  ∃ next, outcome = .ok next ∧ Keeps state next

theorem Kept.ite {condition : Prop} [Decidable condition] {first second : Checked ParseState}
    (yes : condition → Kept state first) (no : ¬ condition → Kept state second) :
    Kept state (if condition then first else second) := by
  split
  · exact yes ‹_›
  · exact no ‹_›

/-- A line with none of the three keys that can run over an array leaves the codecs and
the two session fields alone and copies within bounds. -/
theorem applySetting_kept (notTimers : key ≠ lit "session-timers")
    (notRefresher : key ≠ lit "session-refresher") (notAllow : key ≠ lit "allow") :
    Kept state (applySetting charSigned key value state) := by
  unfold applySetting
  repeat' first | apply Kept.ite | intro _
  all_goals first
    | contradiction
    | exact ⟨_, rfl, rfl, rfl, rfl, rfl, fun closed => { closed with }⟩
    | exact ⟨_, rfl, rfl, rfl, rfl, rfl, fun closed => { closed with
        registerUsername := closed.registerUsername.strncpy _ (by decide) (by decide) }⟩
    | exact ⟨_, rfl, rfl, rfl, rfl, rfl, fun closed => { closed with
        registerSecret := closed.registerSecret.strncpy _ (by decide) (by decide) }⟩
    | exact ⟨_, rfl, rfl, rfl, rfl, rfl, fun closed => { closed with
        registerHost := closed.registerHost.strncpy _ (by decide) (by decide) }⟩
    | exact ⟨_, rfl, rfl, rfl, rfl, rfl, fun closed => { closed with
        host := closed.host.strncpy _ (by decide) (by decide) }⟩
    | exact ⟨_, rfl, rfl, rfl, rfl, rfl, fun closed => { closed with
        username := closed.username.strncpy _ (by decide) (by decide) }⟩
    | exact ⟨_, rfl, rfl, rfl, rfl, rfl, fun closed => { closed with
        secret := closed.secret.strncpy _ (by decide) (by decide) }⟩
    | exact ⟨_, rfl, rfl, rfl, rfl, rfl, fun closed => { closed with
        dtmfmode := closed.dtmfmode.strncpy _ (by decide) (by decide) }⟩
    | exact ⟨_, rfl, rfl, rfl, rfl, rfl, fun closed => { closed with
        insecure := closed.insecure.strncpy _ (by decide) (by decide) }⟩
    | exact ⟨_, rfl, rfl, rfl, rfl, rfl, fun closed => { closed with
        callerid := closed.callerid.strncpy _ (by decide) (by decide) }⟩
    | exact ⟨_, rfl, rfl, rfl, rfl, rfl, fun closed => { closed with
        fromuser := closed.fromuser.strncpy _ (by decide) (by decide) }⟩
    | exact ⟨_, rfl, rfl, rfl, rfl, rfl, fun closed => { closed with
        transport := closed.transport.strncpy _ (by decide) (by decide) }⟩

theorem applySetting_timers : applySetting charSigned (lit "session-timers") value state =
    .ok { state with conf.sessionTimers := state.conf.sessionTimers.strncpy value 16 } := by
  simp only [applySetting, lit_inj, String.reduceEq, ↓reduceIte]

theorem applySetting_refresher : applySetting charSigned (lit "session-refresher") value state =
    .ok { state with conf.sessionRefresher := state.conf.sessionRefresher.strncpy value 8 } := by
  simp only [applySetting, lit_inj, String.reduceEq, ↓reduceIte]

theorem applySetting_allow : applySetting charSigned (lit "allow") value state =
    storeCodec (getCodecCode value) state := by
  simp only [applySetting, lit_inj, String.reduceEq, ↓reduceIte]

/-- A line that does not name another codec is read without a fault. -/
theorem ReadBack.other (read : ReadBack lines state) (noNul : 0 ∉ value) (notAllow : key ≠ lit "allow") :
    ∃ next, applySetting charSigned key value state = .ok next ∧
      ReadBack (lines ++ [(key, value)]) next := by
  have codes := allowCodes_snoc_of_ne lines value notAllow
  by_cases timers : key = lit "session-timers"
  · subst timers
    have different : lit "session-timers" ≠ lit "session-refresher" := by simp
    refine ⟨_, applySetting_timers, ?_⟩
    exact {
      posCodecs := by rw [codes]; exact read.posCodecs
      allow := by rw [codes]; exact read.allow
      sessionTimers := by
        rw [lastShort_snoc_self]
        exact CharArray.terminated_strncpy_full _ noNul
      sessionRefresher := by
        rw [lastShort_snoc_of_ne 8 lines value different]
        exact read.sessionRefresher
      closed := { read.closed with } }
  · by_cases refresher : key = lit "session-refresher"
    · subst refresher
      refine ⟨_, applySetting_refresher, ?_⟩
      exact {
        posCodecs := by rw [codes]; exact read.posCodecs
        allow := by rw [codes]; exact read.allow
        sessionTimers := by
          rw [lastShort_snoc_of_ne 16 lines value timers]
          exact read.sessionTimers
        sessionRefresher := by
          rw [lastShort_snoc_self]
          exact CharArray.terminated_strncpy_full _ noNul
        closed := { read.closed with } }
    · obtain ⟨next, stored, keeps⟩ :=
        @applySetting_kept charSigned key value state timers refresher notAllow
      refine ⟨next, stored, ?_⟩
      exact {
        posCodecs := by rw [codes, keeps.posCodecs]; exact read.posCodecs
        allow := by rw [codes, keeps.allow]; exact read.allow
        sessionTimers := by
          rw [lastShort_snoc_of_ne 16 lines value timers, keeps.sessionTimers]
          exact read.sessionTimers
        sessionRefresher := by
          rw [lastShort_snoc_of_ne 8 lines value refresher, keeps.sessionRefresher]
          exact read.sessionRefresher
        closed := keeps.closed read.closed }

/-- Up to the ninth, a codec goes to the next element of the array. -/
theorem ReadBack.codec (read : ReadBack lines state) (charSigned : Bool)
    (room : (allowCodes lines).length < 9) :
    ∃ next, applySetting charSigned (lit "allow") value state = .ok next ∧
      ReadBack (lines ++ [(lit "allow", value)]) next := by
  have below : ¬ state.posCodecs > numAvailableCodecs := by
    rw [read.posCodecs, numAvailableCodecs]
    omega
  have inside : state.posCodecs < 9 := by
    rw [read.posCodecs]
    exact room
  have notTimers : lit "allow" ≠ lit "session-timers" := by simp
  have notRefresher : lit "allow" ≠ lit "session-refresher" := by simp
  refine ⟨_, by rw [applySetting_allow, storeCodec, if_neg below, dif_pos inside], ?_⟩
  exact {
    posCodecs := by
      rw [allowCodes_snoc_self, List.length_append, ← read.posCodecs]
      rfl
    allow := by
      rw [allowCodes_snoc_self, ← padded_set (getCodecCode value) room]
      simp only [read.allow, read.posCodecs]
    sessionTimers := by
      rw [lastShort_snoc_of_ne 16 lines value notTimers]
      exact read.sessionTimers
    sessionRefresher := by
      rw [lastShort_snoc_of_ne 8 lines value notRefresher]
      exact read.sessionRefresher
    closed := { read.closed with } }

/-- The guard lets a tenth codec through, to the element behind the array. -/
theorem ReadBack.overrun (read : ReadBack lines state) (charSigned : Bool)
    (full : (allowCodes lines).length = 9) :
    applySetting charSigned (lit "allow") value state = .error .outOfBounds := by
  have count : state.posCodecs = 9 := read.posCodecs.trans full
  have below : ¬ state.posCodecs > numAvailableCodecs := by
    rw [count, numAvailableCodecs]
    exact Nat.lt_irrefl 9
  have outside : ¬ state.posCodecs < 9 := by
    rw [count]
    exact Nat.lt_irrefl 9
  rw [applySetting_allow, storeCodec, if_neg below, dif_neg outside]

end Step

/-! ## Whole files -/

variable {charSigned : Bool} {lines : List (Text × Text)}

theorem readAll_snoc (line : Text × Text) :
    readAll charSigned (lines ++ [line]) =
      readAll charSigned lines >>= applySetting charSigned line.1 line.2 := by
  rw [readAll, List.foldl_append]
  rfl

theorem allowCodes_length_snoc (line : Text × Text) :
    (allowCodes lines).length ≤ (allowCodes (lines ++ [line])).length := by
  rw [allowCodes, allowCodes, valuesOf_append, List.map_append, List.length_append]
  exact Nat.le_add_right _ _

/-- With at most nine `allow` lines the loop comes to its end. -/
theorem readAll_ok (noNul : ∀ line ∈ lines, 0 ∉ line.2) (few : (allowCodes lines).length ≤ 9) :
    ∃ state, readAll charSigned lines = .ok state ∧ ReadBack lines state := by
  induction lines using List.reverseRecOn with
  | nil => exact ⟨_, rfl, .zero⟩
  | append_singleton lines line inductionHypothesis =>
      obtain ⟨key, value⟩ := line
      obtain ⟨state, soFar, read⟩ := inductionHypothesis
        (fun line member => noNul line (List.mem_append_left _ member))
        (Nat.le_trans (allowCodes_length_snoc (key, value)) few)
      rw [readAll_snoc, soFar]
      by_cases isAllow : key = lit "allow"
      · subst isAllow
        rw [allowCodes_snoc_self, List.length_append, List.length_singleton] at few
        exact read.codec charSigned few
      · exact read.other (noNul _ (List.mem_append_right _ List.mem_cons_self)) isAllow

/-- With more it writes behind the array. -/
theorem readAll_overrun (noNul : ∀ line ∈ lines, 0 ∉ line.2)
    (many : 9 < (allowCodes lines).length) : readAll charSigned lines = .error .outOfBounds := by
  induction lines using List.reverseRecOn with
  | nil => exact absurd many (Nat.not_lt_zero 9)
  | append_singleton lines line inductionHypothesis =>
      obtain ⟨key, value⟩ := line
      have noNulBefore : ∀ line ∈ lines, 0 ∉ line.2 :=
        fun line member => noNul line (List.mem_append_left _ member)
      rw [readAll_snoc]
      by_cases before : 9 < (allowCodes lines).length
      · rw [inductionHypothesis noNulBefore before]
        rfl
      · have few : (allowCodes lines).length ≤ 9 := Nat.le_of_not_lt before
        obtain ⟨state, soFar, read⟩ := @readAll_ok charSigned lines noNulBefore few
        have isAllow : key = lit "allow" := by
          by_contra other
          rw [allowCodes_snoc_of_ne lines value other] at many
          exact before many
        subst isAllow
        rw [allowCodes_snoc_self, List.length_append, List.length_singleton] at many
        rw [soFar]
        exact read.overrun charSigned (by omega)

/-- The parser's result for a file that opens, through the loop over its lines. -/
theorem parseConfig_eq_readAll (charSigned : Bool) {files : Files} {text : Text}
    (opened : files.openRead fileSipConf = some text) :
    parseConfig charSigned files =
      readAll charSigned (linesOf text) >>= fun state => .ok (some state.conf) := by
  rw [parseConfig, opened, readAll, linesOf, ← parseLines_eq_foldl]
  rfl

theorem noNul_linesOf (text : Text) : ∀ line ∈ linesOf text, 0 ∉ line.2 :=
  fun _ member => nul_notMem_of_linesRead member

/-! ## Lines and buffers -/

/-- The keys and values of the lines of a `sip.conf`, whatever their length. -/
def wholeLines (text : Text) : List (Text × Text) :=
  (splitLines text).filterMap (keyValue cropDelimiters)

/-- A line is not long enough to be read in pieces, or no piece behind the first begins
like an `allow` line. -/
def NoAllowInside (text : Text) : Prop :=
  ∀ line ∈ splitLines text, ∀ count, 0 < count → ¬ lit "allow=" <+: line.drop (255 * count)

/-- The codecs that buffers bring. -/
def bufferCodes (buffers : List Text) : List Int32 :=
  allowCodes (buffers.filterMap (keyValue cropDelimiters))

theorem bufferCodes_append (first second : List Text) :
    bufferCodes (first ++ second) = bufferCodes first ++ bufferCodes second := by
  rw [bufferCodes, List.filterMap_append, allowCodes, valuesOf_append, List.map_append]
  rfl

theorem bufferCodes_flatMap (lines : List Text) (pieces : Text → List Text) :
    bufferCodes (lines.flatMap pieces) = lines.flatMap fun line => bufferCodes (pieces line) := by
  induction lines with
  | nil => rfl
  | cons line lines inductionHypothesis =>
      rw [List.flatMap_cons, List.flatMap_cons, bufferCodes_append, inductionHypothesis]

theorem bufferCodes_allow (rest : Text) :
    bufferCodes [lit "allow=" ++ rest] = [getCodecCode (crop cropDelimiters (cstr rest))] := by
  have shape : lit "allow=" ++ rest = lit "allow" ++ equals :: rest := rfl
  have read := @keyValue_key (lit "allow") (by decide) (by decide) cropDelimiters rest
  rw [bufferCodes, shape, List.filterMap_cons_some read, List.filterMap_nil, allowCodes,
    valuesOf_singleton_self]
  rfl

theorem bufferCodes_other {buffer : Text} (other : ¬ lit "allow=" <+: buffer) :
    bufferCodes [buffer] = [] := by
  rw [bufferCodes, allowCodes]
  cases read : keyValue cropDelimiters buffer with
  | none => rw [List.filterMap_cons_none read]; rfl
  | some line =>
      obtain ⟨key, value⟩ := line
      have notAllow : key ≠ lit "allow" := by
        rintro rfl
        exact other (of_keyValue_key read)
      rw [List.filterMap_cons_some read, List.filterMap_nil, valuesOf_singleton_of_ne value notAllow]
      rfl

theorem bufferCodes_eq_nil_iff (buffers : List Text) :
    bufferCodes buffers = [] ↔ ∀ buffer ∈ buffers, ¬ lit "allow=" <+: buffer := by
  induction buffers with
  | nil => exact iff_of_true rfl nofun
  | cons buffer buffers inductionHypothesis =>
      rw [← List.singleton_append, bufferCodes_append, List.append_eq_nil_iff, inductionHypothesis,
        List.singleton_append, List.forall_mem_cons]
      refine and_congr_left' ⟨fun nothing => ?_, bufferCodes_other⟩
      rintro ⟨rest, rfl⟩
      rw [bufferCodes_allow] at nothing
      cases nothing

/-- The first piece of a line has the codec of the line. -/
theorem bufferCodes_take (line : Text) : bufferCodes [line.take 255] = bufferCodes [line] := by
  by_cases isAllow : lit "allow=" <+: line
  · obtain ⟨rest, rfl⟩ := isAllow
    have first : (lit "allow=" ++ rest).take 255 = lit "allow=" ++ rest.take 249 := rfl
    rw [first, bufferCodes_allow, bufferCodes_allow, cstr_take, crop_take,
      getCodecCode_take _ (by decide)]
  · rw [bufferCodes_other isAllow, bufferCodes_other fun front => isAllow
      (front.trans (List.take_prefix 255 line))]

/-- The codecs of the pieces of a line behind the first. -/
def laterCodes (line : Text) : List Int32 := bufferCodes (fgetsLines bufSize (line.drop 255))

theorem bufferCodes_fgetsLines {text line : Text} (listed : line ∈ splitLines text) :
    bufferCodes (fgetsLines bufSize line) = bufferCodes [line] ++ laterCodes line := by
  have pieces := (isLine_of_mem listed).fgetsLines (show 0 < 255 by decide)
  rw [bufSize, pieces, ← List.singleton_append, bufferCodes_append, bufferCodes_take]
  rfl

theorem laterCodes_eq_nil_iff {text line : Text} (listed : line ∈ splitLines text) :
    laterCodes line = [] ↔ ∀ count, 0 < count → ¬ lit "allow=" <+: line.drop (255 * count) := by
  rw [laterCodes, bufferCodes_eq_nil_iff]
  by_cases long : 255 < line.length
  · have pieces := ((isLine_of_mem listed).drop long).mem_fgetsLines (show 0 < 255 by decide)
    have begins (tail : Text) : lit "allow=" <+: tail.take 255 ↔ lit "allow=" <+: tail := by
      rw [List.prefix_take_iff]
      exact and_iff_left (by decide)
    constructor
    · rintro none (_ | count) positive front
      · exact absurd positive (Nat.lt_irrefl 0)
      · have inside : 255 * count < (line.drop 255).length := by
          have nonempty : line.drop (255 * (count + 1)) ≠ [] := by
            intro empty
            rw [empty] at front
            exact absurd front (by decide)
          have left := List.length_pos_iff.mpr nonempty
          rw [List.length_drop] at left ⊢
          omega
        refine none _ ((pieces _).mpr ⟨count, inside, rfl⟩) ((begins _).mpr ?_)
        rwa [List.drop_drop, Nat.add_comm, ← Nat.mul_succ]
    · rintro none piece member front
      obtain ⟨count, -, rfl⟩ := (pieces piece).mp member
      rw [begins, List.drop_drop, Nat.add_comm, ← Nat.mul_succ] at front
      exact none (count + 1) (Nat.succ_pos count) front
  · have short : line.length ≤ 255 := Nat.le_of_not_lt long
    rw [List.drop_of_length_le short, fgetsLines_nil]
    refine iff_of_true nofun fun count positive front => ?_
    rw [List.drop_of_length_le (by omega)] at front
    exact absurd front (by decide)

/-- The settings that are read come from the lines, and from inside of them. -/
theorem allowCodes_linesOf (text : Text) :
    allowCodes (linesOf text) =
      (splitLines text).flatMap fun line => bufferCodes [line] ++ laterCodes line := by
  have pieces : allowCodes (linesOf text) = bufferCodes (fgetsLines bufSize text) := rfl
  rw [pieces, fgetsLines_eq_flatMap, bufferCodes_flatMap]
  exact List.flatMap_congr fun line listed => bufferCodes_fgetsLines listed

theorem allowCodes_wholeLines (text : Text) :
    allowCodes (wholeLines text) = (splitLines text).flatMap fun line => bufferCodes [line] := by
  have lines : allowCodes (wholeLines text) = bufferCodes (splitLines text) := rfl
  rw [lines, ← bufferCodes_flatMap, List.flatMap_singleton']

theorem length_allowCodes_linesOf (text : Text) :
    (allowCodes (linesOf text)).length =
      (allowCodes (wholeLines text)).length + ((splitLines text).flatMap laterCodes).length := by
  rw [allowCodes_linesOf, allowCodes_wholeLines]
  induction splitLines text with
  | nil => rfl
  | cons line lines inductionHypothesis =>
      simp only [List.flatMap_cons, List.length_append, inductionHypothesis]
      omega

theorem noAllowInside_iff (text : Text) :
    NoAllowInside text ↔ (splitLines text).flatMap laterCodes = [] := by
  rw [List.flatMap_eq_nil_iff]
  exact forall₂_congr fun line listed => (laterCodes_eq_nil_iff listed).symm

theorem allowCodes_of_noAllowInside {text : Text} (none : NoAllowInside text) :
    allowCodes (linesOf text) = allowCodes (wholeLines text) := by
  rw [allowCodes_linesOf, allowCodes_wholeLines]
  refine List.flatMap_congr fun line listed => ?_
  rw [(laterCodes_eq_nil_iff listed).mpr (none line listed), List.append_nil]

/-- Codes are not zero, so the array has them all. -/
theorem padded_allowCodes {first second : List (Text × Text)}
    (same : padded (allowCodes first) = padded (allowCodes second))
    (firstFew : (allowCodes first).length ≤ 9) (secondFew : (allowCodes second).length ≤ 9) :
    allowCodes first = allowCodes second := by
  have nonzero {lines : List (Text × Text)} {index : Nat} {code : Int32}
      (found : (allowCodes lines)[index]? = some code) : code ≠ 0 := by
    obtain ⟨value, -, rfl⟩ := List.mem_map.mp (List.mem_of_getElem? found)
    exact getCodecCode_ne_zero value
  refine List.ext_getElem? fun index => ?_
  by_cases inside : index < 9
  · have element := congrArg (fun codes : Vector Int32 9 => codes[index]) same
    simp only [padded_getElem, List.getD_eq_getElem?_getD] at element
    cases atFirst : (allowCodes first)[index]? with
    | none =>
        cases atSecond : (allowCodes second)[index]? with
        | none => rfl
        | some code =>
            rw [atFirst, atSecond] at element
            exact absurd element.symm (nonzero atSecond)
    | some code =>
        cases atSecond : (allowCodes second)[index]? with
        | none =>
            rw [atFirst, atSecond] at element
            exact absurd element (nonzero atFirst)
        | some other =>
            rw [atFirst, atSecond] at element
            exact congrArg some element
  · rw [List.getElem?_eq_none (by omega), List.getElem?_eq_none (by omega)]

/-- The parser returns, with the first nine codecs of the lines in its array. -/
def StoresFirstCodecs (charSigned : Bool) (files : Files) (lines : List (Text × Text)) : Prop :=
  ∃ conf, parseConfig charSigned files = .ok (some conf) ∧
    conf.account.allow = padded ((allowCodes lines).take numAvailableCodecs)

/-- The parser stays inside its array of codecs, and fills it with those of the `allow` lines
in the order of the file, exactly if there are at most nine and none inside of a line. -/
theorem storesFirstCodecs_iff (charSigned : Bool) {files : Files} {text : Text}
    (opened : files.openRead fileSipConf = some text) :
    StoresFirstCodecs charSigned files (wholeLines text) ↔
      (valuesOf "allow" (wholeLines text)).length ≤ 9 ∧ NoAllowInside text := by
  have parsed := parseConfig_eq_readAll charSigned opened
  have count : (valuesOf "allow" (wholeLines text)).length = (allowCodes (wholeLines text)).length :=
    (List.length_map getCodecCode).symm
  have total := length_allowCodes_linesOf text
  rw [count]
  constructor
  · rintro ⟨conf, returned, stored⟩
    have few : (allowCodes (linesOf text)).length ≤ 9 := by
      by_contra many
      rw [parsed, readAll_overrun (noNul_linesOf text) (Nat.lt_of_not_le many)] at returned
      cases returned
    obtain ⟨state, soFar, read⟩ := @readAll_ok charSigned _ (noNul_linesOf text) few
    rw [parsed, soFar] at returned
    cases returned
    have fewLines : (allowCodes (wholeLines text)).length ≤ 9 := by omega
    have whole : (allowCodes (wholeLines text)).take numAvailableCodecs = allowCodes (wholeLines text) :=
      List.take_of_length_le fewLines
    rw [whole, read.allow] at stored
    refine ⟨fewLines, ?_⟩
    rw [padded_allowCodes stored few fewLines] at total
    rw [noAllowInside_iff, ← List.length_eq_zero_iff]
    omega
  · rintro ⟨few, none⟩
    have same := allowCodes_of_noAllowInside none
    obtain ⟨state, soFar, read⟩ := @readAll_ok charSigned _ (noNul_linesOf text) (same ▸ few)
    have whole : (allowCodes (wholeLines text)).take numAvailableCodecs = allowCodes (wholeLines text) :=
      List.take_of_length_le few
    refine ⟨state.conf, by rw [parsed, soFar]; rfl, ?_⟩
    rw [whole, ← same]
    exact read.allow

/-- A file that allows two codecs. -/
def twoCodecs : Text := lit "allow=alaw:20\nport=5060\nallow=gsm\n"

theorem storesFirstCodecs_iff_witness :
    StoresFirstCodecs true (Files.empty.write fileSipConf twoCodecs) (wholeLines twoCodecs) ↔
      (valuesOf "allow" (wholeLines twoCodecs)).length ≤ 9 ∧ NoAllowInside twoCodecs :=
  storesFirstCodecs_iff true (Files.openRead_write_self _ rfl)

/-- A file with more `allow` lines than codecs. -/
def tenCodecs : Text := (List.replicate 10 (lit "allow=gsm\n")).flatten

/-- The tenth codec is stored at index 9. -/
theorem tenth_codec_overruns :
    parseConfig true (Files.empty.write fileSipConf tenCodecs) = .error .outOfBounds ∧
      ¬ StoresFirstCodecs true (Files.empty.write fileSipConf tenCodecs) (wholeLines tenCodecs) := by
  have many : 9 < (allowCodes (linesOf tenCodecs)).length := by decide
  have overrun : parseConfig true (Files.empty.write fileSipConf tenCodecs) =
      .error .outOfBounds := by
    rw [parseConfig_eq_readAll true (Files.openRead_write_self _ rfl),
      readAll_overrun (noNul_linesOf tenCodecs) many]
    rfl
  refine ⟨overrun, ?_⟩
  rintro ⟨conf, returned, -⟩
  rw [overrun] at returned
  cases returned

end Libamg.Sip
