import Libamg.C.Bytes

/-!
# Reading lines and cutting them up

`fgetsLines` is the sequence of buffers a `while (fgets(buffer, size, file))` loop
sees: a line longer than the buffer comes in several pieces. `strtok` returns the
token together with the place where the next call goes on.
-/

namespace Libamg.C

/-- The `fgets` loop over the rest of a file, with the room left in the buffer and
the bytes already in it. -/
def fgetsLoop (capacity : Nat) : Nat → Text → Text → List Text
  | _, line, [] => if line = [] then [] else [line]
  | room, line, byte :: rest =>
      if byte = newline ∨ room ≤ 1 then
        (line ++ [byte]) :: fgetsLoop capacity capacity [] rest
      else
        fgetsLoop capacity (room - 1) (line ++ [byte]) rest

/-- The buffers filled by successive calls of `fgets(buffer, size, file)`. -/
def fgetsLines (size : Nat) (text : Text) : List Text :=
  fgetsLoop (size - 1) (size - 1) [] text

/-- Cut a text at the first separator, which belongs to neither part. -/
def splitFirst (separator : Byte) : Text → Option (Text × Text)
  | [] => none
  | byte :: rest =>
      if byte = separator then some ([], rest)
      else (splitFirst separator rest).map fun parts => (byte :: parts.1, parts.2)

/-- `strtok`: skip delimiters, take a token, and step over the delimiter that ends
it. `none` is the NULL of a text without a token. -/
def strtok (delimiters text : Text) : Option (Text × Text) :=
  let start := text.dropWhile (· ∈ delimiters)
  if start = [] then none
  else some (start.takeWhile (· ∉ delimiters), (start.dropWhile (· ∉ delimiters)).tail)

/-- The tokens of successive calls of `strtok`, at most `fuel` of them. -/
def strtokLoop (delimiters : Text) : Nat → Text → List Text
  | 0, _ => []
  | fuel + 1, text =>
      match strtok delimiters text with
      | none => []
      | some (token, rest) => token :: strtokLoop delimiters fuel rest

/-- All tokens of a text: what `strtok(text, delimiters)` and then
`strtok(NULL, delimiters)` return up to the first NULL. -/
def tokens (delimiters text : Text) : List Text :=
  strtokLoop delimiters (text.length + 1) text

/-- What a text is after `strtok(text, delimiters)`: cut behind its first token.
Delimiters before the token stay, and a text of delimiters only is untouched. -/
def crop (delimiters text : Text) : Text :=
  match strtok delimiters text with
  | none => text
  | some (token, _) => text.takeWhile (· ∈ delimiters) ++ token

/-- The loop reads a line that fits the room left in the buffer in one piece. -/
theorem fgetsLoop_line {capacity room : Nat} {line body : Text} (rest : Text)
    (noNewline : newline ∉ body) (short : body.length < room) :
    fgetsLoop capacity room line (body ++ newline :: rest) =
      (line ++ body ++ [newline]) :: fgetsLoop capacity capacity [] rest := by
  induction body generalizing room line with
  | nil => simp [fgetsLoop]
  | cons byte body inductionHypothesis =>
      simp only [List.mem_cons, not_or] at noNewline
      simp only [List.length_cons] at short
      have goesOn : ¬ (byte = newline ∨ room ≤ 1) := by
        rintro (isNewline | full)
        · exact noNewline.1 isNewline.symm
        · omega
      rw [List.cons_append, fgetsLoop, if_neg goesOn,
        inductionHypothesis noNewline.2 (by omega)]
      simp

/-- A line that fits the buffer is the first one read. -/
theorem fgetsLines_cons {size : Nat} {line : Text} (rest : Text) (noNewline : newline ∉ line)
    (short : line.length + 1 < size) :
    fgetsLines size (line ++ newline :: rest) = (line ++ [newline]) :: fgetsLines size rest := by
  unfold fgetsLines
  rw [fgetsLoop_line rest noNewline (by omega)]
  simp

@[simp] theorem fgetsLines_nil (size : Nat) : fgetsLines size [] = [] := by
  simp [fgetsLines, fgetsLoop]

theorem splitFirst_append {separator : Byte} {before : Text} (after : Text)
    (absent : separator ∉ before) :
    splitFirst separator (before ++ separator :: after) = some (before, after) := by
  induction before with
  | nil => simp [splitFirst]
  | cons byte before inductionHypothesis =>
      simp only [List.mem_cons, not_or] at absent
      have different : byte ≠ separator := fun equal => absent.1 equal.symm
      simp [splitFirst, different, inductionHypothesis absent.2]

theorem splitFirst_eq_none {separator : Byte} {text : Text} (absent : separator ∉ text) :
    splitFirst separator text = none := by
  induction text with
  | nil => rfl
  | cons byte text inductionHypothesis =>
      simp only [List.mem_cons, not_or] at absent
      have different : byte ≠ separator := fun equal => absent.1 equal.symm
      simp [splitFirst, different, inductionHypothesis absent.2]

/-- A token at the start of a text, ended by a delimiter or by the end of the text. -/
theorem strtok_token {delimiters token rest : Text} (nonempty : token ≠ [])
    (inside : ∀ byte ∈ token, byte ∉ delimiters) (ends : ∀ byte ∈ rest.head?, byte ∈ delimiters) :
    strtok delimiters (token ++ rest) = some (token, rest.tail) := by
  have tokenBytes : ∀ byte ∈ token, decide (byte ∉ delimiters) = true := by simpa using inside
  have stop : ∀ byte ∈ rest.head?, decide (byte ∉ delimiters) = false := by simpa using ends
  have taken := takeWhile_append_stop tokenBytes stop
  have dropped := dropWhile_append_stop tokenBytes stop
  have start : (token ++ rest).dropWhile (· ∈ delimiters) = token ++ rest := by
    obtain ⟨first, tail, rfl⟩ := List.exists_cons_of_ne_nil nonempty
    simp [inside first List.mem_cons_self]
  have found : token ++ rest ≠ [] := List.append_ne_nil_of_left_ne_nil nonempty rest
  simp only [strtok, start, taken, dropped, if_neg found]

theorem strtok_append {delimiters token : Text} {stop : Byte} (rest : Text) (nonempty : token ≠ [])
    (inside : ∀ byte ∈ token, byte ∉ delimiters) (ends : stop ∈ delimiters) :
    strtok delimiters (token ++ stop :: rest) = some (token, rest) := by
  apply strtok_token nonempty inside
  rintro byte ⟨rfl⟩
  exact ends

theorem strtok_last {delimiters token : Text} (nonempty : token ≠ [])
    (inside : ∀ byte ∈ token, byte ∉ delimiters) :
    strtok delimiters token = some (token, []) := by
  have found := @strtok_token delimiters token [] nonempty inside nofun
  rwa [List.append_nil] at found

@[simp] theorem strtok_nil (delimiters : Text) : strtok delimiters [] = none := rfl

/-- A token takes at least one byte. -/
theorem strtok_length_lt {delimiters text token rest : Text}
    (found : strtok delimiters text = some (token, rest)) : rest.length < text.length := by
  have suffix := (@List.dropWhile_suffix _ text (· ∈ delimiters)).length_le
  simp only [strtok] at found
  split at found
  · cases found
  · rename_i nonempty
    obtain ⟨first, tail, shape⟩ := List.exists_cons_of_ne_nil nonempty
    have behind := (@List.dropWhile_suffix _ tail (· ∉ delimiters)).length_le
    have firstInside : first ∉ delimiters := by
      have head := List.head_dropWhile_not (· ∈ delimiters) nonempty
      simpa [shape] using head
    rw [shape, List.length_cons] at suffix
    cases found
    simp only [shape, List.dropWhile_cons, firstInside, not_false_eq_true, decide_true, ↓reduceIte,
      List.length_tail]
    omega

/-- More fuel than bytes finds no further tokens. -/
theorem strtokLoop_eq (delimiters : Text) {fuel other : Nat} {text : Text}
    (enough : text.length < fuel) (alsoEnough : text.length < other) :
    strtokLoop delimiters fuel text = strtokLoop delimiters other text := by
  induction fuel generalizing other text with
  | zero => omega
  | succ fuel inductionHypothesis =>
      obtain ⟨other, rfl⟩ : ∃ fewer, other = fewer + 1 := ⟨other - 1, by omega⟩
      rw [strtokLoop, strtokLoop]
      cases found : strtok delimiters text with
      | none => rfl
      | some parts =>
          obtain ⟨token, rest⟩ := parts
          have shorter := strtok_length_lt found
          have same : strtokLoop delimiters fuel rest = strtokLoop delimiters other rest :=
            inductionHypothesis (by omega) (by omega)
          exact congrArg (token :: ·) same

theorem tokens_eq_nil {delimiters text : Text} (noToken : strtok delimiters text = none) :
    tokens delimiters text = [] := by
  rw [tokens, strtokLoop, noToken]

theorem tokens_eq_cons {delimiters text token rest : Text}
    (found : strtok delimiters text = some (token, rest)) :
    tokens delimiters text = token :: tokens delimiters rest := by
  have shorter := strtok_length_lt found
  rw [tokens, strtokLoop, found]
  exact congrArg (token :: ·) (strtokLoop_eq delimiters shorter (Nat.lt_succ_self _))

/-- A delimiter at the front is skipped. -/
theorem strtok_cons {delimiters : Text} {byte : Byte} (delimiter : byte ∈ delimiters) (rest : Text) :
    strtok delimiters (byte :: rest) = strtok delimiters rest := by
  simp only [strtok, List.dropWhile_cons, delimiter, decide_true, if_true]

theorem tokens_cons {delimiters : Text} {byte : Byte} (delimiter : byte ∈ delimiters) (rest : Text) :
    tokens delimiters (byte :: rest) = tokens delimiters rest := by
  have skipped := strtok_cons delimiter rest
  cases found : strtok delimiters rest with
  | none => rw [tokens_eq_nil found, tokens_eq_nil (skipped.trans found)]
  | some parts => rw [tokens_eq_cons found, tokens_eq_cons (skipped.trans found)]

/-- With a single delimiter, the tokens are what stands between delimiters and is not empty. -/
theorem tokens_eq_filter (separator : Byte) (text : Text) :
    tokens [separator] text = (text.splitOn separator).filter (· ≠ []) := by
  induction length : text.length using Nat.strong_induction_on generalizing text with
  | _ _ inductionHypothesis =>
      subst length
      by_cases member : separator ∈ text
      · obtain ⟨token, rest, rfl, absent⟩ := List.eq_append_cons_of_mem member
        have shorter : rest.length < (token ++ separator :: rest).length := by
          rw [List.length_append, List.length_cons]
          omega
        have others := inductionHypothesis rest.length shorter rest rfl
        have inside : ∀ byte ∈ token, byte ∉ [separator] := by
          intro byte inToken same
          rw [List.mem_singleton.mp same] at inToken
          exact absent inToken
        rw [List.splitOn_append_cons_self_of_not_mem absent]
        by_cases empty : token = []
        · rw [empty, List.nil_append, tokens_cons List.mem_cons_self, others,
            List.filter_cons_of_neg (by simp)]
        · rw [tokens_eq_cons (strtok_append rest empty inside List.mem_cons_self), others,
            List.filter_cons_of_pos (by simpa using empty)]
      · have inside : ∀ byte ∈ text, byte ∉ [separator] := by
          intro byte inText same
          rw [List.mem_singleton.mp same] at inText
          exact member inText
        rw [List.splitOn_eq_singleton member]
        by_cases empty : text = []
        · rw [empty, tokens_eq_nil (strtok_nil _)]
          rfl
        · rw [tokens_eq_cons (strtok_last empty inside), tokens_eq_nil (strtok_nil _),
            List.filter_cons_of_pos (by simpa using empty), List.filter_nil]

/-- The tokens of words joined by a separator are the words. -/
theorem tokens_intercalate {separator : Byte} {words : List Text}
    (nonempty : ∀ word ∈ words, word ≠ []) (clean : ∀ word ∈ words, separator ∉ word) :
    tokens [separator] ([separator].intercalate words) = words := by
  induction words with
  | nil => rfl
  | cons word words inductionHypothesis =>
      have wordNonempty := nonempty word List.mem_cons_self
      have inside : ∀ byte ∈ word, byte ∉ [separator] := by
        intro byte member isSeparator
        rw [List.mem_singleton.mp isSeparator] at member
        exact clean word List.mem_cons_self member
      by_cases last : words = []
      · rw [last, List.intercalate_singleton, tokens_eq_cons (strtok_last wordNonempty inside),
          tokens_eq_nil (strtok_nil _)]
      · have rest := inductionHypothesis
          (fun other member => nonempty other (List.mem_cons_of_mem _ member))
          (fun other member => clean other (List.mem_cons_of_mem _ member))
        have cut := strtok_append ([separator].intercalate words) wordNonempty inside
          (List.mem_singleton_self separator)
        rw [List.intercalate_cons_of_ne_nil last, List.append_assoc, List.singleton_append,
          tokens_eq_cons cut, rest]

/-- What holds of the separator and of all bytes of the words holds of the joined text. -/
theorem forall_mem_intercalate {P : Byte → Prop} {separator : Byte} {words : List Text}
    (ofSeparator : P separator) (ofWords : ∀ word ∈ words, ∀ byte ∈ word, P byte) :
    ∀ byte ∈ [separator].intercalate words, P byte := by
  induction words with
  | nil => simp
  | cons word words inductionHypothesis =>
      have first := ofWords word List.mem_cons_self
      have rest := inductionHypothesis fun other member => ofWords other (List.mem_cons_of_mem _ member)
      by_cases last : words = []
      · rw [last, List.intercalate_singleton]
        exact first
      · intro byte member
        rw [List.intercalate_cons_of_ne_nil last, List.append_assoc, List.mem_append,
          List.mem_append, List.mem_singleton] at member
        rcases member with inFirst | rfl | inRest
        · exact first byte inFirst
        · exact ofSeparator
        · exact rest byte inRest

theorem length_intercalate_le {separator : Byte} {words : List Text} {width : Nat}
    (short : ∀ word ∈ words, word.length ≤ width) :
    ([separator].intercalate words).length ≤ words.length * (width + 1) := by
  induction words with
  | nil => simp
  | cons word words inductionHypothesis =>
      have first := short word List.mem_cons_self
      have rest := inductionHypothesis fun other member => short other (List.mem_cons_of_mem _ member)
      rw [List.length_cons, Nat.succ_mul]
      by_cases last : words = []
      · rw [last, List.intercalate_singleton]
        omega
      · rw [List.intercalate_cons_of_ne_nil last, List.append_assoc, List.length_append,
          List.length_append, List.length_singleton]
        omega

/-- Print one more item of a separated list: the separator goes before every item but
the first. -/
def appendItem (separator : Byte) (printed item : Text) : Text :=
  (if printed = [] then [] else printed ++ [separator]) ++ item

theorem appendItem_nil (separator : Byte) (item : Text) : appendItem separator [] item = item := rfl

/-- Printing the items one by one prints the separated list. -/
theorem foldl_appendItem (separator : Byte) {items : List Text}
    (nonempty : ∀ item ∈ items, item ≠ []) :
    items.foldl (appendItem separator) [] = [separator].intercalate items := by
  have continued (printed : Text) (started : printed ≠ []) (rest : List Text) :
      (∀ item ∈ rest, item ≠ []) → rest.foldl (appendItem separator) printed =
        [separator].intercalate (printed :: rest) := by
    induction rest generalizing printed with
    | nil => exact fun _ => List.intercalate_singleton.symm
    | cons item rest inductionHypothesis =>
        intro restNonempty
        have step : appendItem separator printed item = printed ++ [separator] ++ item := by
          rw [appendItem, if_neg started]
        have later := inductionHypothesis (printed ++ [separator] ++ item) (by simp)
          fun other member => restNonempty other (List.mem_cons_of_mem _ member)
        rw [List.foldl_cons, step, later, List.intercalate_cons_cons]
        by_cases last : rest = []
        · rw [last, List.intercalate_singleton, List.intercalate_singleton]
        · rw [List.intercalate_cons_of_ne_nil last, List.intercalate_cons_of_ne_nil last]
          simp only [List.append_assoc]
  cases items with
  | nil => rfl
  | cons item items =>
      rw [List.foldl_cons, appendItem_nil]
      exact continued item (nonempty item List.mem_cons_self) items
        fun other member => nonempty other (List.mem_cons_of_mem _ member)

theorem crop_append {delimiters token : Text} {stop : Byte} (rest : Text) (nonempty : token ≠ [])
    (inside : ∀ byte ∈ token, byte ∉ delimiters) (ends : stop ∈ delimiters) :
    crop delimiters (token ++ stop :: rest) = token := by
  have token_eq := strtok_append rest nonempty inside ends
  obtain ⟨first, tail, rfl⟩ := List.exists_cons_of_ne_nil nonempty
  have firstInside := inside first List.mem_cons_self
  unfold crop
  rw [token_eq]
  simp [firstInside]

/-- Cropping only cuts off. -/
theorem prefix_crop (delimiters text : Text) : crop delimiters text <+: text := by
  unfold crop strtok
  by_cases noToken : text.dropWhile (· ∈ delimiters) = []
  · simp [noToken]
  · simp only [if_neg noToken]
    refine ⟨(text.dropWhile (· ∈ delimiters)).dropWhile (· ∉ delimiters), ?_⟩
    rw [List.append_assoc, List.takeWhile_append_dropWhile, List.takeWhile_append_dropWhile]

theorem notMem_of_splitFirst {separator : Byte} {text : Text}
    (uncut : splitFirst separator text = none) : separator ∉ text := by
  intro member
  obtain ⟨before, after, rfl, absent⟩ := List.eq_append_cons_of_mem member
  rw [splitFirst_append after absent] at uncut
  cases uncut

/-- The two parts of a cut text and the separator between them. -/
theorem eq_of_splitFirst {separator : Byte} {text before after : Text}
    (cut : splitFirst separator text = some (before, after)) :
    text = before ++ separator :: after ∧ separator ∉ before := by
  induction text generalizing before after with
  | nil => cases cut
  | cons byte rest inductionHypothesis =>
      rw [splitFirst] at cut
      split at cut
      · rename_i isSeparator
        cases cut
        exact ⟨by rw [isSeparator]; rfl, List.not_mem_nil⟩
      · rename_i different
        obtain ⟨⟨first, last⟩, found, same⟩ := Option.map_eq_some_iff.mp cut
        obtain ⟨shape, absent⟩ := inductionHypothesis found
        cases same
        refine ⟨by rw [shape]; rfl, ?_⟩
        exact List.not_mem_cons_of_ne_of_not_mem (fun equal => different equal.symm) absent

/-- Without delimiters nothing is cropped. -/
@[simp] theorem crop_nil (text : Text) : crop [] text = text := by
  cases text with
  | nil => rfl
  | cons byte rest => simp [crop, strtok]

/-- A text that begins with a token is cropped to it. -/
theorem crop_of_head {delimiters text : Text} (token : ∀ byte ∈ text.head?, byte ∉ delimiters) :
    crop delimiters text = text.takeWhile (· ∉ delimiters) := by
  cases text with
  | nil => rfl
  | cons byte rest =>
      have inside : byte ∉ delimiters := token byte rfl
      simp [crop, strtok, inside]

theorem crop_cons {delimiters : Text} {byte : Byte} (delimiter : byte ∈ delimiters) (rest : Text) :
    crop delimiters (byte :: rest) = byte :: crop delimiters rest := by
  unfold crop
  rw [strtok_cons delimiter]
  cases strtok delimiters rest with
  | none => rfl
  | some parts => simp only [List.takeWhile_cons, delimiter, decide_true, if_true, List.cons_append]

theorem crop_empty (delimiters : Text) : crop delimiters [] = [] := rfl

/-- What is cut off a text before it is cropped is missing afterwards, and nothing else. -/
theorem crop_take (delimiters text : Text) (count : Nat) :
    crop delimiters (text.take count) = (crop delimiters text).take count := by
  induction text generalizing count with
  | nil => rw [List.take_nil, crop_empty, List.take_nil]
  | cons byte text inductionHypothesis =>
      cases count with
      | zero => rfl
      | succ count =>
          by_cases delimiter : byte ∈ delimiters
          · rw [List.take_succ_cons, crop_cons delimiter, crop_cons delimiter, List.take_succ_cons,
              inductionHypothesis]
          · have token (rest : Text) : ∀ first ∈ (byte :: rest).head?, first ∉ delimiters := by
              simpa using delimiter
            rw [List.take_succ_cons, crop_of_head (token _), crop_of_head (token _),
              ← List.take_succ_cons, List.take_takeWhile]

/-- A delimiter at the front stays there. -/
theorem mem_crop_of_head {delimiters text : Text} {byte : Byte} (first : byte ∈ text.head?)
    (delimiter : byte ∈ delimiters) : byte ∈ (crop delimiters text).head? := by
  cases text with
  | nil => cases first
  | cons other rest =>
      cases first
      unfold crop
      split
      · rfl
      · simp [delimiter]

/-- A text of delimiters only has no token to crop behind. -/
theorem crop_delimiters {delimiters text : Text} (all : ∀ byte ∈ text, byte ∈ delimiters) :
    crop delimiters text = text := by
  have start : text.dropWhile (· ∈ delimiters) = [] := by
    rw [List.dropWhile_eq_nil_iff]
    simpa using all
  have noToken : strtok delimiters text = none := by
    unfold strtok
    rw [start]
    simp
  unfold crop
  rw [noToken]

end Libamg.C
