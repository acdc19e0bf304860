import Libamg.C.Tokens
import Mathlib.Data.List.Basic

/-!
# Files of `key=value` lines

Two readings of such a file. `parseLines` is the reader a program runs: an `fgets`
loop that cuts each line at its first `=`, crops the value with `strtok` and hands
both to `apply`. `settings` is the file's content in itself, whole lines cut at
their first `=`. `Entry` lists are the common source of both: `parseLines_render`
and `settings_render` say what each reading finds in a rendered list.
-/

namespace Libamg.C

/-- Key and value of one buffer, `none` when it holds no `=`. -/
def keyValue (delimiters buffer : Text) : Option (Text × Text) :=
  (splitFirst equals (cstr buffer)).map fun parts => (parts.1, crop delimiters parts.2)

/-- Fold `apply key value` over the `key=value` lines of a file. -/
def parseLines {σ : Type} (size : Nat) (delimiters : Text) (apply : Text → Text → σ → σ)
    (init : σ) (text : Text) : σ :=
  (fgetsLines size text).foldl
    (fun state buffer =>
      match keyValue delimiters buffer with
      | none => state
      | some (key, value) => apply key value state)
    init

/-- The keys and cropped values that the reader finds, in the order of the file. -/
def linesRead (size : Nat) (delimiters text : Text) : List (Text × Text) :=
  (fgetsLines size text).filterMap (keyValue delimiters)

/-- The values of the lines with a given key. -/
def valuesOf (key : String) (lines : List (Text × Text)) : List Text :=
  lines.filterMap fun line => if line.1 = lit key then some line.2 else none

/-- The settings a file holds: each line with an `=`, cut at the first one. -/
def settings (text : Text) : List (Text × Text) :=
  (text.splitOn newline).filterMap (splitFirst equals)

theorem parseLines_eq_foldl {σ : Type} (size : Nat) (delimiters : Text)
    (apply : Text → Text → σ → σ) (init : σ) (text : Text) :
    parseLines size delimiters apply init text =
      (linesRead size delimiters text).foldl (fun state line => apply line.1 line.2 state) init := by
  rw [parseLines, linesRead, List.foldl_filterMap]
  refine List.foldl_ext _ _ init fun state buffer _ => ?_
  cases keyValue delimiters buffer <;> rfl

/-- A buffer has a key if it begins with it and a `=`. -/
theorem keyValue_key {key : Text} (noEquals : equals ∉ key) (noNul : 0 ∉ key)
    (delimiters rest : Text) :
    keyValue delimiters (key ++ equals :: rest) = some (key, crop delimiters (cstr rest)) := by
  have front : 0 ∉ key ++ [equals] := by
    have different : (0 : Byte) ≠ equals := by decide
    simp [noNul, different]
  rw [keyValue, List.append_cons, cstr_append front, ← List.append_cons, splitFirst_append _ noEquals]
  rfl

theorem of_keyValue_key {delimiters key buffer value : Text}
    (read : keyValue delimiters buffer = some (key, value)) : key ++ [equals] <+: buffer := by
  obtain ⟨⟨first, rest⟩, cut, same⟩ := Option.map_eq_some_iff.mp read
  cases same
  have front : first ++ [equals] <+: cstr buffer :=
    ⟨rest, by rw [(eq_of_splitFirst cut).1, ← List.append_cons]⟩
  exact front.trans (isPrefix_cstr buffer)

/-- A value is part of a C string. -/
theorem nul_notMem_of_linesRead {size : Nat} {delimiters text : Text} {line : Text × Text}
    (read : line ∈ linesRead size delimiters text) : 0 ∉ line.2 := by
  obtain ⟨buffer, -, found⟩ := List.mem_filterMap.mp read
  obtain ⟨⟨key, value⟩, cut, rfl⟩ := Option.map_eq_some_iff.mp found
  intro member
  have inBuffer : 0 ∈ cstr buffer := by
    rw [(eq_of_splitFirst cut).1]
    exact List.mem_append_right _ (List.mem_cons_of_mem _ ((prefix_crop _ _).subset member))
  exact nul_notMem_cstr buffer inBuffer

/-- The values found are the raw values, cropped. -/
theorem linesRead_eq_map (size : Nat) (delimiters text : Text) :
    linesRead size delimiters text =
      (linesRead size [] text).map fun line => (line.1, crop delimiters line.2) := by
  rw [linesRead, linesRead, List.map_filterMap]
  refine List.filterMap_congr fun buffer _ => ?_
  simp only [keyValue, crop_nil, Option.map_map]
  rfl

theorem valuesOf_map (key : String) (change : Text → Text) (lines : List (Text × Text)) :
    valuesOf key (lines.map fun line => (line.1, change line.2)) =
      (valuesOf key lines).map change := by
  rw [valuesOf, valuesOf, List.filterMap_map, List.map_filterMap]
  refine List.filterMap_congr fun line _ => ?_
  by_cases found : line.1 = lit key
  · simp only [Function.comp_apply, if_pos found, Option.map_some]
  · simp only [Function.comp_apply, if_neg found, Option.map_none]

theorem valuesOf_append (key : String) (first second : List (Text × Text)) :
    valuesOf key (first ++ second) = valuesOf key first ++ valuesOf key second :=
  List.filterMap_append

theorem valuesOf_singleton_self (key : String) (value : Text) :
    valuesOf key [(lit key, value)] = [value] := by
  simp [valuesOf]

theorem valuesOf_singleton_of_ne {key : String} {other : Text} (value : Text)
    (different : other ≠ lit key) : valuesOf key [(other, value)] = [] := by
  simp [valuesOf, different]

/-- One line of a file, without its newline. -/
inductive Entry where
  | setting (key value : Text)
  | other (text : Text)
deriving DecidableEq

namespace Entry

def line : Entry → Text
  | setting key value => key ++ equals :: value
  | other text => text

/-- The setting of a line, if it is one. -/
def setting? : Entry → Option (Text × Text)
  | setting key value => some (key, value)
  | other _ => none

/-- The part of a line that must be free of `=` for the line to be read back. -/
def head : Entry → Text
  | setting key _ => key
  | other text => text

/-- The line is read back whole and unambiguously by a buffer of `size` bytes. -/
structure WellFormed (size : Nat) (entry : Entry) : Prop where
  noNewline : newline ∉ entry.line
  noNul : 0 ∉ entry.line
  noEquals : equals ∉ entry.head
  short : entry.line.length + 1 < size

instance (size : Nat) (entry : Entry) : Decidable (entry.WellFormed size) :=
  decidable_of_iff
    (newline ∉ entry.line ∧ 0 ∉ entry.line ∧ equals ∉ entry.head ∧ entry.line.length + 1 < size)
    ⟨fun parts => ⟨parts.1, parts.2.1, parts.2.2.1, parts.2.2.2⟩,
      fun wellFormed => ⟨wellFormed.noNewline, wellFormed.noNul, wellFormed.noEquals,
        wellFormed.short⟩⟩

/-- A setting is well formed when its key and value are. -/
theorem WellFormed.ofSetting {size : Nat} {key value : Text}
    (keyShape : newline ∉ key ∧ 0 ∉ key ∧ equals ∉ key) (valueShape : newline ∉ value ∧ 0 ∉ value)
    (short : key.length + value.length + 2 < size) : (setting key value).WellFormed size where
  noNewline := by
    have different : newline ≠ equals := by decide
    simp [line, keyShape.1, valueShape.1, different]
  noNul := by
    have different : (0 : Byte) ≠ equals := by decide
    simp [line, keyShape.2.1, valueShape.2, different]
  noEquals := keyShape.2.2
  short := by
    simp only [line, List.length_append, List.length_cons]
    omega

end Entry

/-- The text of a list of lines. -/
def render (entries : List Entry) : Text :=
  entries.flatMap fun entry => entry.line ++ [newline]

@[simp] theorem render_nil : render [] = [] := rfl

theorem render_cons (entry : Entry) (entries : List Entry) :
    render (entry :: entries) = entry.line ++ newline :: render entries := by
  simp [render]

@[simp] theorem render_append (first second : List Entry) :
    render (first ++ second) = render first ++ render second := by
  simp [render]

/-- Print one setting: `fprintf(file, "key=...\\n", ...)` with the converted value. -/
def field (key : String) (value : Text) : Text := lit key ++ equals :: (value ++ [newline])

theorem render_setting (key : String) (value : Text) (entries : List Entry) :
    render (.setting (lit key) value :: entries) = field key value ++ render entries := by
  simp [render_cons, field, Entry.line]

theorem render_other (text : Text) (entries : List Entry) :
    render (.other text :: entries) = text ++ newline :: render entries := render_cons _ _

/-- What one line does to the state of a reader. -/
def applyEntry {σ : Type} (delimiters : Text) (apply : Text → Text → σ → σ) (state : σ) :
    Entry → σ
  | .setting key value => apply key (crop delimiters (value ++ [newline])) state
  | .other _ => state

theorem keyValue_line {size : Nat} (delimiters : Text) {entry : Entry}
    (wellFormed : entry.WellFormed size) :
    keyValue delimiters (entry.line ++ [newline]) =
      entry.setting?.map fun parts => (parts.1, crop delimiters (parts.2 ++ [newline])) := by
  have noNul : 0 ∉ entry.line ++ [newline] := by
    have different : (0 : Byte) ≠ newline := by decide
    simp [wellFormed.noNul, different]
  unfold keyValue
  rw [cstr_eq_self noNul]
  cases entry with
  | setting key value =>
      have shape : (Entry.setting key value).line ++ [newline] =
          key ++ equals :: (value ++ [newline]) := by simp [Entry.line]
      have noEquals : equals ∉ key := wellFormed.noEquals
      rw [shape, splitFirst_append _ noEquals]
      rfl
  | other text =>
      have absent : equals ∉ text ++ [newline] := by
        have different : equals ≠ newline := by decide
        have noEquals : equals ∉ text := wellFormed.noEquals
        simp [noEquals, different]
      rw [Entry.line, splitFirst_eq_none absent]
      rfl

/-- The buffers read from a rendered list are its lines. -/
theorem fgetsLines_render {size : Nat} {entries : List Entry}
    (wellFormed : ∀ entry ∈ entries, entry.WellFormed size) :
    fgetsLines size (render entries) = entries.map fun entry => entry.line ++ [newline] := by
  induction entries with
  | nil => exact fgetsLines_nil size
  | cons entry entries inductionHypothesis =>
      have first := wellFormed entry List.mem_cons_self
      rw [render_cons, fgetsLines_cons _ first.noNewline first.short, List.map_cons,
        inductionHypothesis fun other member => wellFormed other (List.mem_cons_of_mem _ member)]

/-- Reading a rendered list applies its lines in order. -/
theorem parseLines_render {σ : Type} {size : Nat} {delimiters : Text}
    (apply : Text → Text → σ → σ) (init : σ) {entries : List Entry}
    (wellFormed : ∀ entry ∈ entries, entry.WellFormed size) :
    parseLines size delimiters apply init (render entries) =
      entries.foldl (applyEntry delimiters apply) init := by
  rw [parseLines, fgetsLines_render wellFormed, List.foldl_map]
  refine List.foldl_ext _ _ init fun state entry member => ?_
  rw [keyValue_line delimiters (wellFormed entry member)]
  cases entry <;> rfl

/-- A rendered list holds the settings of its lines, in order. -/
theorem settings_render {size : Nat} {entries : List Entry}
    (wellFormed : ∀ entry ∈ entries, entry.WellFormed size) :
    settings (render entries) = entries.filterMap Entry.setting? := by
  induction entries with
  | nil => rfl
  | cons entry entries inductionHypothesis =>
      have first := wellFormed entry List.mem_cons_self
      have rest := inductionHypothesis fun other member =>
        wellFormed other (List.mem_cons_of_mem _ member)
      have cut : splitFirst equals entry.line = entry.setting? := by
        cases entry with
        | setting key value =>
            have noEquals : equals ∉ key := first.noEquals
            exact splitFirst_append _ noEquals
        | other text =>
            have noEquals : equals ∉ text := first.noEquals
            exact splitFirst_eq_none noEquals
      unfold settings at rest ⊢
      rw [render_cons, List.splitOn_append_cons_self, List.splitOn_eq_singleton first.noNewline,
        List.singleton_append, List.filterMap_cons, List.filterMap_cons, cut, rest]

/-- The value of a cropped line: an empty value keeps the newline, because a line
of delimiters only has no token. -/
def cropped (value : Text) : Text := if value = [] then [newline] else value

theorem crop_line {delimiters value : Text} (inside : ∀ byte ∈ value, byte ∉ delimiters)
    (ends : newline ∈ delimiters) : crop delimiters (value ++ [newline]) = cropped value := by
  unfold cropped
  split
  · rename_i empty
    rw [empty]
    exact crop_delimiters (by simpa using ends)
  · rename_i nonempty
    exact crop_append [] nonempty inside ends

/-- A word is cropped to itself by delimiters that are not graphic. -/
theorem crop_word {delimiters value : Text} (blanks : ∀ byte ∈ delimiters, isGraph byte = false)
    (ends : newline ∈ delimiters) (word : IsWord value) :
    crop delimiters (value ++ [newline]) = cropped value := by
  refine crop_line (fun byte member delimiter => ?_) ends
  have graph := word byte member
  rw [blanks byte delimiter] at graph
  exact Bool.false_ne_true graph

theorem cropped_eq_self {value : Text} (nonempty : value ≠ []) : cropped value = value :=
  if_neg nonempty

end Libamg.C
