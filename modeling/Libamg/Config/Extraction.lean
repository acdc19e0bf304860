import Libamg.Config.Comcerto
import Libamg.Config.Extensions
import Libamg.Config.Sip
import Libamg.Config.SysLog
import Libamg.Dahdi.Config

/-!
# Keys and values of five parsers

Each of the five parsers cuts a line at its first `=` and crops what is behind it with
`strtok`. That leaves delimiters at the front of a value where they are; and in four of the
parsers the literal ends before the two signs that begin a commentary.
-/

namespace Libamg

open C

/-- The functions that read lines of keys and values. -/
inductive Parser where
  | sip
  | comcerto
  | extensions
  | sysLog
  | chanDahdi

namespace Parser

/-- The delimiters of the crop step. -/
def delimiters : Parser → Text
  | sip | comcerto | extensions | sysLog => cropDelimiters
  | chanDahdi => Dahdi.dahdiDelimiters

/-- The size of the buffer for a line. -/
def bufSize : Parser → Nat
  | sip => Sip.bufSize
  | comcerto => Comcerto.bufSize
  | extensions => Extensions.bufSize
  | sysLog => SysLog.bufSize
  | chanDahdi => Dahdi.bufSize

/-- What a parser makes of a line. -/
def extract (parser : Parser) (buffer : Text) : Option (Text × Text) :=
  keyValue parser.delimiters buffer

/-- The keys and values that a parser finds in a file. -/
def read (parser : Parser) (text : Text) : List (Text × Text) :=
  (fgetsLines parser.bufSize text).filterMap parser.extract

end Parser

/-- Blank, tab, newline and the signs of a commentary. -/
def commentary : Text := lit " \t\n;#"

/-- Key and value as they are meant: the value ends where a commentary or a gap begins. -/
def expected (buffer : Text) : Option (Text × Text) :=
  (splitFirst equals (cstr buffer)).map fun parts => (parts.1, parts.2.takeWhile (· ∉ commentary))

/-- The text behind the `=` does not begin with a delimiter or a commentary, and no
commentary begins before the first byte that the parser takes for a delimiter. -/
def Parser.Plain (parser : Parser) (raw : Text) : Prop :=
  (∀ byte ∈ raw.head?, byte ∉ commentary) ∧
    ∀ byte ∈ raw.takeWhile (· ∉ parser.delimiters), byte ∉ commentary

/-! ## The readers of the parsers -/

section Reads

variable (files : Files) {text : Text}

theorem sip_reads (charSigned : Bool) (opened : files.openRead Sip.fileSipConf = some text) :
    Sip.parseConfig charSigned files = (do
      let state ← (Parser.sip.read text).foldl
        (fun state line => Sip.parseStep charSigned line.1 line.2 state)
        (.ok { conf := .zero, posCodecs := 0 })
      return some state.conf) := by
  rw [Sip.parseConfig, opened]
  dsimp only
  rw [parseLines_eq_foldl]
  rfl

theorem comcerto_reads (opened : files.openRead Comcerto.fileComcertoConf = some text) :
    Comcerto.parseConfig files = some ((Parser.comcerto.read text).foldl
      (fun conf line => Comcerto.applySetting line.1 line.2 conf) .zero) := by
  rw [Comcerto.parseConfig, opened, Option.map_some, parseLines_eq_foldl]
  rfl

theorem extensions_reads (opened : files.openRead Extensions.fileExtensionsConf = some text) :
    Extensions.parseConfig files = some ((Parser.extensions.read text).foldl
      (fun conf line => Extensions.applySetting line.1 line.2 conf)
      { prefixEnable := 0, dialPrefix := 0 }) := by
  rw [Extensions.parseConfig, opened, Option.map_some, parseLines_eq_foldl]
  rfl

theorem sysLog_reads (opened : files.openRead SysLog.fileSysLogConf = some text) :
    SysLog.parseConfig files = some ((Parser.sysLog.read text).foldl
      (fun conf line => SysLog.applySetting line.1 line.2 conf) .zero) := by
  rw [SysLog.parseConfig, opened, Option.map_some, parseLines_eq_foldl]
  rfl

/-- This parser keeps the text behind the `=` and crops it where it looks at the value. -/
theorem chanDahdi_reads (standardMode : Bool) (spans : Dahdi.Spans)
    (opened : files.openRead Dahdi.fileChanDahdiConf = some text) :
    Parser.chanDahdi.read text = (linesRead Dahdi.bufSize [] text).map
        (fun line => (line.1, crop Dahdi.dahdiDelimiters line.2)) ∧
      Dahdi.parseChanDahdiConf standardMode files spans = (do
        let spans ← (linesRead Dahdi.bufSize [] text).foldl
          (fun state line => Dahdi.parseStep standardMode line.1 line.2 state) (.ok spans)
        return (0, spans)) := by
  constructor
  · rw [← linesRead_eq_map]
    rfl
  · rw [Dahdi.parseChanDahdiConf, opened]
    dsimp only
    rw [parseLines_eq_foldl]

end Reads

/-! ## Cropping -/

/-- What is taken up to a stop is what is taken up to an earlier kind of stop exactly if
none of that kind is in it. -/
theorem takeWhile_eq_takeWhile_iff {first second : Byte → Bool} {text : Text}
    (stops : ∀ byte, first byte = false → second byte = false) :
    text.takeWhile first = text.takeWhile second ↔
      ∀ byte ∈ text.takeWhile first, second byte = true := by
  constructor
  · intro same byte member
    rw [same] at member
    exact List.mem_takeWhile_imp member
  · intro kept
    have stop : ∀ byte ∈ (text.dropWhile first).head?, second byte = false := by
      intro byte next
      cases rest : text.dropWhile first with
      | nil =>
          rw [rest] at next
          cases next
      | cons head tail =>
          rw [rest] at next
          cases next
          have left : text.dropWhile first ≠ [] := by
            rw [rest]
            exact List.cons_ne_nil byte tail
          have refused := List.head_dropWhile_not first left
          simp only [rest, List.head_cons] at refused
          exact stops byte (by simpa using refused)
    have taken := takeWhile_append_stop kept stop
    rw [List.takeWhile_append_dropWhile] at taken
    exact taken.symm

theorem Parser.delimiters_subset (parser : Parser) : ∀ byte ∈ parser.delimiters, byte ∈ commentary := by
  cases parser with
  | sip | comcerto | extensions | sysLog | chanDahdi => exact forall_mem_of_all (by decide)

/-- A value is cropped as it is meant exactly if it is plain. -/
theorem crop_eq_iff (parser : Parser) (raw : Text) :
    crop parser.delimiters raw = raw.takeWhile (· ∉ commentary) ↔ parser.Plain raw := by
  have subset := parser.delimiters_subset
  by_cases clean : ∀ byte ∈ raw.head?, byte ∉ commentary
  · have token : ∀ byte ∈ raw.head?, byte ∉ parser.delimiters :=
      fun byte first listed => clean byte first (subset byte listed)
    rw [crop_of_head token, takeWhile_eq_takeWhile_iff (by simpa using subset), Parser.Plain,
      and_iff_right clean]
    simp only [decide_eq_true_eq]
  · refine iff_of_false ?_ fun plain => clean plain.1
    intro same
    cases raw with
    | nil => exact clean (by intro byte impossible; cases impossible)
    | cons byte rest =>
        have marked : byte ∈ commentary := by simpa using clean
        have nothing : (byte :: rest).takeWhile (· ∉ commentary) = [] := by
          rw [List.takeWhile_cons_of_neg (by simpa using marked)]
        rw [nothing] at same
        by_cases listed : byte ∈ parser.delimiters
        · have kept := @mem_crop_of_head _ (byte :: rest) _ rfl listed
          rw [same] at kept
          cases kept
        · rw [crop_of_head (by simpa using listed),
            List.takeWhile_cons_of_pos (by simpa using listed)] at same
          cases same

/-- A parser extracts key and value of a line as they are meant exactly if the text behind
the first `=`, if there is one, is plain. -/
theorem extract_eq_expected_iff (parser : Parser) (buffer : Text) :
    parser.extract buffer = expected buffer ↔
      ∀ key raw, splitFirst equals (cstr buffer) = some (key, raw) → parser.Plain raw := by
  rw [Parser.extract, keyValue, expected]
  cases cut : splitFirst equals (cstr buffer) with
  | none => exact iff_of_true rfl (by intro key raw impossible; cases impossible)
  | some parts =>
      obtain ⟨key, raw⟩ := parts
      rw [Option.map_some, Option.map_some, Option.some_inj, Prod.mk.injEq, and_iff_right rfl,
        crop_eq_iff]
      constructor
      · rintro plain _ _ same
        cases same
        exact plain
      · exact fun all => all key raw rfl

/-- An empty value keeps its newline. -/
theorem extract_empty_value :
    Parser.sysLog.extract (lit "remote_host=\n") = some (lit "remote_host", [newline]) ∧
      Parser.sysLog.extract (lit "remote_host=\n") ≠ expected (lit "remote_host=\n") := by
  decide

end Libamg
