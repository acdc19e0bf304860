import Libamg.C.Lines
import Libamg.Config.Extensions

/-!
# The PREFIX line

What `libamg_extensions_parse_config` makes of a file in which one line sets the prefix.
Any line with another key resets the configuration, so the place of that line counts:
`parsesPrefix_iff`.
-/

namespace Libamg.Extensions

open C

/-- The key of a line: what stands before its first `=`. -/
def lineKey (line : Text) : Option Text := (splitFirst equals (cstr line)).map Prod.fst

/-- What one line does to the configuration. -/
def applyLine (conf : ExtensionsConfig) (line : Text) : ExtensionsConfig :=
  match keyValue cropDelimiters line with
  | none => conf
  | some (key, value) => applySetting key value conf

/-- The configuration that a line without the prefix leaves. -/
def reset : ExtensionsConfig := { prefixEnable := 0, dialPrefix := -1 }

theorem applyLine_of_noEquals (conf : ExtensionsConfig) {line : Text} (noEquals : equals ∉ cstr line) :
    applyLine conf line = conf := by
  rw [applyLine, keyValue, splitFirst_eq_none noEquals]
  rfl

/-- A line with another key resets the configuration. -/
theorem applyLine_of_otherKey (conf : ExtensionsConfig) {line : Text} (setting : equals ∈ cstr line)
    (otherKey : lineKey line ≠ some (lit "PREFIX")) : applyLine conf line = reset := by
  cases cut : splitFirst equals (cstr line) with
  | none => exact absurd setting (notMem_of_splitFirst cut)
  | some parts =>
      have different : parts.1 ≠ lit "PREFIX" := by
        intro same
        rw [lineKey, cut, Option.map_some, same] at otherKey
        exact otherKey rfl
      rw [applyLine, keyValue, cut]
      exact if_neg different

/-- The prefix is the number behind the `=`, which the crop step leaves whole. -/
theorem applyLine_prefix (conf : ExtensionsConfig) {value : Text} {n : Int32}
    (noSpace : ∀ byte ∈ (cstr value).head?, isSpace byte = false)
    (denotes : strtol (cstr value) = n.toInt) :
    applyLine conf (lit "PREFIX=" ++ value) = { prefixEnable := 1, dialPrefix := n } := by
  have line : cstr (lit "PREFIX=" ++ value) = lit "PREFIX" ++ equals :: cstr value :=
    cstr_append (by decide) value
  have cut : splitFirst equals (lit "PREFIX" ++ equals :: cstr value) =
      some (lit "PREFIX", cstr value) := splitFirst_append _ (by decide)
  have token : ∀ byte ∈ (cstr value).head?, byte ∉ cropDelimiters := by
    intro byte first delimiter
    have spaces : ∀ byte ∈ cropDelimiters, isSpace byte = true := forall_mem_of_all (by decide)
    have space := spaces byte delimiter
    rw [noSpace byte first] at space
    exact Bool.false_ne_true space
  have number : atoi (crop cropDelimiters (cstr value)) = n := by
    apply atoi_of_strtol
    rw [crop_of_head token, strtol_takeWhile noSpace, denotes]
    intro byte numeric
    rw [decide_eq_true_eq]
    rintro delimiter
    have others : ∀ byte ∈ cropDelimiters,
        ¬ (isDigit byte = true ∨ byte = minus ∨ byte = 43) := forall_mem_of_all (by decide)
    exact others byte delimiter numeric
  rw [applyLine, keyValue, line, cut]
  simp only [Option.map_some, applySetting, if_true, number]

/-- Lines without the prefix leave a configuration alone if none of them is a setting. -/
theorem foldl_applyLine (conf : ExtensionsConfig) {lines : List Text}
    (others : ∀ line ∈ lines, lineKey line ≠ some (lit "PREFIX")) :
    lines.foldl applyLine conf = if ∀ line ∈ lines, equals ∉ cstr line then conf else reset := by
  induction lines generalizing conf with
  | nil => rfl
  | cons line lines inductionHypothesis =>
      obtain ⟨otherKey, later⟩ := List.forall_mem_cons.mp others
      rw [List.foldl_cons, inductionHypothesis _ later]
      simp only [List.forall_mem_cons]
      by_cases setting : equals ∈ cstr line
      · rw [applyLine_of_otherKey conf setting otherKey, ite_self,
          if_neg fun both => both.1 setting]
      · rw [applyLine_of_noEquals conf setting]
        simp only [setting, not_false_eq_true, true_and]

/-- Lines that fit the buffer are applied one after the other. -/
theorem parseConfig_eq_foldl {files : Files} {text : Text}
    (opened : files.openRead fileExtensionsConf = some text)
    (short : ∀ line ∈ splitLines text, line.length < bufSize) :
    parseConfig files = some ((splitLines text).foldl applyLine { prefixEnable := 0, dialPrefix := 0 }) := by
  have read : fgetsLines bufSize text = splitLines text :=
    fgetsLines_eq_splitLines (by decide) fun line listed => Nat.le_of_lt_succ (short line listed)
  rw [parseConfig, opened, Option.map_some, parseLines, read]
  rfl

/-- The prefix of a file with one PREFIX line is found exactly if no setting follows it. -/
theorem parsesPrefix_iff {files : Files} {text value : Text} {before after : List Text} {n : Int32}
    (opened : files.openRead fileExtensionsConf = some text)
    (short : ∀ line ∈ splitLines text, line.length < bufSize)
    (lines : splitLines text = before ++ (lit "PREFIX=" ++ value) :: after)
    (noSpace : ∀ byte ∈ (cstr value).head?, isSpace byte = false)
    (denotes : strtol (cstr value) = n.toInt)
    (only : ∀ line ∈ before ++ after, lineKey line ≠ some (lit "PREFIX")) :
    parseConfig files = some { prefixEnable := 1, dialPrefix := n } ↔
      ∀ line ∈ after, equals ∉ cstr line := by
  have later : ∀ line ∈ after, lineKey line ≠ some (lit "PREFIX") :=
    fun line listed => only line (List.mem_append_right _ listed)
  rw [parseConfig_eq_foldl opened short, lines, List.foldl_append, List.foldl_cons,
    applyLine_prefix _ noSpace denotes, foldl_applyLine _ later, Option.some.injEq]
  constructor
  · intro kept
    by_contra setting
    rw [if_neg setting] at kept
    cases kept
  · intro none
    exact if_pos none

/-- A globals section that is followed by nothing but comments. -/
def globalsText : Text := lit "[globals]\nCONSOLE=Console/dsp\nPREFIX=0155 ; outside line\n\n[nop]\n"

theorem parsesPrefix_iff_witness :
    parseConfig (Files.empty.write fileExtensionsConf globalsText) =
      some { prefixEnable := 1, dialPrefix := 155 } ↔
      ∀ line ∈ [lit "\n", lit "[nop]\n"], equals ∉ cstr line :=
  @parsesPrefix_iff _ globalsText (lit "0155 ; outside line\n")
    [lit "[globals]\n", lit "CONSOLE=Console/dsp\n"] [lit "\n", lit "[nop]\n"] 155
    (Files.openRead_write_self _ rfl) (by decide) (by decide) (forall_head_of_all (by decide))
    (by decide) (by decide)

/-- The same section in front of an extension. -/
def dialPlanText : Text := lit "[globals]\nPREFIX=155\n[nop]\nexten => s,1,Hangup()\n"

/-- The extension takes the prefix away, though no other line has the key. -/
theorem prefixLine_lost :
    (splitLines dialPlanText).filter (fun line => lineKey line = some (lit "PREFIX")) =
        [lit "PREFIX=155\n"] ∧
      parseConfig (Files.empty.write fileExtensionsConf dialPlanText) = some reset ∧
      parseConfig (Files.empty.write fileExtensionsConf dialPlanText) ≠
        some { prefixEnable := 1, dialPrefix := 155 } := by
  have parsed : parseConfig (Files.empty.write fileExtensionsConf dialPlanText) = some reset := by
    rw [parseConfig_eq_foldl (Files.openRead_write_self _ rfl) (by decide)]
    decide
  refine ⟨by decide, parsed, ?_⟩
  rw [parsed]
  decide

end Libamg.Extensions
