import Libamg.C.Bytes
import Libamg.C.LongestPrefix

/-!
# Codec codes and names

The codec table of `sip.h` with the lookups of `sip.c` and `comcerto.c`. A lookup
that returns NULL is `none`; printed with `%s`, NULL appears as `(null)`.
-/

namespace Libamg

open C

def codecG711ACod : Int32 := 0x100
def codecG711UCod : Int32 := 0x80
def codecG723_1Cod : Int32 := 0x40
def codecG726_16KbpsCod : Int32 := 0x20
def codecG726_24KbpsCod : Int32 := 0x10
def codecG726_32KbpsCod : Int32 := 0x8
def codecG726_40KbpsCod : Int32 := 0x4
def codecG729Cod : Int32 := 0x2
def codecGsmCod : Int32 := 0x1

def codecG711AName : Text := lit "alaw"
def codecG711UName : Text := lit "ulaw"
def codecG723_1Name : Text := lit "g723"
def codecG726_16KbpsName : Text := lit "g726-16"
def codecG726_24KbpsName : Text := lit "g726-24"
def codecG726_32KbpsName : Text := lit "g726"
def codecG726_40KbpsName : Text := lit "g726-40"
def codecG729Name : Text := lit "g729"
def codecGsmName : Text := lit "gsm"

/-- `!strncmp(text, name, strlen(name))`. -/
def startsWith (text name : Text) : Bool := name.isPrefixOf text

/-- The text that `%s` prints for a `char *` that may be NULL. -/
def printName (name : Option Text) : Text := name.getD (lit "(null)")

namespace Sip

/-- `libamg_sip_get_codec_code`. -/
def getCodecCode (codecName : Text) : Int32 :=
  if startsWith codecName codecG711AName then codecG711ACod
  else if startsWith codecName codecG711UName then codecG711UCod
  else if startsWith codecName codecG723_1Name then codecG723_1Cod
  else if startsWith codecName codecG726_16KbpsName then codecG726_16KbpsCod
  else if startsWith codecName codecG726_24KbpsName then codecG726_24KbpsCod
  else if startsWith codecName codecG726_40KbpsName then codecG726_40KbpsCod
  else if startsWith codecName codecG726_32KbpsName then codecG726_32KbpsCod
  else if startsWith codecName codecG729Name then codecG729Cod
  else if startsWith codecName codecGsmName then codecGsmCod
  else -1

/-- `libamg_sip_get_codec_name`. -/
def getCodecName (codecCode : Int32) : Option Text :=
  if codecCode = codecG711ACod then some codecG711AName
  else if codecCode = codecG711UCod then some codecG711UName
  else if codecCode = codecG723_1Cod then some codecG723_1Name
  else if codecCode = codecG726_16KbpsCod then some codecG726_16KbpsName
  else if codecCode = codecG726_24KbpsCod then some codecG726_24KbpsName
  else if codecCode = codecG726_32KbpsCod then some codecG726_32KbpsName
  else if codecCode = codecG726_40KbpsCod then some codecG726_40KbpsName
  else if codecCode = codecG729Cod then some codecG729Name
  else if codecCode = codecGsmCod then some codecGsmName
  else none

/-- The nine codec codes, in the order of `sip.h`. -/
def codecCodes : List Int32 :=
  [codecG711ACod, codecG711UCod, codecG723_1Cod, codecG726_16KbpsCod, codecG726_24KbpsCod,
    codecG726_32KbpsCod, codecG726_40KbpsCod, codecG729Cod, codecGsmCod]

theorem getCodecName_eq_none {code : Int32} (unknown : code ∉ codecCodes) :
    getCodecName code = none := by
  simp only [codecCodes, List.mem_cons, List.not_mem_nil, or_false, not_or] at unknown
  simp only [getCodecName, unknown, ↓reduceIte]

/-- A codec name followed by a colon is recognised as its own codec, although one
name is the beginning of three others. -/
theorem getCodecCode_name {code : Int32} (known : code ∈ codecCodes) (interval : Text) :
    getCodecCode (printName (getCodecName code) ++ 58 :: interval) = code := by
  simp only [codecCodes, List.mem_cons, List.not_mem_nil, or_false] at known
  rcases known with rfl | rfl | rfl | rfl | rfl | rfl | rfl | rfl | rfl <;> rfl

/-- The names of the codecs with their codes, in the order of `sip.h`. -/
def codecTable : List (Text × Int32) :=
  [(codecG711AName, codecG711ACod), (codecG711UName, codecG711UCod),
    (codecG723_1Name, codecG723_1Cod), (codecG726_16KbpsName, codecG726_16KbpsCod),
    (codecG726_24KbpsName, codecG726_24KbpsCod), (codecG726_32KbpsName, codecG726_32KbpsCod),
    (codecG726_40KbpsName, codecG726_40KbpsCod), (codecG729Name, codecG729Cod),
    (codecGsmName, codecGsmCod)]

/-- The same in the order in which the names are tested. -/
def codecTests : List (Text × Int32) :=
  [(codecG711AName, codecG711ACod), (codecG711UName, codecG711UCod),
    (codecG723_1Name, codecG723_1Cod), (codecG726_16KbpsName, codecG726_16KbpsCod),
    (codecG726_24KbpsName, codecG726_24KbpsCod), (codecG726_40KbpsName, codecG726_40KbpsCod),
    (codecG726_32KbpsName, codecG726_32KbpsCod), (codecG729Name, codecG729Cod),
    (codecGsmName, codecGsmCod)]

/-- The name that begins three others is tested behind them. -/
theorem codecTests_longFirst : LongFirst codecTests := by decide

theorem mem_codecTests_iff (entry : Text × Int32) : entry ∈ codecTests ↔ entry ∈ codecTable := by
  simp only [codecTests, codecTable, List.mem_cons]
  tauto

theorem startsWith_eq (text name : Text) : startsWith text name = decide (name <+: text) := by
  rw [startsWith, Bool.eq_iff_iff, List.isPrefixOf_iff_prefix, decide_eq_true_iff]

/-- The first seven characters decide. -/
theorem getCodecCode_take (text : Text) {count : Nat} (enough : 7 ≤ count) :
    getCodecCode (text.take count) = getCodecCode text := by
  have same {name : Text} (short : name.length ≤ 7) :
      startsWith (text.take count) name = startsWith text name := by
    have fits : name.length ≤ count := Nat.le_trans short enough
    simp only [startsWith_eq, List.prefix_take_iff, fits, and_true]
  unfold getCodecCode
  rw [same (by decide), same (by decide), same (by decide), same (by decide), same (by decide),
    same (by decide), same (by decide), same (by decide), same (by decide)]

/-- The chain of tests is a walk through the table. -/
theorem getCodecCode_eq_firstValue (codecName : Text) :
    getCodecCode codecName = firstValue (-1) codecTests codecName := by
  simp only [getCodecCode, startsWith_eq, decide_eq_true_iff, codecTests, firstValue_cons,
    firstValue_nil]

theorem getCodecName_of_mem {name : Text} {code : Int32} (listed : (name, code) ∈ codecTable) :
    getCodecName code = some name := by
  have all : ∀ entry ∈ codecTable, getCodecName entry.2 = some entry.1 :=
    forall_mem_of_all (by decide)
  exact all (name, code) listed

/-- The table has all codes. -/
theorem exists_mem_codecTable {code : Int32} (known : code ∈ codecCodes) :
    ∃ name, (name, code) ∈ codecTable := by
  have codes : codecTable.map Prod.snd = codecCodes := rfl
  rw [← codes] at known
  obtain ⟨⟨name, _⟩, listed, rfl⟩ := List.mem_map.mp known
  exact ⟨name, listed⟩

theorem getCodecCode_ne_zero (codecName : Text) : getCodecCode codecName ≠ 0 := by
  unfold getCodecCode
  split_ifs <;> decide

/-- The code found is the one of the longest name. -/
theorem getCodecCode_of_isLongest {text : Text} {entry : Text × Int32}
    (isLongest : IsLongest codecTable text entry) : getCodecCode text = entry.2 := by
  rw [getCodecCode_eq_firstValue]
  exact (isLongest.of_mem_iff mem_codecTests_iff).firstValue_eq codecTests_longFirst (-1)

/-- Recognising a codec is finding the longest name; a name that is found in front of a colon
is found again whatever stands behind the colon. -/
theorem getCodecCode_longest (text : Text) :
    ((∃ entry, IsLongest codecTable text entry ∧ getCodecCode text = entry.2) ∨
      (∀ entry ∈ codecTable, ¬ entry.1 <+: text) ∧ getCodecCode text = -1) ∧
    ∀ code ∈ codecCodes, ∃ name, getCodecName code = some name ∧
      ∀ suffix, getCodecCode (name ++ 58 :: suffix) = code := by
  constructor
  · rcases firstPrefix_cases codecTests_longFirst text with ⟨entry, _, isLongest⟩ | ⟨_, none⟩
    · have inTable := isLongest.of_mem_iff fun entry => (mem_codecTests_iff entry).symm
      exact .inl ⟨entry, inTable, getCodecCode_of_isLongest inTable⟩
    · refine .inr ⟨fun entry listed => none entry ((mem_codecTests_iff entry).mpr listed), ?_⟩
      rw [getCodecCode_eq_firstValue]
      exact firstValue_of_none none
  · intro code known
    obtain ⟨name, listed⟩ := exists_mem_codecTable known
    refine ⟨name, getCodecName_of_mem listed, fun suffix => ?_⟩
    have absent : ∀ entry ∈ codecTable, 58 ∉ entry.1 := forall_mem_of_all (by decide)
    exact getCodecCode_of_isLongest (isLongest_append listed absent suffix)

/-- The placeholder printed for an unknown code is recognised as no codec. -/
theorem getCodecCode_null (interval : Text) :
    getCodecCode (printName none ++ 58 :: interval) = -1 := rfl

/-- What holds of the nine names and of the placeholder holds of whatever is printed. -/
theorem forall_codecName {P : Text → Prop}
    (known : ∀ code ∈ codecCodes, P (printName (getCodecName code))) (unknown : P (printName none))
    (code : Int32) : P (printName (getCodecName code)) := by
  by_cases listed : code ∈ codecCodes
  · exact known code listed
  · rw [getCodecName_eq_none listed]
    exact unknown

theorem getCodecName_isWord (code : Int32) : IsWord (printName (getCodecName code)) :=
  forall_codecName (forall_mem_of_all (by decide)) (by decide) code

theorem getCodecName_length_le (code : Int32) : (printName (getCodecName code)).length ≤ 7 := by
  apply @forall_codecName fun name => name.length ≤ 7
  · exact forall_mem_of_all (by decide)
  · decide

end Sip

namespace Comcerto

/-- `libamg_comcerto_get_codec_passthrough_code`. -/
def getCodecPassthroughCode (codecName : Text) : Int32 :=
  if codecName = codecG711AName then codecG711ACod
  else if codecName = codecG711UName then codecG711UCod
  else 0

/-- `libamg_comcerto_get_codec_passthrough_name`. -/
def getCodecPassthroughName (codecCode : Int32) : Option Text :=
  if codecCode = codecG711ACod then some codecG711AName
  else if codecCode = codecG711UCod then some codecG711UName
  else none

/-- Code and name of the pass-through codecs undo each other; any other code is
read back as 0. -/
theorem getCodecPassthroughCode_name (code : Int32) :
    getCodecPassthroughCode (printName (getCodecPassthroughName code)) =
      if code = codecG711ACod ∨ code = codecG711UCod then code else 0 := by
  unfold getCodecPassthroughName
  by_cases alaw : code = codecG711ACod
  · rw [if_pos alaw, if_pos (.inl alaw), alaw]
    rfl
  · by_cases ulaw : code = codecG711UCod
    · rw [if_neg alaw, if_pos ulaw, if_pos (.inr ulaw), ulaw]
      rfl
    · rw [if_neg alaw, if_neg ulaw, if_neg (by simp [alaw, ulaw])]
      rfl

end Comcerto
end Libamg
