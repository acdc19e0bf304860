import Libamg.Config.SipParse
import Mathlib.Order.Bounds.Basic

/-!
# The shortest packetization interval

`libamg_sip_get_min_codec_intvl` looks every allowed codec up in an array of 18
elements. The bound of its inner loop is the size of that array in bytes, so the first
codec takes it behind the array.
-/

namespace Libamg.Sip

open C
open Comcerto (CodecsIntvl)

/-- The array that `__get_codecs_intvl_array` fills, a code before each interval. -/
def codecsIntvlArray (intervals : CodecsIntvl) : Vector Int32 18 :=
  #v[codecG711ACod, intervals.g711_a, codecG711UCod, intervals.g711_u,
    codecG723_1Cod, intervals.g723_1, codecG726_16KbpsCod, intervals.g726_16,
    codecG726_24KbpsCod, intervals.g726_24, codecG726_32KbpsCod, intervals.g726_32,
    codecG726_40KbpsCod, intervals.g726_40, codecG729Cod, intervals.g729,
    codecGsmCod, intervals.gsm]

/-- The values that `j` takes: `sizeof` counts the bytes of 18 elements of four each. -/
def innerIndices : List Nat := (List.range 36).map (2 * ·)

/-- The body of the inner loop. The minimum 0 says that no codec was found yet. -/
def minStep (table : Vector Int32 18) (code minCodecIntvl : Int32) (j : Nat) : Checked Int32 := do
  let listed ← element table j
  if code = listed then do
    let intvl ← element table (j + 1)
    if minCodecIntvl = 0 then return intvl
    else if minCodecIntvl > intvl then return intvl
    else return minCodecIntvl
  else return minCodecIntvl

/-- The body of the outer loop. -/
def allowStep (table : Vector Int32 18) (minCodecIntvl code : Int32) : Checked Int32 :=
  if code = 0 then .ok minCodecIntvl
  else innerIndices.foldlM (minStep table code) minCodecIntvl

/-- `libamg_sip_get_min_codec_intvl`. -/
def getMinCodecIntvl (charSigned : Bool) (files : Files) : Checked Int32 := do
  let sipConfig ← parseConfig charSigned files
  let config ← deref (Comcerto.parseConfig files)
  let table := codecsIntvlArray config.codecsIntvl
  let sipConfig ← deref sipConfig
  sipConfig.account.allow.toList.foldlM (allowStep table) 0

/-! ## Behind the array -/

variable {table : Vector Int32 18} {code : Int32}

theorem minStep_onlyFaults (minimum : Int32) (j : Nat) :
    (minStep table code minimum j).OnlyFaults .outOfBounds := by
  refine .bind (element_onlyFaults table j) fun listed => ?_
  refine .ite (.bind (element_onlyFaults table (j + 1)) fun intvl => ?_) .ok
  exact .ite .ok (.ite .ok .ok)

/-- The tenth turn of the inner loop reads behind the array. -/
theorem minStep_overruns (minimum : Int32) :
    minStep table code minimum 18 = .error .outOfBounds := rfl

theorem innerLoop_overruns (minimum : Int32) :
    innerIndices.foldlM (minStep table code) minimum = .error .outOfBounds :=
  Checked.foldlM_faults minStep_onlyFaults minStep_overruns (by decide) minimum

theorem allowStep_onlyFaults (minimum code : Int32) :
    (allowStep table minimum code).OnlyFaults .outOfBounds :=
  .ite .ok (.foldlM minStep_onlyFaults)

/-- One codec is enough. -/
theorem allowLoop_overruns {allow : List Int32} (listed : code ∈ allow) (nonzero : code ≠ 0) :
    allow.foldlM (allowStep table) 0 = .error .outOfBounds := by
  have overruns : ∀ minimum, allowStep table minimum code = .error .outOfBounds := by
    intro minimum
    rw [allowStep, if_neg nonzero]
    exact innerLoop_overruns minimum
  exact Checked.foldlM_faults allowStep_onlyFaults overruns listed 0

theorem allowLoop_empty {allow : List Int32} (empty : ∀ code ∈ allow, code = 0) :
    allow.foldlM (allowStep table) 0 = .ok 0 := by
  induction allow with
  | nil => rfl
  | cons code allow inductionHypothesis =>
      obtain ⟨zero, rest⟩ := List.forall_mem_cons.mp empty
      rw [List.foldlM_cons, allowStep, if_pos zero]
      exact inductionHypothesis rest

/-! ## The minimum -/

/-- The interval that is reported for every codec that is allowed. -/
def allowedIntervals (files : Files) (allow : Vector Int32 9) : List Int32 :=
  (allow.toList.filter (· ∈ codecCodes)).map (Comcerto.getCodecPacketizationInterval files)

/-- The least interval, or 0 when there is none. -/
def IsMinimum (intervals : List Int32) (result : Int32) : Prop :=
  (intervals = [] ∧ result = 0) ∨ IsLeast {interval | interval ∈ intervals} result

/-- The minimum is returned, and again for every order of the same codecs. -/
structure ReturnsMinimum (charSigned : Bool) (files : Files) (allow : Vector Int32 9) : Prop where
  minimum : ∃ result, getMinCodecIntvl charSigned files = .ok result ∧
    IsMinimum (allowedIntervals files allow) result
  orderFree : ∀ (other : Files) (conf : SipConfig),
    parseConfig charSigned other = .ok (some conf) →
    Comcerto.parseConfig other = Comcerto.parseConfig files →
    conf.account.allow.toList.Perm allow.toList →
      getMinCodecIntvl charSigned other = getMinCodecIntvl charSigned files

section Parsed

variable {charSigned : Bool} {files : Files} {conf : SipConfig} {config : Comcerto.ComcertoConfig}

theorem getMinCodecIntvl_eq (parsed : parseConfig charSigned files = .ok (some conf))
    (configured : Comcerto.parseConfig files = some config) :
    getMinCodecIntvl charSigned files =
      conf.account.allow.toList.foldlM (allowStep (codecsIntvlArray config.codecsIntvl)) 0 := by
  rw [getMinCodecIntvl, parsed, configured]
  rfl

/-- The minimum is found exactly if there is no codec to find one for. -/
theorem returnsMinimum_iff (parsed : parseConfig charSigned files = .ok (some conf))
    (configured : Comcerto.parseConfig files = some config) :
    ReturnsMinimum charSigned files conf.account.allow ↔
      ∀ code ∈ conf.account.allow.toList, code = 0 := by
  have result := getMinCodecIntvl_eq parsed configured
  constructor
  · rintro ⟨⟨minimum, returned, -⟩, -⟩ code listed
    by_contra nonzero
    rw [result, allowLoop_overruns listed nonzero] at returned
    cases returned
  · intro empty
    have zero : getMinCodecIntvl charSigned files = .ok 0 := result.trans (allowLoop_empty empty)
    have noInterval : allowedIntervals files conf.account.allow = [] := by
      rw [allowedIntervals, List.map_eq_nil_iff, List.filter_eq_nil_iff]
      intro code listed
      rw [empty code listed]
      decide
    refine ⟨⟨0, zero, .inl ⟨noInterval, rfl⟩⟩, ?_⟩
    intro other conf' parsed' same permuted
    have empty' : ∀ code ∈ conf'.account.allow.toList, code = 0 :=
      fun code listed => empty code (permuted.mem_iff.mp listed)
    rw [getMinCodecIntvl_eq parsed' (same.trans configured), allowLoop_empty empty', zero]

end Parsed

/-- A `sip.conf` without a codec, and a `comcerto.conf` with one interval. -/
def noCodec : Files :=
  (Files.empty.write fileSipConf (lit "bindport=5060\n")).write Comcerto.fileComcertoConf
    (lit "codec_intvl_gsm=20\n")

theorem returnsMinimum_iff_witness :
    ReturnsMinimum true noCodec { SipConfig.zero with bindport := 5060 }.account.allow ↔
      ∀ code ∈ { SipConfig.zero with bindport := 5060 }.account.allow.toList, code = 0 := by
  have parsed : parseConfig true noCodec = .ok (some { SipConfig.zero with bindport := 5060 }) := rfl
  exact returnsMinimum_iff parsed rfl

/-- One codec in each of the two files. -/
def oneCodec : Files :=
  (Files.empty.write fileSipConf (lit "allow=gsm\n")).write Comcerto.fileComcertoConf
    (lit "codec_intvl_gsm=20\n")

/-- The only codec sends the inner loop behind the array. -/
theorem oneCodec_overruns :
    getMinCodecIntvl true oneCodec = .error .outOfBounds ∧
      ¬ ReturnsMinimum true oneCodec (padded [codecGsmCod]) := by
  have parsed : parseConfig true oneCodec =
      .ok (some { SipConfig.zero with account.allow := padded [codecGsmCod] }) := rfl
  have configured : Comcerto.parseConfig oneCodec =
      some { Comcerto.ComcertoConfig.zero with codecsIntvl.gsm := 20 } := rfl
  have listed : codecGsmCod ∈ (padded [codecGsmCod]).toList := by decide
  have overrun : getMinCodecIntvl true oneCodec = .error .outOfBounds :=
    (getMinCodecIntvl_eq parsed configured).trans (allowLoop_overruns listed (by decide))
  refine ⟨overrun, ?_⟩
  rintro ⟨⟨minimum, returned, -⟩, -⟩
  rw [overrun] at returned
  cases returned

end Libamg.Sip
