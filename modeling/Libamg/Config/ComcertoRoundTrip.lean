import Libamg.Config.ComcertoSave

/-!
# Saving and parsing comcerto.conf

`norm` is the configuration that a save of `conf` means: flags become 0 or 1, numbers
printed with `%hd` keep their low 16 bits and the jitter buffer is on. Parsing after
a save gives `norm conf`, and a save of `norm conf` writes the same text again.
-/

namespace Libamg.Comcerto

open C

/-- The normal form of a configuration under saving and parsing. -/
def ComcertoConfig.norm (conf : ComcertoConfig) : ComcertoConfig where
  debug := conf.debug
  codecG723_1 := truth conf.codecG723_1
  passThrough := conf.passThrough
  aisEnable := truth conf.aisEnable
  vadEnable := truth conf.vadEnable
  vadLevel := lowShort conf.vadLevel
  cngEnable := truth conf.cngEnable
  echocanEnable := truth conf.echocanEnable
  ectail := lowShort conf.ectail
  txgain := lowShort conf.txgain
  rxgain := lowShort conf.rxgain
  e1Enable := truth conf.e1Enable
  e1LoopbackEnable := truth conf.e1LoopbackEnable
  mfcr2ToneAmp := conf.mfcr2ToneAmp
  jbConf := conf.jbConf.reread
  codecsIntvl := conf.codecsIntvl.reread

/-- The pass-through settings that have a name in the file, or no line at all. -/
def KnownPassThrough (code : Int32) : Prop :=
  code = 0 ∨ code = codecG711ACod ∨ code = codecG711UCod

instance (code : Int32) : Decidable (KnownPassThrough code) :=
  inferInstanceAs (Decidable (_ ∨ _ ∨ _))

theorem ComcertoConfig.reread_eq_norm {conf : ComcertoConfig}
    (known : KnownPassThrough conf.passThrough) : conf.reread = conf.norm := by
  have passThrough : conf.reread.passThrough = conf.passThrough := by
    rw [ComcertoConfig.reread]
    rcases known with off | named
    · simp only [off, ite_self]
    · exact if_pos named
  calc conf.reread = { conf.reread with passThrough := conf.passThrough } := by rw [← passThrough]
    _ = conf.norm := rfl

/-! ## The normal form is reached at once -/

@[simp] theorem lowShort_lowShort (n : Int32) : lowShort (lowShort n) = lowShort n := by
  rw [lowShort, lowShort, Int16.toInt16_toInt32]

@[simp] theorem JbConfig.reread_reread (jbConf : JbConfig) :
    jbConf.reread.reread = jbConf.reread := by
  simp only [JbConfig.reread, lowShort_lowShort, truth_truth]

@[simp] theorem CodecsIntvl.reread_reread (intervals : CodecsIntvl) :
    intervals.reread.reread = intervals.reread := by
  simp only [CodecsIntvl.reread, lowShort_lowShort]

theorem ComcertoConfig.norm_norm (conf : ComcertoConfig) : conf.norm.norm = conf.norm := by
  simp only [ComcertoConfig.norm, lowShort_lowShort, truth_truth, JbConfig.reread_reread,
    CodecsIntvl.reread_reread]

theorem choose_truth (flag : Int32) (onTrue onFalse : String) :
    choose (truth flag) onTrue onFalse = choose flag onTrue onFalse := by
  by_cases on : flag ≠ 0
  · rw [truth, if_pos on, choose, choose, if_pos on]
    rfl
  · rw [truth, if_neg on, choose, choose, if_neg on]
    rfl

theorem saveText_norm (conf : ComcertoConfig) : saveText conf.norm = saveText conf := by
  simp only [saveText, ComcertoConfig.norm, JbConfig.reread, CodecsIntvl.reread, yesNo_truth,
    choose_truth, printShort_lowShort]
  rfl

/-! ## What a save leaves in the file -/

/-- A save of `sip.conf` leaves every other file alone. -/
theorem openRead_of_sipSave {charSigned : Bool} {files after : Files} {sip stripped : Sip.SipConfig}
    {status : Int32} {path : Path} (different : path ≠ Sip.fileSipConf)
    (saved : Sip.saveConfig charSigned files sip = .ok (status, stripped, after)) :
    after.openRead path = files.openRead path := by
  unfold Sip.saveConfig at saved
  split at saved
  · obtain ⟨conf, -, printing⟩ := Checked.bind_eq_ok saved
    obtain ⟨text, -, written⟩ := Checked.bind_eq_ok printing
    cases written
    exact Files.openRead_write_of_ne files text different
  · cases saved
    rfl

/-- Whatever becomes of `sip.conf`, a save that returns leaves the printed text. -/
theorem openRead_of_save {charSigned : Bool} {files after : Files} {conf : ComcertoConfig}
    {status : Int32} (openable : files.Openable fileComcertoConf)
    (saved : saveConfig charSigned files conf = .ok (status, after)) :
    after.openRead fileComcertoConf = some (saveText conf) := by
  have different : fileComcertoConf ≠ Sip.fileSipConf := by decide
  rw [saveConfig, if_pos openable.2] at saved
  obtain ⟨found, -, saving⟩ := Checked.bind_eq_ok saved
  cases found with
  | none => cases saving
  | some sipConf =>
      obtain ⟨⟨sipStatus, stripped, last⟩, rewritten, returned⟩ := Checked.bind_eq_ok saving
      cases returned
      rw [openRead_of_sipSave different rewritten]
      exact Files.openRead_write_self (saveText conf) openable.1

theorem parseConfig_of_openRead {files : Files} {conf : ComcertoConfig}
    (known : KnownPassThrough conf.passThrough)
    (opened : files.openRead fileComcertoConf = some (saveText conf)) :
    parseConfig files = some conf.norm := by
  rw [parseConfig, opened, Option.map_some, parseLines_saveText,
    ComcertoConfig.reread_eq_norm known]

/-- Parsing undoes saving up to `norm`: of the text that a save writes, also after the
save has gone on to `sip.conf`. The normal form is its own, and saving it changes
nothing in the file. -/
theorem parseConfig_norm (charSigned : Bool) {files : Files} {conf : ComcertoConfig}
    (openable : files.Openable fileComcertoConf) (known : KnownPassThrough conf.passThrough) :
    parseConfig (files.write fileComcertoConf (saveText conf)) = some conf.norm ∧
      (∀ status after, saveConfig charSigned files conf = .ok (status, after) →
        after.openRead fileComcertoConf = some (saveText conf) ∧
          parseConfig after = some conf.norm) ∧
      conf.norm.norm = conf.norm ∧ saveText conf.norm = saveText conf := by
  refine ⟨?_, ?_, conf.norm_norm, saveText_norm conf⟩
  · exact parseConfig_of_openRead known (Files.openRead_write_self _ openable.1)
  · intro status after saved
    have opened := openRead_of_save openable saved
    exact ⟨opened, parseConfig_of_openRead known opened⟩

/-- A configuration outside the range of `%hd` and with a negative flag. -/
def unusualComcerto : ComcertoConfig :=
  { sampleComcerto with passThrough := codecG711ACod, vadEnable := -3, vadLevel := 70000 }

theorem parseConfig_norm_witness :
    parseConfig (Files.empty.write fileComcertoConf (saveText unusualComcerto)) =
      some unusualComcerto.norm ∧
      unusualComcerto.norm.vadEnable = 1 ∧ unusualComcerto.norm.vadLevel = 4464 :=
  ⟨(parseConfig_norm true (by decide) (by decide)).1, by decide, by decide⟩

end Libamg.Comcerto
