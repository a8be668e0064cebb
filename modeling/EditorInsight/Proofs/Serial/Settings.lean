import EditorInsight.Proofs.Json.Codec
import EditorInsight.Serial.Settings

/-!
# Settings as documents

What settings may be written as: any setting may be left out if it has its default, and so may a
whole group of them.

* `LintSettings.Members`, `AnalysisSettings.Members` and `Settings.Members` are the forms, member by
  member.
* `LintSettings.codec`, `AnalysisSettings.codec` and `Settings.codec`.
-/

namespace EditorInsight.Config

open Json

namespace LintSettings

/-- The members of the settings of the linter. A missing file may also be `null`. -/
structure Members (l : LintSettings) (ms : List (String × Value)) : Prop where
  enabled : Codec.bool.SaysOr ({} : LintSettings).enabled "enabled" ms l.enabled
  rcfile : Codec.text.SaysOptional "rcfile" ms (l.rcfile.map Path.text)
  extraArgs : Codec.text.list.SaysOr ({} : LintSettings).extraArgs "extraArgs" ms l.extraArgs
  quietInterval :
    Codec.word.SaysOr ({} : LintSettings).quietInterval "quietIntervalMs" ms l.quietInterval

theorem ofJson?_of_members {l : LintSettings} {ms : List (String × Value)}
    (hfits : l.quietInterval < wordSize) (h : l.Members ms) : ofJson? (.object ms) = some l := by
  have henabled : (Value.found "enabled" ms).withDefault true Value.bool? = some l.enabled :=
    h.enabled.withDefault trivial
  have hrcfile : (Value.found "rcfile" ms).withDefault none (Value.nullable? Value.text?)
      = some (l.rcfile.map Path.text) :=
    h.rcfile.withDefault fun _ _ => trivial
  have hextraArgs : (Value.found "extraArgs" ms).withDefault [] (Value.list? Value.text?)
      = some l.extraArgs :=
    h.extraArgs.withDefault fun _ _ => trivial
  have hquietInterval : (Value.found "quietIntervalMs" ms).withDefault 5000 Value.word?
      = some l.quietInterval :=
    h.quietInterval.withDefault hfits
  have hpath : (l.rcfile.map Path.text).map Path.mk = l.rcfile := by
    cases l.rcfile <;> rfl
  rw [ofJson?, fieldNames, Value.fields?_object (by
    simp [h.enabled.once, h.rcfile.once, h.extraArgs.once, h.quietInterval.once])]
  simp only [List.map_cons, List.map_nil, Option.bind_eq_bind, Option.bind_some, Option.map_none,
    henabled, hrcfile, hextraArgs, hquietInterval, hpath]
  rfl

theorem fits_of_ofJson? {l : LintSettings} {v : Value} (h : ofJson? v = some l) :
    l.quietInterval < wordSize := by
  obtain ⟨fields, -, h⟩ := Option.bind_eq_some_iff.mp h
  split at h
  · obtain ⟨rcfile, -, h⟩ := Option.bind_eq_some_iff.mp h
    obtain ⟨enabled, -, h⟩ := Option.bind_eq_some_iff.mp h
    obtain ⟨extraArgs, -, h⟩ := Option.bind_eq_some_iff.mp h
    obtain ⟨quietInterval, hquietInterval, h⟩ := Option.bind_eq_some_iff.mp h
    cases h
    have hdefault : Codec.word.Fits 5000 := show 5000 < wordSize by decide
    exact Codec.word.fits_of_withDefault hdefault hquietInterval
  · cases h

/-- Settings of the linter. -/
def codec : Codec LintSettings where
  toJson := toJson
  ofJson? := ofJson?
  Fits l := l.quietInterval < wordSize
  Writes := Codec.IsObject Members
  writes_toJson l := by
    obtain ⟨enabled, rcfile, extraArgs, quietInterval⟩ := l
    refine ⟨_, rfl, {
      enabled := Or.inl (Codec.says_of_valuesOf ?_)
      rcfile := Codec.saysOptional_of_omitted ?_
      extraArgs := ?_
      quietInterval := Or.inl (Codec.says_of_valuesOf ?_) }⟩
    · cases rcfile <;> cases extraArgs <;> simp
    · cases rcfile <;> cases extraArgs <;> simp
    · -- an empty list is left out
      cases extraArgs with
      | nil => exact Or.inr ⟨rfl, by cases rcfile <;> simp⟩
      | cons arg args => exact Or.inl (Codec.says_of_valuesOf (by cases rcfile <;> simp))
    · cases rcfile <;> cases extraArgs <;> simp
  isWritable_toJson {l} hfits := by
    have hargs : (Value.array (l.extraArgs.map .string)).isWritable = true :=
      Codec.text.list.isWritable_toJson fun _ _ => trivial
    have hbool : (Value.bool l.enabled).isWritable = true := rfl
    cases hrcfile : l.rcfile <;> by_cases hempty : l.extraArgs = [] <;>
      simp [toJson, Value.isWritable_object, hbool, hargs, hrcfile, hempty,
        Value.isWritable_nat hfits]
  ofJson?_of_writes hfits h := h.read fun _ => ofJson?_of_members hfits
  fits_of_ofJson? := fits_of_ofJson?
  ofJson?_null := rfl

@[simp] theorem codec_toJson : codec.toJson = toJson := rfl

end LintSettings

namespace AnalysisSettings

/-- The members of the settings of the analysis engine. -/
structure Members (a : AnalysisSettings) (ms : List (String × Value)) : Prop where
  cache : Codec.bool.SaysOr ({} : AnalysisSettings).cache "cache" ms a.cache
  timeout : Codec.word.SaysOr ({} : AnalysisSettings).timeout "timeoutMs" ms a.timeout

theorem ofJson?_of_members {a : AnalysisSettings} {ms : List (String × Value)}
    (hfits : a.timeout < wordSize) (h : a.Members ms) : ofJson? (.object ms) = some a := by
  have hcache : (Value.found "cache" ms).withDefault false Value.bool? = some a.cache :=
    h.cache.withDefault trivial
  have htimeout : (Value.found "timeoutMs" ms).withDefault 10000 Value.word? = some a.timeout :=
    h.timeout.withDefault hfits
  rw [ofJson?, fieldNames, Value.fields?_object (by simp [h.cache.once, h.timeout.once])]
  simp only [List.map_cons, List.map_nil, Option.bind_eq_bind, Option.bind_some, hcache, htimeout]
  rfl

theorem fits_of_ofJson? {a : AnalysisSettings} {v : Value} (h : ofJson? v = some a) :
    a.timeout < wordSize := by
  obtain ⟨fields, -, h⟩ := Option.bind_eq_some_iff.mp h
  split at h
  · obtain ⟨cache, -, h⟩ := Option.bind_eq_some_iff.mp h
    obtain ⟨timeout, htimeout, h⟩ := Option.bind_eq_some_iff.mp h
    cases h
    have hdefault : Codec.word.Fits 10000 := show 10000 < wordSize by decide
    exact Codec.word.fits_of_withDefault hdefault htimeout
  · cases h

/-- Settings of the analysis engine. -/
def codec : Codec AnalysisSettings where
  toJson := toJson
  ofJson? := ofJson?
  Fits a := a.timeout < wordSize
  Writes := Codec.IsObject Members
  writes_toJson a := ⟨_, rfl, {
    cache := Or.inl (Codec.says_of_valuesOf (by simp))
    timeout := Or.inl (Codec.says_of_valuesOf (by simp)) }⟩
  isWritable_toJson {a} hfits := by
    have hbool : (Value.bool a.cache).isWritable = true := rfl
    simp [toJson, Value.isWritable_object, hbool, Value.isWritable_nat hfits]
  ofJson?_of_writes hfits h := h.read fun _ => ofJson?_of_members hfits
  fits_of_ofJson? := fits_of_ofJson?
  ofJson?_null := rfl

@[simp] theorem codec_toJson : codec.toJson = toJson := rfl

end AnalysisSettings

namespace Settings

/-- The members of settings. -/
structure Members (c : Settings) (ms : List (String × Value)) : Prop where
  interpreter :
    Codec.text.SaysOr ({} : Settings).interpreter.text "interpreter" ms c.interpreter.text
  lint : LintSettings.codec.SaysOr {} "lint" ms c.lint
  analysis : AnalysisSettings.codec.SaysOr {} "analysis" ms c.analysis

/-- Whether both numbers are machine words. -/
structure Fits (c : Settings) : Prop where
  quietInterval : c.lint.quietInterval < wordSize
  timeout : c.analysis.timeout < wordSize

theorem ofJson?_of_members {c : Settings} {ms : List (String × Value)} (hfits : c.Fits)
    (h : c.Members ms) : ofJson? (.object ms) = some c := by
  have hinterpreter : (Value.found "interpreter" ms).withDefault "python3" Value.text?
      = some c.interpreter.text :=
    h.interpreter.withDefault trivial
  have hlint : (Value.found "lint" ms).withDefault {} LintSettings.ofJson? = some c.lint :=
    h.lint.withDefault hfits.quietInterval
  have hanalysis : (Value.found "analysis" ms).withDefault {} AnalysisSettings.ofJson?
      = some c.analysis :=
    h.analysis.withDefault hfits.timeout
  rw [ofJson?, fieldNames, Value.fields?_object (by
    simp [h.interpreter.once, h.lint.once, h.analysis.once])]
  simp only [List.map_cons, List.map_nil, Option.bind_eq_bind, Option.bind_some, hinterpreter,
    hlint, hanalysis]
  rfl

theorem fits_of_ofJson? {c : Settings} {v : Value} (h : ofJson? v = some c) : c.Fits := by
  obtain ⟨fields, -, h⟩ := Option.bind_eq_some_iff.mp h
  split at h
  · obtain ⟨interpreter, -, h⟩ := Option.bind_eq_some_iff.mp h
    obtain ⟨lint, hlint, h⟩ := Option.bind_eq_some_iff.mp h
    obtain ⟨analysis, hanalysis, h⟩ := Option.bind_eq_some_iff.mp h
    cases h
    have hlintDefault : LintSettings.codec.Fits {} := show 5000 < wordSize by decide
    have hanalysisDefault : AnalysisSettings.codec.Fits {} := show 10000 < wordSize by decide
    exact ⟨LintSettings.codec.fits_of_withDefault hlintDefault hlint,
      AnalysisSettings.codec.fits_of_withDefault hanalysisDefault hanalysis⟩
  · cases h

/-- Settings. -/
def codec : Codec Settings where
  toJson := toJson
  ofJson? := ofJson?
  Fits := Fits
  Writes := Codec.IsObject Members
  writes_toJson c := ⟨_, rfl, {
    interpreter := Or.inl (Codec.says_of_valuesOf (by simp))
    lint := Or.inl (Codec.says_of_valuesOf (by simp))
    analysis := Or.inl (Codec.says_of_valuesOf (by simp)) }⟩
  isWritable_toJson {c} hfits := by
    have hlint : c.lint.toJson.isWritable = true :=
      LintSettings.codec.isWritable_toJson hfits.quietInterval
    have hanalysis : c.analysis.toJson.isWritable = true :=
      AnalysisSettings.codec.isWritable_toJson hfits.timeout
    simp [toJson, Value.isWritable_object, hlint, hanalysis]
  ofJson?_of_writes hfits h := h.read fun _ => ofJson?_of_members hfits
  fits_of_ofJson? := fits_of_ofJson?
  ofJson?_null := rfl

end Settings

end EditorInsight.Config
