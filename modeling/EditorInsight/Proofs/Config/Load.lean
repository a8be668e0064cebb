import EditorInsight.Config.Load
import EditorInsight.Proofs.Serial.Settings

/-!
# Which settings are loaded

A document may have any of the settings and leave out the others. What is loaded is what it has,
with defaults for the rest, unless that breaks a rule; then the first broken rule is reported.

* `Keys` says which settings a document has, `Settings.keep` what is left of settings when only those
  are kept, and `Settings.Document` what the document looks like.
* `Fault.BrokenBy` says what each rule forbids, and `Fault.order` in which order the rules are
  checked: `Settings.fault?_eq_find?`.
* `Settings.parse_document`: documents are loaded as they are kept, if that is valid.
-/

namespace EditorInsight.Config

open Json

/-! ### What a document keeps -/

/-- Which settings of the linter a document has. -/
structure LintKeys where
  enabled : Bool
  rcfile : Bool
  extraArgs : Bool
  quietInterval : Bool

/-- Which settings of the analysis engine a document has. -/
structure AnalysisKeys where
  cache : Bool
  timeout : Bool

/-- Which settings a document has. A group that it does not have at all is `none`. -/
structure Keys where
  interpreter : Bool
  lint : Option LintKeys
  analysis : Option AnalysisKeys

/-- The settings that are kept, and the others at their defaults. -/
def LintSettings.keep (l : LintSettings) (k : LintKeys) : LintSettings where
  enabled := if k.enabled then l.enabled else ({} : LintSettings).enabled
  rcfile := if k.rcfile then l.rcfile else ({} : LintSettings).rcfile
  extraArgs := if k.extraArgs then l.extraArgs else ({} : LintSettings).extraArgs
  quietInterval := if k.quietInterval then l.quietInterval else ({} : LintSettings).quietInterval

/-- The settings that are kept, and the others at their defaults. -/
def AnalysisSettings.keep (a : AnalysisSettings) (k : AnalysisKeys) : AnalysisSettings where
  cache := if k.cache then a.cache else ({} : AnalysisSettings).cache
  timeout := if k.timeout then a.timeout else ({} : AnalysisSettings).timeout

/-- The settings that are kept, and the others at their defaults. -/
def Settings.keep (c : Settings) (k : Keys) : Settings where
  interpreter := if k.interpreter then c.interpreter else ({} : Settings).interpreter
  lint := k.lint.elim {} c.lint.keep
  analysis := k.analysis.elim {} c.analysis.keep

/-- A key that is kept has its member, and one that is dropped has none. -/
def Kept (kept : Bool) (name : String) (ms : List (String × Value)) (member : Prop) : Prop :=
  if kept then member else Value.valuesOf name ms = []

/-- The members that a document has for the settings of the linter. A missing file may be left out or
`null`, and an empty list of arguments may be left out. -/
structure LintSettings.Document (l : LintSettings) (k : LintKeys) (ms : List (String × Value)) :
    Prop where
  enabled : Kept k.enabled "enabled" ms (Codec.bool.Says "enabled" ms l.enabled)
  rcfile : Kept k.rcfile "rcfile" ms
    (Codec.text.SaysOptional "rcfile" ms (l.rcfile.map Path.text))
  extraArgs : Kept k.extraArgs "extraArgs" ms
    (Codec.text.list.SaysOr [] "extraArgs" ms l.extraArgs)
  quietInterval : Kept k.quietInterval "quietIntervalMs" ms
    (Codec.word.Says "quietIntervalMs" ms l.quietInterval)

/-- The members that a document has for the settings of the analysis engine. -/
structure AnalysisSettings.Document (a : AnalysisSettings) (k : AnalysisKeys)
    (ms : List (String × Value)) : Prop where
  cache : Kept k.cache "cache" ms (Codec.bool.Says "cache" ms a.cache)
  timeout : Kept k.timeout "timeoutMs" ms (Codec.word.Says "timeoutMs" ms a.timeout)

/-- The members that a document has for a group of settings: none, or one object. -/
def HasGroup {κ : Type} (name : String) (ms : List (String × Value))
    (document : κ → List (String × Value) → Prop) : Option κ → Prop
  | none => Value.valuesOf name ms = []
  | some k => ∃ ns, Value.valuesOf name ms = [.object ns] ∧ document k ns

/-- The members that a document has. There may be members of other names, in the groups too. -/
structure Settings.Document (c : Settings) (k : Keys) (ms : List (String × Value)) : Prop where
  interpreter : Kept k.interpreter "interpreter" ms
    (Codec.text.Says "interpreter" ms c.interpreter.text)
  lint : HasGroup "lint" ms c.lint.Document k.lint
  analysis : HasGroup "analysis" ms c.analysis.Document k.analysis

section Members

variable {α : Type} {codec : Codec α} {name : String} {ms : List (String × Value)}

/-- What is kept and what stands for it when it is dropped have a property if both members say so. -/
theorem Kept.elim {P : α → Prop} {kept : Bool} {member : Prop} {a default : α}
    (h : Kept kept name ms member) (of_kept : member → P a)
    (of_dropped : Value.valuesOf name ms = [] → P default) :
    P (if kept then a else default) := by
  cases kept with
  | true => exact of_kept h
  | false => exact of_dropped h

theorem Kept.saysOr {kept : Bool} {a default : α} (h : Kept kept name ms (codec.Says name ms a)) :
    codec.SaysOr default name ms (if kept then a else default) :=
  h.elim Or.inl fun hnone => Or.inr ⟨rfl, hnone⟩

theorem HasGroup.saysOr {κ : Type} {document : κ → List (String × Value) → Prop} {keep : κ → α}
    {default : α} {k : Option κ} (h : HasGroup name ms document k)
    (writes : ∀ k ns, document k ns → codec.Writes (keep k) (.object ns)) :
    codec.SaysOr default name ms (k.elim default keep) := by
  cases k with
  | none => exact Or.inr ⟨rfl, h⟩
  | some k =>
    obtain ⟨ns, hvalues, hdocument⟩ := h
    exact Or.inl ⟨.object ns, hvalues, writes k ns hdocument⟩

end Members

theorem LintSettings.Document.members {l : LintSettings} {k : LintKeys}
    {ms : List (String × Value)} (h : l.Document k ms) : (l.keep k).Members ms where
  enabled := h.enabled.saysOr
  rcfile := Kept.elim (P := fun r : Option Path => Codec.text.SaysOptional "rcfile" ms (r.map Path.text))
    h.rcfile id Or.inl
  extraArgs := h.extraArgs.elim id fun hnone => Or.inr ⟨rfl, hnone⟩
  quietInterval := h.quietInterval.saysOr

theorem AnalysisSettings.Document.members {a : AnalysisSettings} {k : AnalysisKeys}
    {ms : List (String × Value)} (h : a.Document k ms) : (a.keep k).Members ms where
  cache := h.cache.saysOr
  timeout := h.timeout.saysOr

namespace Settings

variable {c : Settings} {k : Keys}

/-- A document is a form of what it keeps. -/
theorem Document.members {ms : List (String × Value)} (h : c.Document k ms) :
    (c.keep k).Members ms where
  interpreter := Kept.elim
    (P := fun p : Path =>
      Codec.text.SaysOr ({} : Settings).interpreter.text "interpreter" ms p.text)
    h.interpreter Or.inl fun hnone => Or.inr ⟨rfl, hnone⟩
  lint := h.lint.saysOr fun _ ns hdocument => ⟨ns, rfl, hdocument.members⟩
  analysis := h.analysis.saysOr fun _ ns hdocument => ⟨ns, rfl, hdocument.members⟩

/-- The defaults are machine words, too. -/
theorem Fits.keep (h : c.Fits) (k : Keys) : (c.keep k).Fits where
  quietInterval := by
    have hdefault : ({} : LintSettings).quietInterval < wordSize := by decide
    unfold Settings.keep
    cases k.lint with
    | none => exact hdefault
    | some k =>
      change (if k.quietInterval then _ else _) < wordSize
      split
      · exact h.quietInterval
      · exact hdefault
  timeout := by
    have hdefault : ({} : AnalysisSettings).timeout < wordSize := by decide
    unfold Settings.keep
    cases k.analysis with
    | none => exact hdefault
    | some k =>
      change (if k.timeout then _ else _) < wordSize
      split
      · exact h.timeout
      · exact hdefault

end Settings

/-! ### Rules -/

namespace Fault

/-- What a rule forbids. -/
def BrokenBy : Fault → Settings → Prop
  | emptyInterpreter, c => c.interpreter.text = ""
  | zeroQuietInterval, c => c.lint.quietInterval = 0
  | zeroTimeout, c => c.analysis.timeout = 0
  | blankArgument, c => ∃ arg ∈ c.lint.extraArgs, ∀ ch ∈ arg.toList, Text.isBlank ch = true

instance (f : Fault) (c : Settings) : Decidable (f.BrokenBy c) :=
  match f with
  | emptyInterpreter => inferInstanceAs (Decidable (c.interpreter.text = ""))
  | zeroQuietInterval => inferInstanceAs (Decidable (c.lint.quietInterval = 0))
  | zeroTimeout => inferInstanceAs (Decidable (c.analysis.timeout = 0))
  | blankArgument => inferInstanceAs
      (Decidable (∃ arg ∈ c.lint.extraArgs, ∀ ch ∈ arg.toList, Text.isBlank ch = true))

/-- The order in which the rules are checked. -/
def order : List Fault := [emptyInterpreter, zeroQuietInterval, zeroTimeout, blankArgument]

/-- The settings break a rule and none of those before it. -/
def IsFirst (f : Fault) (c : Settings) : Prop :=
  f.BrokenBy c ∧ ∃ before after, order = before ++ f :: after ∧ ∀ g ∈ before, ¬ g.BrokenBy c

end Fault

namespace Settings

/-- Settings that break no rule. -/
structure Valid (c : Settings) : Prop where
  interpreter : c.interpreter.text ≠ ""
  quietInterval : 0 < c.lint.quietInterval
  timeout : 0 < c.analysis.timeout
  extraArgs : ∀ arg ∈ c.lint.extraArgs, ∃ ch ∈ arg.toList, Text.isBlank ch = false

/-- The rules are checked one after the other. -/
theorem fault?_eq_find? (c : Settings) :
    c.fault? = Fault.order.find? fun f => decide (f.BrokenBy c) := by
  have hempty : c.interpreter.text.isEmpty = true ↔ Fault.emptyInterpreter.BrokenBy c :=
    String.isEmpty_iff
  have hblank : c.lint.extraArgs.any Text.isBlankText = true ↔ Fault.blankArgument.BrokenBy c :=
    List.any_eq_true.trans (exists_congr fun _ => and_congr_right fun _ => List.all_eq_true)
  -- a rule that is broken is found, and one that is kept is passed over
  have hbroken (f : Fault) {fs : List Fault} (h : f.BrokenBy c) :
      (f :: fs).find? (fun f => decide (f.BrokenBy c)) = some f :=
    List.find?_cons_of_pos (decide_eq_true h)
  have hkept (f : Fault) {fs : List Fault} (h : ¬ f.BrokenBy c) :
      (f :: fs).find? (fun f => decide (f.BrokenBy c))
        = fs.find? fun f => decide (f.BrokenBy c) :=
    List.find?_cons_of_neg (mt of_decide_eq_true h)
  -- the chain of conditions has the rules in their order
  unfold fault? Fault.order
  split
  · next h => exact (hbroken .emptyInterpreter (hempty.mp h)).symm
  · next h =>
    rw [hkept .emptyInterpreter (mt hempty.mpr h)]
    split
    · next h => exact (hbroken .zeroQuietInterval h).symm
    · next h =>
      rw [hkept .zeroQuietInterval h]
      split
      · next h => exact (hbroken .zeroTimeout h).symm
      · next h =>
        rw [hkept .zeroTimeout h]
        split
        · next h => exact (hbroken .blankArgument (hblank.mp h)).symm
        · next h =>
          rw [hkept .blankArgument (mt hblank.mpr h)]
          rfl

theorem fault?_eq_some_iff {c : Settings} {f : Fault} : c.fault? = some f ↔ f.IsFirst c := by
  rw [fault?_eq_find?, List.find?_eq_some_iff_append]
  simp [Fault.IsFirst]

theorem valid_iff {c : Settings} : c.Valid ↔ ∀ f : Fault, ¬ f.BrokenBy c := by
  constructor
  · intro h f hf
    cases f with
    | emptyInterpreter => exact h.interpreter hf
    | zeroQuietInterval => exact Nat.ne_of_gt h.quietInterval hf
    | zeroTimeout => exact Nat.ne_of_gt h.timeout hf
    | blankArgument =>
      obtain ⟨arg, harg, hblank⟩ := hf
      obtain ⟨ch, hch, hvisible⟩ := h.extraArgs arg harg
      exact absurd (hblank ch hch) (Bool.eq_false_iff.mp hvisible)
  · intro h
    refine ⟨h .emptyInterpreter, Nat.pos_of_ne_zero (h .zeroQuietInterval),
      Nat.pos_of_ne_zero (h .zeroTimeout), fun arg harg => ?_⟩
    by_contra hblank
    refine h .blankArgument ⟨arg, harg, fun ch hch => ?_⟩
    by_contra hvisible
    exact hblank ⟨ch, hch, Bool.eq_false_iff.mpr hvisible⟩

theorem fault?_eq_none_iff {c : Settings} : c.fault? = none ↔ c.Valid := by
  rw [fault?_eq_find?, List.find?_eq_none, valid_iff]
  constructor
  · intro h f
    have hf : f ∈ Fault.order := by cases f <;> decide
    exact mt decide_eq_true (h f hf)
  · exact fun h f _ => mt of_decide_eq_true (h f)

/-! ### Loading -/

/-- Reading the settings, and then checking the rules. -/
theorem parse_of_parseAs {path : Path} {text : String} {c : Settings}
    (h : parseAs path text = .ok c) :
    parse path text = match c.fault? with
      | none => .ok c
      | some f => .error (.invalid path (.fault f)) := by
  rw [parse, h]
  rfl

theorem parseAs_of_isText {path : Path} {text : String} {v : Value} {c : Settings}
    (hpath : path.extension? = some "json") (hfits : c.Fits) (hv : codec.Writes c v)
    (htext : IsText text v) : parseAs path text = .ok c := by
  have hread : parseJson? text = some c := Codec.decode?_of_isText hfits hv htext
  rw [parseAs, hpath]
  simp only [Option.getD_some, hread]

/-- **Documents are loaded as they are kept, if that is valid.** Let a document keep any of the
settings `c`, in any order and with any members of other names, and leave out the others. Read from a
file with the extension `json`, it gives the settings that are kept with defaults for the others, if
these are valid; and otherwise the first rule that they break is reported. What is written for valid
settings, in particular, is loaded again. -/
theorem parse_document {path : Path} (hpath : path.extension? = some "json") {c : Settings}
    (hfits : c.Fits) :
    (∀ k ms text, c.Document k ms → IsText text (.object ms) →
      ((c.keep k).Valid ∧ parse path text = .ok (c.keep k)) ∨
        ∃ f : Fault, f.IsFirst (c.keep k) ∧ parse path text = .error (.invalid path (.fault f))) ∧
      (c.Valid → parse path (render c.toJson) = .ok c) := by
  constructor
  · intro k ms text hdocument htext
    have hparse := parse_of_parseAs
      (parseAs_of_isText hpath (hfits.keep k) ⟨ms, rfl, hdocument.members⟩ htext)
    -- it is read whatever it says, and only then the rules are checked
    cases hfault : (c.keep k).fault? with
    | none =>
      rw [hfault] at hparse
      exact Or.inl ⟨fault?_eq_none_iff.mp hfault, hparse⟩
    | some f =>
      rw [hfault] at hparse
      exact Or.inr ⟨f, fault?_eq_some_iff.mp hfault, hparse⟩
  · intro hvalid
    have hwritten := parse_of_parseAs (parseAs_of_isText hpath hfits (codec.writes_toJson c)
      (isText_render (codec.isWritable_toJson hfits)))
    rw [fault?_eq_none_iff.mpr hvalid] at hwritten
    exact hwritten

/-- Settings without an interpreter. -/
def anonymous : Settings := { interpreter := ⟨""⟩, lint := { extraArgs := ["-v"] } }

/-- Its arguments, with a missing file that is `null`, and a member of another name. -/
def argumentsOnly : String :=
  "\x7b \"theme\": [], \"lint\": \x7b\"extraArgs\": [\"-v\"], \"rcfile\": null\x7d \x7d"

/-- Its interpreter. -/
def interpreterOnly : String := "\x7b\"interpreter\": \"\"\x7d"

/-- Without the interpreter the settings are loaded, and with it they are refused. -/
theorem parse_document_anonymous :
    parse ⟨"a.json"⟩ argumentsOnly = .ok { lint := { extraArgs := ["-v"] } } ∧
      parse ⟨"a.json"⟩ interpreterOnly
        = .error (.invalid ⟨"a.json"⟩ (.fault .emptyInterpreter)) := by
  have hpath : Path.extension? ⟨"a.json"⟩ = some "json" := by decide +kernel
  have hfits : anonymous.Fits := ⟨show 5000 < wordSize by decide, show 10000 < wordSize by decide⟩
  obtain ⟨hdocuments, -⟩ := parse_document hpath hfits
  constructor
  · -- the interpreter is left out, and the rest is in another order
    have hlint : anonymous.lint.Document ⟨false, true, true, false⟩
        [("extraArgs", .array [.string "-v"]), ("rcfile", .null)] :=
      ⟨by simp [Kept], Or.inr (by simp),
        Or.inl ⟨.array [.string "-v"], by simp, [.string "-v"], rfl, .cons rfl .nil⟩, by simp [Kept]⟩
    have hdocument : anonymous.Document ⟨false, some ⟨false, true, true, false⟩, none⟩
        [("theme", .array []),
          ("lint", .object [("extraArgs", .array [.string "-v"]), ("rcfile", .null)])] :=
      ⟨by simp [Kept], ⟨_, by simp, hlint⟩, by simp [HasGroup]⟩
    have hscan : Token.scan argumentsOnly.toList = some
        [.openObject, .string (some "theme"), .colon, .openArray, .closeArray, .comma,
          .string (some "lint"), .colon, .openObject, .string (some "extraArgs"), .colon,
          .openArray, .string (some "-v"), .closeArray, .comma, .string (some "rcfile"), .colon,
          .null, .closeObject, .closeObject] := by decide +kernel
    rcases hdocuments _ _ _ hdocument (isText_of_scan hscan rfl) with ⟨-, hok⟩ | ⟨f, hfirst, -⟩
    · exact hok
    · -- no rule is broken
      have hnone : (anonymous.keep ⟨false, some ⟨false, true, true, false⟩, none⟩).fault? = none := by
        decide +kernel
      cases hnone.symm.trans (fault?_eq_some_iff.mpr hfirst)
  · -- the interpreter is the only field, and empty
    have hdocument : anonymous.Document ⟨true, none, none⟩ [("interpreter", .string "")] :=
      ⟨⟨.string "", by simp, rfl⟩, by simp [HasGroup], by simp [HasGroup]⟩
    have hscan : Token.scan interpreterOnly.toList = some
        [.openObject, .string (some "interpreter"), .colon, .string (some ""), .closeObject] := by
      decide +kernel
    rcases hdocuments _ _ _ hdocument (isText_of_scan hscan rfl) with ⟨hvalid, -⟩ | ⟨f, hfirst, herror⟩
    · exact absurd rfl hvalid.interpreter
    · have hfault : (anonymous.keep ⟨true, none, none⟩).fault? = some .emptyInterpreter := by
        decide +kernel
      cases hfault.symm.trans (fault?_eq_some_iff.mpr hfirst)
      exact herror

end Settings

end EditorInsight.Config
