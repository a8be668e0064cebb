import EditorInsight.Proofs.Json.Codec
import EditorInsight.Serial.Finding

/-!
# Findings as documents

What positions, ranges and findings may be written as, and that this is what is read. The members of
an object may stand in any order and between members of other names.

* `Position.Members`, `Range.Members` and `Diagnostic.Members` are the forms, member by member.
* `Position.codec`, `Range.codec`, `Severity.codec`, `IndicatorStyle.codec` and `Diagnostic.codec`.
-/

namespace EditorInsight

open Json

namespace Position

/-- The members of a position. -/
structure Members (p : Position) (ms : List (String × Value)) : Prop where
  line : Codec.word.Says "line" ms p.line
  column : Codec.word.Says "column" ms p.column

/-- Whether both numbers are machine words. -/
structure Fits (p : Position) : Prop where
  line : p.line < wordSize
  column : p.column < wordSize

theorem ofJson?_of_members {p : Position} {ms : List (String × Value)} (hfits : p.Fits)
    (h : p.Members ms) : ofJson? (.object ms) = some p := by
  have hline : (Value.found "line" ms).required Value.word? = some p.line :=
    h.line.required hfits.line
  have hcolumn : (Value.found "column" ms).required Value.word? = some p.column :=
    h.column.required hfits.column
  rw [ofJson?, Value.fields?_object (by simp [h.line.once, h.column.once])]
  simp only [List.map_cons, List.map_nil, Option.bind_eq_bind, Option.bind_some, hline, hcolumn]
  rfl

theorem fits_of_ofJson? {p : Position} {v : Value} (h : ofJson? v = some p) : p.Fits := by
  obtain ⟨fields, -, h⟩ := Option.bind_eq_some_iff.mp h
  split at h
  · obtain ⟨line, hline, h⟩ := Option.bind_eq_some_iff.mp h
    obtain ⟨column, hcolumn, h⟩ := Option.bind_eq_some_iff.mp h
    cases h
    exact ⟨Codec.word.fits_of_required hline, Codec.word.fits_of_required hcolumn⟩
  · cases h

/-- Positions. -/
def codec : Codec Position where
  toJson := toJson
  ofJson? := ofJson?
  Fits := Fits
  Writes := Codec.IsObject Members
  writes_toJson p := ⟨_, rfl, {
    line := Codec.says_of_valuesOf (by simp)
    column := Codec.says_of_valuesOf (by simp) }⟩
  isWritable_toJson hfits := by
    simp [toJson, Value.isWritable_object, Value.isWritable_nat, hfits.line, hfits.column]
  ofJson?_of_writes hfits h := h.read fun _ => ofJson?_of_members hfits
  fits_of_ofJson? := fits_of_ofJson?
  ofJson?_null := rfl

@[simp] theorem codec_toJson : codec.toJson = toJson := rfl

end Position

namespace Range

/-- The members of a range. A missing end may be left out or `null`. -/
structure Members (r : Range) (ms : List (String × Value)) : Prop where
  start : Position.codec.Says "start" ms r.start
  stop : Position.codec.SaysOptional "end" ms r.stop

/-- Whether all numbers are machine words. -/
structure Fits (r : Range) : Prop where
  start : r.start.Fits
  stop : ∀ p ∈ r.stop, p.Fits

theorem ofJson?_of_members {r : Range} {ms : List (String × Value)} (hfits : r.Fits)
    (h : r.Members ms) : ofJson? (.object ms) = some r := by
  have hstart : (Value.found "start" ms).required Position.ofJson? = some r.start :=
    h.start.required hfits.start
  have hstop : (Value.found "end" ms).optional Position.ofJson? = some r.stop :=
    h.stop.optional hfits.stop
  rw [ofJson?, Value.fields?_object (by simp [h.start.once, h.stop.once])]
  simp only [List.map_cons, List.map_nil, Option.bind_eq_bind, Option.bind_some, hstart, hstop]
  rfl

theorem fits_of_ofJson? {r : Range} {v : Value} (h : ofJson? v = some r) : r.Fits := by
  obtain ⟨fields, -, h⟩ := Option.bind_eq_some_iff.mp h
  split at h
  · obtain ⟨start, hstart, h⟩ := Option.bind_eq_some_iff.mp h
    obtain ⟨stop, hstop, h⟩ := Option.bind_eq_some_iff.mp h
    cases h
    exact ⟨Position.codec.fits_of_required hstart, Position.codec.fits_of_optional hstop⟩
  · cases h

/-- Ranges. -/
def codec : Codec Range where
  toJson := toJson
  ofJson? := ofJson?
  Fits := Fits
  Writes := Codec.IsObject Members
  writes_toJson r := ⟨_, rfl, {
    start := Codec.says_of_valuesOf (by simp)
    stop := Codec.saysOptional_of_valuesOf (by simp) }⟩
  isWritable_toJson {r} hfits := by
    have hstart : r.start.toJson.isWritable = true := Position.codec.isWritable_toJson hfits.start
    have hstop : (Value.option Position.toJson r.stop).isWritable = true :=
      Value.isWritable_option fun p hp => Position.codec.isWritable_toJson (hfits.stop p hp)
    simp [toJson, Value.isWritable_object, hstart, hstop]
  ofJson?_of_writes hfits h := h.read fun _ => ofJson?_of_members hfits
  fits_of_ofJson? := fits_of_ofJson?
  ofJson?_null := rfl

@[simp] theorem codec_toJson : codec.toJson = toJson := rfl

end Range

namespace Severity

/-- Severities, by their names. -/
def codec : Codec Severity := Codec.choice names name fun s => by cases s <;> rfl

@[simp] theorem codec_toJson : codec.toJson = toJson := rfl

end Severity

namespace IndicatorStyle

/-- Styles, by their names. -/
def codec : Codec IndicatorStyle := Codec.choice names name fun s => by cases s <;> rfl

end IndicatorStyle

namespace Diagnostic

/-- The members of a finding. A missing symbol may be left out or `null`. -/
structure Members (d : Diagnostic) (ms : List (String × Value)) : Prop where
  severity : Severity.codec.Says "severity" ms d.severity
  range : Range.codec.Says "range" ms d.range
  code : Codec.text.Says "code" ms d.code
  message : Codec.text.Says "message" ms d.message
  symbol : Codec.text.SaysOptional "symbol" ms d.symbol

theorem ofJson?_of_members {d : Diagnostic} {ms : List (String × Value)} (hfits : d.range.Fits)
    (h : d.Members ms) : ofJson? (.object ms) = some d := by
  have hseverity : (Value.found "severity" ms).required Severity.ofJson? = some d.severity :=
    h.severity.required trivial
  have hrange : (Value.found "range" ms).required Range.ofJson? = some d.range :=
    h.range.required hfits
  have hcode : (Value.found "code" ms).required Value.text? = some d.code :=
    h.code.required trivial
  have hmessage : (Value.found "message" ms).required Value.text? = some d.message :=
    h.message.required trivial
  have hsymbol : (Value.found "symbol" ms).optional Value.text? = some d.symbol :=
    h.symbol.optional fun _ _ => trivial
  rw [ofJson?, Value.fields?_object (by
    simp [h.severity.once, h.range.once, h.code.once, h.message.once, h.symbol.once])]
  simp only [List.map_cons, List.map_nil, Option.bind_eq_bind, Option.bind_some, hseverity, hrange,
    hcode, hmessage, hsymbol]
  rfl

theorem fits_of_ofJson? {d : Diagnostic} {v : Value} (h : ofJson? v = some d) :
    d.range.Fits := by
  obtain ⟨fields, -, h⟩ := Option.bind_eq_some_iff.mp h
  split at h
  · obtain ⟨severity, -, h⟩ := Option.bind_eq_some_iff.mp h
    obtain ⟨range, hrange, h⟩ := Option.bind_eq_some_iff.mp h
    obtain ⟨code, -, h⟩ := Option.bind_eq_some_iff.mp h
    obtain ⟨message, -, h⟩ := Option.bind_eq_some_iff.mp h
    obtain ⟨symbol, -, h⟩ := Option.bind_eq_some_iff.mp h
    cases h
    exact Range.codec.fits_of_required hrange
  · cases h

/-- Findings. -/
def codec : Codec Diagnostic where
  toJson := toJson
  ofJson? := ofJson?
  Fits d := d.range.Fits
  Writes := Codec.IsObject Members
  writes_toJson d := ⟨_, rfl, {
    severity := Codec.says_of_valuesOf (by cases d.symbol <;> simp)
    range := Codec.says_of_valuesOf (by cases d.symbol <;> simp)
    code := Codec.says_of_valuesOf (by cases d.symbol <;> simp)
    message := Codec.says_of_valuesOf (by cases d.symbol <;> simp)
    symbol := Codec.saysOptional_of_omitted (by cases d.symbol <;> simp) }⟩
  isWritable_toJson {d} hfits := by
    have hrange : d.range.toJson.isWritable = true := Range.codec.isWritable_toJson hfits
    have hseverity : d.severity.toJson.isWritable = true := rfl
    cases hsymbol : d.symbol <;>
      simp [toJson, Value.isWritable_object, hrange, hseverity, hsymbol]
  ofJson?_of_writes hfits h := h.read fun _ => ofJson?_of_members hfits
  fits_of_ofJson? := fits_of_ofJson?
  ofJson?_null := rfl

end Diagnostic

end EditorInsight
