import EditorInsight.Proofs.Serial.Finding
import EditorInsight.Serial.Engine

/-!
# Reports and answers as documents

What the reports of engines and the places an editor jumps to may be written as, and that this is
what is read. The three conventions for a missing value meet here: a place without a file is written
with `null`, the first column may be left out, and so may what a completion does not say.

* `EngineLocation.Members`, `EngineSignature.Members`, `CompletionItem.Members`,
  `ResolvedSymbol.Members` and `ReferenceHit.Members` are the forms, member by member.
* Each of these types has its `codec`.
-/

namespace EditorInsight.Analysis

open Json

namespace EngineLocation

/-- The members of a reported place. What is missing may be left out or `null`; the column may be
left out if it is the first. -/
structure Members (l : EngineLocation) (ms : List (String × Value)) : Prop where
  modulePath : Codec.text.SaysOptional "module_path" ms (l.modulePath.map Path.text)
  line : Codec.word.SaysOptional "line" ms l.line
  column : Codec.word.SaysOr 0 "column" ms l.column
  code : Codec.text.SaysOptional "code" ms l.code

/-- Whether both numbers are machine words. -/
structure Fits (l : EngineLocation) : Prop where
  line : ∀ n ∈ l.line, n < wordSize
  column : l.column < wordSize

theorem ofJson?_of_members {l : EngineLocation} {ms : List (String × Value)} (hfits : l.Fits)
    (h : l.Members ms) : ofJson? (.object ms) = some l := by
  have hmodulePath : (Value.found "module_path" ms).optional Value.text?
      = some (l.modulePath.map Path.text) :=
    h.modulePath.optional fun _ _ => trivial
  have hline : (Value.found "line" ms).optional Value.word? = some l.line :=
    h.line.optional hfits.line
  have hcolumn : (Value.found "column" ms).withDefault 0 Value.word? = some l.column :=
    h.column.withDefault hfits.column
  have hcode : (Value.found "code" ms).withDefault none (Value.nullable? Value.text?)
      = some l.code :=
    h.code.withDefault fun _ _ => trivial
  have hpath : (l.modulePath.map Path.text).map Path.mk = l.modulePath := by
    cases l.modulePath <;> rfl
  -- no name is there twice, so the fields are what is found for their names
  rw [ofJson?, Value.fields?_object (by
    simp [h.modulePath.once, h.line.once, h.column.once, h.code.once])]
  simp only [List.map_cons, List.map_nil, Option.bind_eq_bind, Option.bind_some, hmodulePath, hline,
    hcolumn, hcode, hpath]
  rfl

theorem fits_of_ofJson? {l : EngineLocation} {v : Value} (h : ofJson? v = some l) : l.Fits := by
  obtain ⟨fields, -, h⟩ := Option.bind_eq_some_iff.mp h
  split at h
  · obtain ⟨modulePath, -, h⟩ := Option.bind_eq_some_iff.mp h
    obtain ⟨line, hline, h⟩ := Option.bind_eq_some_iff.mp h
    obtain ⟨column, hcolumn, h⟩ := Option.bind_eq_some_iff.mp h
    obtain ⟨code, -, h⟩ := Option.bind_eq_some_iff.mp h
    cases h
    have hzero : Codec.word.Fits 0 := show 0 < wordSize by decide
    exact ⟨Codec.word.fits_of_optional hline, Codec.word.fits_of_withDefault hzero hcolumn⟩
  · cases h

/-- Reported places. -/
def codec : Codec EngineLocation where
  toJson := toJson
  ofJson? := ofJson?
  Fits := Fits
  Writes := Codec.IsObject Members
  writes_toJson l := ⟨_, rfl, {
    modulePath := Codec.saysOptional_of_valuesOf (by cases l.modulePath <;> simp [Value.option])
    line := Codec.saysOptional_of_valuesOf (by simp)
    column := Or.inl (Codec.says_of_valuesOf (by simp))
    code := Codec.saysOptional_of_valuesOf (by simp) }⟩
  isWritable_toJson {l} hfits := by
    have hpath : (Value.option (fun p => .string (Path.text p)) l.modulePath).isWritable = true :=
      Value.isWritable_option fun _ _ => rfl
    have hline : (Value.option .nat l.line).isWritable = true :=
      Value.isWritable_option fun n hn => Value.isWritable_nat (hfits.line n hn)
    have hcode : (Value.option .string l.code).isWritable = true :=
      Value.isWritable_option fun _ _ => rfl
    have hcolumn := Value.isWritable_nat hfits.column
    simp [toJson, Value.isWritable_object, hpath, hline, hcode, hcolumn]
  ofJson?_of_writes hfits h := h.read fun _ => ofJson?_of_members hfits
  fits_of_ofJson? := fits_of_ofJson?
  ofJson?_null := rfl

end EngineLocation

namespace EngineSignature

/-- The members of a signature. Parameters that are not known may be left out or `null`. -/
structure Members (s : EngineSignature) (ms : List (String × Value)) : Prop where
  name : Codec.text.Says "name" ms s.name
  params : Codec.text.list.SaysOptional "params" ms s.params

theorem ofJson?_of_members {s : EngineSignature} {ms : List (String × Value)} (h : s.Members ms) :
    ofJson? (.object ms) = some s := by
  have hname : (Value.found "name" ms).required Value.text? = some s.name :=
    h.name.required trivial
  have hparams : (Value.found "params" ms).optional (Value.list? Value.text?) = some s.params :=
    h.params.optional fun _ _ _ _ => trivial
  rw [ofJson?, Value.fields?_object (by simp [h.name.once, h.params.once])]
  simp only [List.map_cons, List.map_nil, Option.bind_eq_bind, Option.bind_some, hname, hparams]
  rfl

/-- Signatures. -/
def codec : Codec EngineSignature where
  toJson := toJson
  ofJson? := ofJson?
  Fits _ := True
  Writes := Codec.IsObject Members
  writes_toJson s := ⟨_, rfl, {
    name := Codec.says_of_valuesOf (by simp)
    params := Codec.saysOptional_of_valuesOf (by cases s.params <;> simp [Value.option]) }⟩
  isWritable_toJson {s} _ := by
    have hparams : (Value.option (fun ps => .array (ps.map .string)) s.params).isWritable = true :=
      Value.isWritable_option fun ps _ => Codec.text.list.isWritable_toJson fun _ _ => trivial
    simp [toJson, Value.isWritable_object, hparams]
  ofJson?_of_writes _ h := h.read fun _ => ofJson?_of_members
  fits_of_ofJson? _ := trivial
  ofJson?_null := rfl

end EngineSignature

namespace CompletionItem

/-- The members of a completion. What is missing may be left out or `null`. -/
structure Members (c : CompletionItem) (ms : List (String × Value)) : Prop where
  label : Codec.text.Says "label" ms c.label
  kind : Codec.text.SaysOptional "kind" ms c.kind
  detail : Codec.text.SaysOptional "detail" ms c.detail

theorem ofJson?_of_members {c : CompletionItem} {ms : List (String × Value)} (h : c.Members ms) :
    ofJson? (.object ms) = some c := by
  have hlabel : (Value.found "label" ms).required Value.text? = some c.label :=
    h.label.required trivial
  have hkind : (Value.found "kind" ms).withDefault none (Value.nullable? Value.text?)
      = some c.kind :=
    h.kind.withDefault fun _ _ => trivial
  have hdetail : (Value.found "detail" ms).withDefault none (Value.nullable? Value.text?)
      = some c.detail :=
    h.detail.withDefault fun _ _ => trivial
  rw [ofJson?, Value.fields?_object (by simp [h.label.once, h.kind.once, h.detail.once])]
  simp only [List.map_cons, List.map_nil, Option.bind_eq_bind, Option.bind_some, hlabel, hkind,
    hdetail]
  rfl

/-- Completions. -/
def codec : Codec CompletionItem where
  toJson := toJson
  ofJson? := ofJson?
  Fits _ := True
  Writes := Codec.IsObject Members
  writes_toJson c := ⟨_, rfl, {
    label := Codec.says_of_valuesOf (by cases c.kind <;> cases c.detail <;> simp)
    kind := Codec.saysOptional_of_omitted (by cases c.kind <;> cases c.detail <;> simp)
    detail := Codec.saysOptional_of_omitted (by cases c.kind <;> cases c.detail <;> simp) }⟩
  isWritable_toJson {c} _ := by
    cases hkind : c.kind <;> cases hdetail : c.detail <;>
      simp [toJson, Value.isWritable_object, hkind, hdetail]
  ofJson?_of_writes _ h := h.read fun _ => ofJson?_of_members
  fits_of_ofJson? _ := trivial
  ofJson?_null := rfl

end CompletionItem

namespace ResolvedSymbol

/-- The members of a definition. -/
structure Members (s : ResolvedSymbol) (ms : List (String × Value)) : Prop where
  filePath : Codec.text.Says "file_path" ms s.filePath.text
  position : Position.codec.Says "position" ms s.position

theorem ofJson?_of_members {s : ResolvedSymbol} {ms : List (String × Value)}
    (hfits : s.position.Fits) (h : s.Members ms) : ofJson? (.object ms) = some s := by
  have hfilePath : (Value.found "file_path" ms).required Value.text? = some s.filePath.text :=
    h.filePath.required trivial
  have hposition : (Value.found "position" ms).required Position.ofJson? = some s.position :=
    h.position.required hfits
  rw [ofJson?, Value.fields?_object (by simp [h.filePath.once, h.position.once])]
  simp only [List.map_cons, List.map_nil, Option.bind_eq_bind, Option.bind_some, hfilePath,
    hposition]
  rfl

theorem fits_of_ofJson? {s : ResolvedSymbol} {v : Value} (h : ofJson? v = some s) :
    s.position.Fits := by
  obtain ⟨fields, -, h⟩ := Option.bind_eq_some_iff.mp h
  split at h
  · obtain ⟨filePath, -, h⟩ := Option.bind_eq_some_iff.mp h
    obtain ⟨position, hposition, h⟩ := Option.bind_eq_some_iff.mp h
    cases h
    exact Position.codec.fits_of_required hposition
  · cases h

/-- Definitions. -/
def codec : Codec ResolvedSymbol where
  toJson := toJson
  ofJson? := ofJson?
  Fits s := s.position.Fits
  Writes := Codec.IsObject Members
  writes_toJson s := ⟨_, rfl, {
    filePath := Codec.says_of_valuesOf (by simp)
    position := Codec.says_of_valuesOf (by simp) }⟩
  isWritable_toJson {s} hfits := by
    have hposition : s.position.toJson.isWritable = true :=
      Position.codec.isWritable_toJson hfits
    simp [toJson, Value.isWritable_object, hposition]
  ofJson?_of_writes hfits h := h.read fun _ => ofJson?_of_members hfits
  fits_of_ofJson? := fits_of_ofJson?
  ofJson?_null := rfl

end ResolvedSymbol

namespace ReferenceHit

/-- The members of a use. -/
structure Members (r : ReferenceHit) (ms : List (String × Value)) : Prop where
  filePath : Codec.text.Says "file_path" ms r.filePath.text
  position : Position.codec.Says "position" ms r.position
  sourceLine : Codec.text.Says "source_line_text" ms r.sourceLine

theorem ofJson?_of_members {r : ReferenceHit} {ms : List (String × Value)}
    (hfits : r.position.Fits) (h : r.Members ms) : ofJson? (.object ms) = some r := by
  have hfilePath : (Value.found "file_path" ms).required Value.text? = some r.filePath.text :=
    h.filePath.required trivial
  have hposition : (Value.found "position" ms).required Position.ofJson? = some r.position :=
    h.position.required hfits
  have hsourceLine : (Value.found "source_line_text" ms).required Value.text? = some r.sourceLine :=
    h.sourceLine.required trivial
  rw [ofJson?, Value.fields?_object (by
    simp [h.filePath.once, h.position.once, h.sourceLine.once])]
  simp only [List.map_cons, List.map_nil, Option.bind_eq_bind, Option.bind_some, hfilePath,
    hposition, hsourceLine]
  rfl

theorem fits_of_ofJson? {r : ReferenceHit} {v : Value} (h : ofJson? v = some r) :
    r.position.Fits := by
  obtain ⟨fields, -, h⟩ := Option.bind_eq_some_iff.mp h
  split at h
  · obtain ⟨filePath, -, h⟩ := Option.bind_eq_some_iff.mp h
    obtain ⟨position, hposition, h⟩ := Option.bind_eq_some_iff.mp h
    obtain ⟨sourceLine, -, h⟩ := Option.bind_eq_some_iff.mp h
    cases h
    exact Position.codec.fits_of_required hposition
  · cases h

/-- Uses. -/
def codec : Codec ReferenceHit where
  toJson := toJson
  ofJson? := ofJson?
  Fits r := r.position.Fits
  Writes := Codec.IsObject Members
  writes_toJson r := ⟨_, rfl, {
    filePath := Codec.says_of_valuesOf (by simp)
    position := Codec.says_of_valuesOf (by simp)
    sourceLine := Codec.says_of_valuesOf (by simp) }⟩
  isWritable_toJson {r} hfits := by
    have hposition : r.position.toJson.isWritable = true :=
      Position.codec.isWritable_toJson hfits
    simp [toJson, Value.isWritable_object, hposition]
  ofJson?_of_writes hfits h := h.read fun _ => ofJson?_of_members hfits
  fits_of_ofJson? := fits_of_ofJson?
  ofJson?_null := rfl

end ReferenceHit

end EditorInsight.Analysis
