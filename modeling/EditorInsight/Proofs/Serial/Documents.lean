import EditorInsight.Proofs.Serial.Engine

/-!
# All types of documents

* `DocumentType` lists the types that are written and read as documents, and `DocumentType.codec` has
  the codec of each.
* `DocumentType.decode?_written`: what was written for a value is read as the value, in each of the
  forms that a type allows; and writing what was read loses nothing.
-/

namespace EditorInsight

open Json Analysis

/-- The types that are written and read as documents. -/
inductive DocumentType where
  | position
  | range
  | severity
  | style
  | diagnostic
  | location
  | signature
  | symbol
  | reference
  | completion

namespace DocumentType

/-- The values of a type. -/
def Carrier : DocumentType → Type
  | position => Position
  | range => Range
  | severity => Severity
  | style => IndicatorStyle
  | diagnostic => Diagnostic
  | location => EngineLocation
  | signature => EngineSignature
  | symbol => ResolvedSymbol
  | reference => ReferenceHit
  | completion => CompletionItem

/-- How the values of a type are written and read. -/
def codec : (t : DocumentType) → Codec t.Carrier
  | position => Position.codec
  | range => Range.codec
  | severity => Severity.codec
  | style => IndicatorStyle.codec
  | diagnostic => Diagnostic.codec
  | location => EngineLocation.codec
  | signature => EngineSignature.codec
  | symbol => ResolvedSymbol.codec
  | reference => ReferenceHit.codec
  | completion => CompletionItem.codec

/-- **Documents are read as they were written.** Let `a` be a value whose numbers are machine words.
The text written for it is read as `a`, and so is any text of any of its forms: with members in
another order, with members of other names, and with missing values left out, `null` or at their
default as the type allows. And any text at all that is read as some value may be replaced by the text
written for that value. -/
theorem decode?_written (t : DocumentType) :
    (∀ a, t.codec.Fits a → t.codec.decode? (t.codec.encode a) = some a) ∧
      (∀ a v text, t.codec.Fits a → t.codec.Writes a v → IsText text v →
        t.codec.decode? text = some a) ∧
      ∀ text a, t.codec.decode? text = some a → t.codec.decode? (t.codec.encode a) = some a := by
  refine ⟨fun a hfits => Codec.decode?_encode hfits,
    fun a v text hfits hv htext => Codec.decode?_of_isText hfits hv htext, fun text a h => ?_⟩
  -- only numbers that fit are read
  exact Codec.decode?_encode (Codec.fits_of_decode? h)

/-- A finding without an end and without a symbol. -/
def unnamed : Diagnostic := ⟨.error, ⟨⟨1, 4⟩, none⟩, "E0602", "boom", none⟩

/-- Its members in disorder, and a member of another name: the symbol is `null`, and the end is left
out. -/
def disorderly : String :=
  "\x7b\"symbol\": null, \"range\": \x7b\"start\": \x7b\"column\": 4, \"line\": 1\x7d\x7d, " ++
    "\"code\": \"E0602\", \"line\": [], \"message\": \"boom\", \"severity\": \"error\"\x7d"

/-- The members of such a finding. -/
def disorderlyMembers (line column : Value) : List (String × Value) :=
  [("symbol", .null), ("range", .object [("start", .object [("column", column), ("line", line)])]),
    ("code", .string "E0602"), ("line", .array []), ("message", .string "boom"),
    ("severity", .string "error")]

/-- The tokens of such a finding. -/
def disorderlyTokens (line column : Number) : List Token :=
  [.openObject, .string (some "symbol"), .colon, .null, .comma, .string (some "range"), .colon,
    .openObject, .string (some "start"), .colon, .openObject, .string (some "column"), .colon,
    .number column, .comma, .string (some "line"), .colon, .number line, .closeObject, .closeObject,
    .comma, .string (some "code"), .colon, .string (some "E0602"), .comma, .string (some "line"),
    .colon, .openArray, .closeArray, .comma, .string (some "message"), .colon,
    .string (some "boom"), .comma, .string (some "severity"), .colon, .string (some "error"),
    .closeObject]

theorem decode?_written_disorderly :
    Diagnostic.codec.Fits unnamed ∧
      Diagnostic.codec.Writes unnamed (.object (disorderlyMembers (.nat 1) (.nat 4))) ∧
      IsText disorderly (.object (disorderlyMembers (.nat 1) (.nat 4))) ∧
      Diagnostic.codec.decode? disorderly = some unnamed ∧
      Diagnostic.codec.decode? (Diagnostic.codec.encode unnamed) = some unnamed := by
  have hfits : Diagnostic.codec.Fits unnamed :=
    ⟨⟨show 1 < wordSize by decide, show 4 < wordSize by decide⟩, fun p hp => nomatch hp⟩
  have hwrites :
      Diagnostic.codec.Writes unnamed (.object (disorderlyMembers (.nat 1) (.nat 4))) := by
    have hstart : Position.codec.Writes ⟨1, 4⟩ (.object [("column", .nat 4), ("line", .nat 1)]) :=
      ⟨_, rfl, ⟨_, by simp, rfl⟩, ⟨_, by simp, rfl⟩⟩
    have hrange : Range.codec.Writes ⟨⟨1, 4⟩, none⟩
        (.object [("start", .object [("column", .nat 4), ("line", .nat 1)])]) :=
      ⟨_, rfl, ⟨_, by simp, hstart⟩, Or.inl (by simp)⟩
    exact ⟨_, rfl, {
      severity := ⟨_, by simp [disorderlyMembers, unnamed, Severity.name], Or.inl rfl⟩
      range := ⟨_, by simp [disorderlyMembers], hrange⟩
      code := ⟨_, by simp [disorderlyMembers, unnamed], rfl⟩
      message := ⟨_, by simp [disorderlyMembers, unnamed], rfl⟩
      symbol := Or.inr (by simp [disorderlyMembers]) }⟩
  have htext : IsText disorderly (.object (disorderlyMembers (.nat 1) (.nat 4))) := by
    have hscan : Token.scan disorderly.toList = some (disorderlyTokens (.ofNat 1) (.ofNat 4)) := by
      decide +kernel
    -- with variables for the numbers, so that nothing evaluates them while the rest is read
    have hread (line column : Number) : Value.ofTokens? (disorderlyTokens line column) =
        some (.object (disorderlyMembers (if line.isFinite then .number line else .unreadable)
          (if column.isFinite then .number column else .unreadable))) := rfl
    have htext := isText_of_scan hscan (hread _ _)
    rwa [if_pos (Number.isFinite_ofNat (by decide)),
      if_pos (Number.isFinite_ofNat (by decide))] at htext
  obtain ⟨-, hforms, hagain⟩ := decode?_written .diagnostic
  have hdecode : Diagnostic.codec.decode? disorderly = some unnamed :=
    hforms unnamed _ disorderly hfits hwrites htext
  exact ⟨hfits, hwrites, htext, hdecode, hagain disorderly unnamed hdecode⟩

end DocumentType

end EditorInsight
