import EditorInsight.Analysis.Answer
import EditorInsight.Serial.Finding

/-!
# Reports and answers as documents

The written form of what engines report and of the places an editor jumps to, and the reading of it.

* `EngineLocation`, `EngineSignature`, `CompletionItem`, `ResolvedSymbol` and `ReferenceHit` each
  have `toJson` and `ofJson?`.
-/

namespace EditorInsight.Analysis

open Json

namespace EngineLocation

/-- The written form of a reported place. -/
def toJson (l : EngineLocation) : Value :=
  .object [("module_path", .option (fun p => .string p.text) l.modulePath),
    ("line", .option .nat l.line), ("column", .nat l.column), ("code", .option .string l.code)]

/-- Reads a reported place. -/
def ofJson? (v : Value) : Option EngineLocation := do
  let [modulePath, line, column, code] ← v.fields? ["module_path", "line", "column", "code"] | none
  let modulePath ← modulePath.optional Value.text?
  return {
    modulePath := modulePath.map Path.mk
    line := ← line.optional Value.word?
    column := ← column.withDefault 0 Value.word?
    code := ← code.withDefault none (Value.nullable? Value.text?) }

end EngineLocation

namespace EngineSignature

/-- The written form of a signature. -/
def toJson (s : EngineSignature) : Value :=
  .object [("name", .string s.name),
    ("params", .option (fun ps => .array (ps.map .string)) s.params)]

/-- Reads a signature. -/
def ofJson? (v : Value) : Option EngineSignature := do
  let [name, params] ← v.fields? ["name", "params"] | none
  return {
    name := ← name.required Value.text?
    params := ← params.optional (Value.list? Value.text?) }

end EngineSignature

namespace CompletionItem

/-- The written form of a completion. What is missing is left out. -/
def toJson (c : CompletionItem) : Value :=
  .object <|
    ("label", Value.string c.label) ::
      ((c.kind.map fun s => ("kind", Value.string s)).toList ++
        (c.detail.map fun s => ("detail", Value.string s)).toList)

/-- Reads a completion. -/
def ofJson? (v : Value) : Option CompletionItem := do
  let [label, kind, detail] ← v.fields? ["label", "kind", "detail"] | none
  return {
    label := ← label.required Value.text?
    kind := ← kind.withDefault none (Value.nullable? Value.text?)
    detail := ← detail.withDefault none (Value.nullable? Value.text?) }

end CompletionItem

namespace ResolvedSymbol

/-- The written form of a definition. -/
def toJson (s : ResolvedSymbol) : Value :=
  .object [("file_path", .string s.filePath.text), ("position", s.position.toJson)]

/-- Reads a definition. -/
def ofJson? (v : Value) : Option ResolvedSymbol := do
  let [filePath, position] ← v.fields? ["file_path", "position"] | none
  return ⟨⟨← filePath.required Value.text?⟩, ← position.required Position.ofJson?⟩

end ResolvedSymbol

namespace ReferenceHit

/-- The written form of a use. -/
def toJson (h : ReferenceHit) : Value :=
  .object [("file_path", .string h.filePath.text), ("position", h.position.toJson),
    ("source_line_text", .string h.sourceLine)]

/-- Reads a use. -/
def ofJson? (v : Value) : Option ReferenceHit := do
  let [filePath, position, sourceLine] ←
    v.fields? ["file_path", "position", "source_line_text"] | none
  return ⟨⟨← filePath.required Value.text?⟩, ← position.required Position.ofJson?,
    ← sourceLine.required Value.text?⟩

end ReferenceHit

end EditorInsight.Analysis
