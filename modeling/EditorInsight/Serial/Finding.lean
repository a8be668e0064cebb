import EditorInsight.Diagnostic
import EditorInsight.Json.Record

/-!
# Findings as documents

The written form of positions, ranges and findings, and the reading of it.

* `Position`, `Range`, `Severity`, `IndicatorStyle` and `Diagnostic` each have `toJson` and
  `ofJson?`.
-/

namespace EditorInsight

open Json

namespace Position

/-- The written form of a position. -/
def toJson (p : Position) : Value :=
  .object [("line", .nat p.line), ("column", .nat p.column)]

/-- Reads a position. -/
def ofJson? (v : Value) : Option Position := do
  let [line, column] ← v.fields? ["line", "column"] | none
  return ⟨← line.required Value.word?, ← column.required Value.word?⟩

end Position

namespace Range

/-- The written form of a range. A missing end is written as `null`. -/
def toJson (r : Range) : Value :=
  .object [("start", r.start.toJson), ("end", .option Position.toJson r.stop)]

/-- Reads a range. -/
def ofJson? (v : Value) : Option Range := do
  let [start, stop] ← v.fields? ["start", "end"] | none
  return ⟨← start.required Position.ofJson?, ← stop.optional Position.ofJson?⟩

end Range

namespace Severity

/-- The written form of a severity. -/
def toJson (s : Severity) : Value := .string s.name

/-- Reads a severity. -/
def ofJson? (v : Value) : Option Severity := v.choice? names

end Severity

namespace IndicatorStyle

/-- The written form of a style. -/
def toJson (s : IndicatorStyle) : Value := .string s.name

/-- Reads a style. -/
def ofJson? (v : Value) : Option IndicatorStyle := v.choice? names

end IndicatorStyle

namespace Diagnostic

/-- The written form of a finding. A missing symbol is left out. -/
def toJson (d : Diagnostic) : Value :=
  .object <|
    [("severity", d.severity.toJson), ("range", d.range.toJson), ("code", .string d.code),
      ("message", .string d.message)] ++
    (d.symbol.map fun s => ("symbol", Value.string s)).toList

/-- Reads a finding. -/
def ofJson? (v : Value) : Option Diagnostic := do
  let [severity, range, code, message, symbol] ←
    v.fields? ["severity", "range", "code", "message", "symbol"] | none
  return {
    severity := ← severity.required Severity.ofJson?
    range := ← range.required Range.ofJson?
    code := ← code.required Value.text?
    message := ← message.required Value.text?
    symbol := ← symbol.optional Value.text? }

end Diagnostic

end EditorInsight
