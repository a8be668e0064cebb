import EditorInsight.Diagnostic
import EditorInsight.Json.Parse
import EditorInsight.Json.Record
import EditorInsight.Text.Blank

/-!
# Reports of the linter

A report is a JSON array of records, one for each finding. A record that cannot be read is skipped,
so that one odd record does not hide the others; only a report that is no array at all is an error.
A report of nothing but blanks has no findings.

* `Report.parse` reads a report.
* `Message` is one record; `Message.toDiagnostic` is the finding it describes.
-/

namespace EditorInsight.Lint

open Json

/-- One record of a report. -/
structure Message where
  /-- The kind of finding, in the linter's words. -/
  kind : String
  /-- The line where it starts. -/
  line : Nat
  /-- The column where it starts. -/
  column : Nat
  /-- The line where it ends. -/
  endLine : Option Nat
  /-- The column where it ends. -/
  endColumn : Option Nat
  /-- The code of the message. -/
  messageId : String
  /-- The message. -/
  message : String
  /-- The symbolic name of the message. -/
  symbol : Option String
deriving DecidableEq, Repr

namespace Message

/-- The names of a record's fields, in their fixed order. -/
def fieldNames : List String :=
  ["type", "line", "column", "endLine", "endColumn", "message-id", "message", "symbol"]

/-- Reads a record. -/
def ofJson? (v : Value) : Option Message := do
  let [kind, line, column, endLine, endColumn, messageId, message, symbol] ← v.fields? fieldNames
    | none
  return {
    kind := ← kind.required Value.text?
    line := ← line.required Value.word?
    column := ← column.required Value.word?
    endLine := ← endLine.withDefault none (Value.nullable? Value.word?)
    endColumn := ← endColumn.withDefault none (Value.nullable? Value.word?)
    messageId := ← messageId.required Value.text?
    message := ← message.required Value.text?
    symbol := ← symbol.withDefault none (Value.nullable? Value.text?) }

/-- The severity that the kind names, or else the one that the code begins with. -/
def severity (m : Message) : Severity :=
  match m.kind with
  | "convention" | "info" | "information" => .convention
  | "refactor" => .refactor
  | "warning" => .warning
  | "error" => .error
  | "fatal" => .fatal
  | _ => (Severity.ofCode? m.messageId).getD .warning

/-- The range of a record. Without an end column it has no end; an end without a line is on the line
of the start. -/
def range (m : Message) : Range where
  start := ⟨m.line, m.column⟩
  stop := m.endColumn.map fun column => ⟨m.endLine.getD m.line, column⟩

/-- The finding that a record describes. -/
def toDiagnostic (m : Message) : Diagnostic :=
  ⟨m.severity, m.range, m.messageId, m.message, m.symbol⟩

end Message

/-- Why a report cannot be read. -/
inductive ReportError where
  /-- The report is not a JSON array. -/
  | notAnArray
deriving DecidableEq, Repr

/-- The wording of a report error. -/
def ReportError.message : ReportError → String
  | notAnArray => "linter output is not a JSON array"

/-- The findings of the records that can be read, in order. A repeated field counts as its last
occurrence. -/
def findings (records : List Value) : List Diagnostic :=
  records.filterMap fun record => (Message.ofJson? record.lastWins).map Message.toDiagnostic

/-- Reads a report. -/
def parseReport (output : String) : Except ReportError (List Diagnostic) :=
  if Text.isBlankText output then .ok []
  else
    match parseStrict? output with
    | some (.array records) => .ok (findings records)
    | _ => .error .notAnArray

end EditorInsight.Lint
