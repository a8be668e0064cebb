import EditorInsight.Diagnostic

/-!
# Summaries

The findings as lines of text, for a panel or a terminal. Unlike the annotations, a summary lists
conventions too.

* `summaryLine` is the line of one finding.
* `summarize` is the text of a list of findings.
-/

namespace EditorInsight.Lint

/-- The mark in front of a line: a heavy exclamation mark or a warning sign. -/
def marker : IndicatorStyle → String
  | .hard => "\u2757\ufe0f"
  | .soft => "\u26a0\ufe0f"

/-- The width to which codes are padded, in characters. -/
def codeWidth : Nat := 6

/-- The text with spaces in front, up to the given width. -/
def alignRight (width : Nat) (s : String) : String :=
  String.ofList (List.replicate (width - s.length) ' ') ++ s

/-- Where a finding applies: the line, or both ends with their columns if it has an end. -/
def location (r : Range) : String :=
  let start := r.start
  match r.stop with
  | some stop => s!"{start.line}:{start.column}~{stop.line}:{stop.column}"
  | none => toString start.line

/-- The line of one finding: mark, code, message, symbol and location. -/
def summaryLine (d : Diagnostic) : String :=
  marker d.style ++ alignRight codeWidth d.code ++ ": " ++ d.message ++ "," ++ d.symbol.getD "" ++
    "(" ++ location d.range ++ ")"

/-- The lines of all findings, each ended by a newline. -/
def summarize (ds : List Diagnostic) : String :=
  String.join (ds.map fun d => summaryLine d ++ "\n")

end EditorInsight.Lint
