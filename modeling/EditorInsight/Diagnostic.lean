import EditorInsight.Position

/-!
# Findings of a linter

What a linter has to say about a place in a text, how severe it is, and how it is drawn.

* `Severity.ofCode?` reads the severity off the first letter of a message code.
* `Diagnostic.isRendered`: conventions are listed but not drawn.
* `Diagnostic.style`: the first letter of the code decides how a finding is drawn.
-/

namespace EditorInsight

/-- How severe a finding is, from harmless to fatal. -/
inductive Severity where
  | convention
  | refactor
  | warning
  | error
  | fatal
deriving DecidableEq, Repr, Inhabited

namespace Severity

/-- The severity that a message code begins with, by its category letter. -/
def ofCode? (code : String) : Option Severity :=
  match code.toList with
  | 'C' :: _ | 'I' :: _ => some convention
  | 'R' :: _ => some refactor
  | 'W' :: _ => some warning
  | 'E' :: _ => some error
  | 'F' :: _ => some fatal
  | _ => none

/-- The name of a severity. -/
def name : Severity → String
  | convention => "convention"
  | refactor => "refactor"
  | warning => "warning"
  | error => "error"
  | fatal => "fatal"

/-- All severities with their names. -/
def names : List (String × Severity) :=
  [convention, refactor, warning, error, fatal].map fun s => (s.name, s)

end Severity

/-- How a finding is drawn: with a hard or a soft underline. -/
inductive IndicatorStyle where
  | hard
  | soft
deriving DecidableEq, Repr, Inhabited

namespace IndicatorStyle

/-- The colour of the underline. -/
def color : IndicatorStyle → String
  | hard => "red"
  | soft => "#ffcc00"

/-- The name of a style. -/
def name : IndicatorStyle → String
  | hard => "Hard"
  | soft => "Soft"

/-- All styles with their names. -/
def names : List (String × IndicatorStyle) :=
  [hard, soft].map fun s => (s.name, s)

end IndicatorStyle

/-- One finding of a linter. -/
structure Diagnostic where
  /-- How severe it is. -/
  severity : Severity
  /-- Where it applies. -/
  range : Range
  /-- The code of the message, such as `E0602`. -/
  code : String
  /-- The message. -/
  message : String
  /-- The symbolic name of the message, such as `undefined-variable`. -/
  symbol : Option String
deriving DecidableEq, Repr, Inhabited

namespace Diagnostic

/-- A finding at a single place, with the severity that its code begins with; a code without one
makes a warning. -/
def ofCode (start : Position) (code message : String) : Diagnostic where
  severity := (Severity.ofCode? code).getD .warning
  range := .point start
  code := code
  message := message
  symbol := none

/-- Whether the finding is drawn. Conventions would be too many. -/
def isRendered (d : Diagnostic) : Bool := d.severity != .convention

/-- How the finding is drawn: hard for the codes of errors and fatal errors, soft for all others.
The code decides, whatever the severity says. -/
def style (d : Diagnostic) : IndicatorStyle :=
  match d.code.toList with
  | 'E' :: _ | 'F' :: _ => .hard
  | _ => .soft

end Diagnostic

end EditorInsight
