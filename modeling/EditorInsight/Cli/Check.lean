import EditorInsight.Cli.Arguments
import EditorInsight.Cli.Outcome
import EditorInsight.Cli.Surroundings
import EditorInsight.Lint.Pylint
import EditorInsight.Lint.Summary
import EditorInsight.Serial.Finding
import EditorInsight.Sources

/-!
# Checking files

Checks files one after the other and writes what is found, for people with a verdict at the end.
Errors make the command end badly, warnings do not.

* `Checked.human` and `Checked.json` write the findings of one file.
* `checkOutcome` is the outcome for all of them.
* `check` is the command.
-/

namespace EditorInsight.Cli

open Json Lint

/-- A file with its findings. -/
structure Checked where
  /-- The file. -/
  file : Path
  /-- The findings in it. -/
  findings : List Diagnostic
deriving DecidableEq, Repr

namespace Checked

/-- The style of a finding's line: errors are red, what is drawn in the editor is yellow, and all
else is dim. -/
def lineStyle (d : Diagnostic) : Style :=
  match d.style with
  | .hard => .red
  | .soft => if d.isRendered then .yellow else .dim

/-- The findings for people: the path and a line for each finding. A file without findings is not
mentioned. -/
def human (styled : Bool) (c : Checked) : String :=
  if c.findings.isEmpty then ""
  else
    "\n" ++ unlines (Style.bold.apply styled c.file.text ::
      c.findings.map fun d => (lineStyle d).apply styled (summaryLine d))

/-- The findings for programs: a line for each. -/
def json (c : Checked) : String :=
  String.join <| c.findings.map fun d =>
    jsonLine (.object [("file", .string c.file.text), ("style", d.style.toJson),
      ("diagnostic", d.toJson)])

end Checked

/-- How many findings are of a style. -/
def countStyle (style : IndicatorStyle) (cs : List Checked) : Nat :=
  (cs.flatMap (·.findings)).countP (·.style == style)

/-- The last line for people. -/
def verdict (styled : Bool) (errors warnings : Nat) : String :=
  if errors = 0 ∧ warnings = 0 then Style.boldGreen.apply styled "✓ No issues found!"
  else if errors = 0 then Style.boldYellow.apply styled s!"✓ Passed with {warnings} warning(s)"
  else Style.red.apply styled s!"✗ Found {errors} error(s) and {warnings} warning(s)"

/-- What a check of files writes and how it ends. -/
def checkOutcome (styled : Bool) (format : Format) (cs : List Checked) : Outcome :=
  let errors := countStyle .hard cs
  { stdout :=
      match format with
      | .human =>
        String.join (cs.map (·.human styled)) ++ "\n" ++
          verdict styled errors (countStyle .soft cs) ++ "\n"
      | .json => String.join (cs.map (·.json))
    exit := if errors = 0 then 0 else 1 }

variable {m : Type → Type} [Monad m]

/-- Checks files one after the other. -/
def checkFiles (linter : Linter m) : List Path → m (List Checked)
  | [] => return []
  | file :: rest => do
    let findings ← Lint.check linter file
    return ⟨file, findings⟩ :: (← checkFiles linter rest)

/-- Checks the files that the arguments stand for. -/
def check (s : Surroundings m) (c : Config.Settings) (arguments : List String) (format : Format) :
    m (Except Failure Outcome) := do
  if !c.lint.enabled then
    return .ok (.lines [Style.yellow.apply s.styled "Linting is disabled in the config"])
  match collectSources s.files arguments with
  | .error e => return .error ⟨"Invalid pattern " ++ e.pattern, [e.error.message]⟩
  | .ok [] =>
    return .ok { stderr := Style.red.apply s.styled "No Python files found" ++ "\n", exit := 1 }
  | .ok files =>
    let linter := (Pylint.ofSettings c).linter s.launch
    return .ok (checkOutcome s.styled format (← checkFiles linter files))

end EditorInsight.Cli
