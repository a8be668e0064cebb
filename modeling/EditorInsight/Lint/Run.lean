import EditorInsight.Lint.Report
import EditorInsight.Path

/-!
# Runs of a linter

What a run of a linter leaves behind, what its exit code says, and the findings it comes to. A
linter that cannot be run, or whose report cannot be read, has no findings; whatever can be read
counts, also after an abnormal exit.

* `ExitClass.ofCode` classifies exit codes.
* `LintRun.findings` and `check` turn runs into findings.
-/

namespace EditorInsight.Lint

/-- What a run of a linter leaves behind. -/
structure LintRun where
  /-- The exit code; none if a signal ended the run. -/
  exitCode : Option Int
  /-- What was written to standard output. -/
  stdout : String
deriving DecidableEq, Repr, Inhabited

/-- Why a linter could not be run, in words. -/
structure LintFailure where
  /-- The wording. -/
  message : String
deriving DecidableEq, Repr, Inhabited

/-- A linter: given a path, it reads the file there and reports. -/
abbrev Linter (m : Type → Type) := Path → m (Except LintFailure LintRun)

/-- What an exit code of the linter means. -/
inductive ExitClass where
  | clean
  | findingsPresent
  | toolFailure
deriving DecidableEq, Repr

namespace ExitClass

/-- Zero is a clean run. The five lowest bits stand for the kinds of findings; with any other bit,
or without a code, the linter itself has failed. -/
def ofCode : Option Int → ExitClass
  | none => toolFailure
  | some code =>
    if code = 0 then clean
    else if 1 ≤ code ∧ code ≤ 31 then findingsPresent
    else toolFailure

/-- The name of a class. -/
def name : ExitClass → String
  | clean => "Clean"
  | findingsPresent => "FindingsPresent"
  | toolFailure => "ToolFailure"

end ExitClass

/-- The findings of a run. -/
def LintRun.findings (run : LintRun) : List Diagnostic :=
  (parseReport run.stdout).toOption.getD []

/-- The findings of what came of a run. -/
def findingsOf : Except LintFailure LintRun → List Diagnostic
  | .ok run => run.findings
  | .error _ => []

/-- Runs the linter on a file. -/
def check {m : Type → Type} [Monad m] (linter : Linter m) (path : Path) : m (List Diagnostic) :=
  return findingsOf (← linter path)

end EditorInsight.Lint
