import EditorInsight.Config.Settings
import EditorInsight.Lint.Run
import EditorInsight.Process

/-!
# Pylint

The linter that runs as a module of the configured interpreter and reports in JSON.

* `Pylint.arguments` are the arguments of the interpreter.
* `Pylint.linter` is the linter.
-/

namespace EditorInsight.Lint

/-- How the linter is called. -/
structure Pylint where
  /-- The interpreter. -/
  interpreter : Path
  /-- The linter's own configuration file. -/
  rcfile : Option Path := none
  /-- Arguments in front of the path of the file. -/
  extraArgs : List String := []
deriving DecidableEq, Repr

namespace Pylint

/-- The linter that the settings ask for. -/
def ofSettings (c : Config.Settings) : Pylint := ⟨c.interpreter, c.lint.rcfile, c.lint.extraArgs⟩

/-- The arguments of the interpreter for a check of a file. -/
def arguments (l : Pylint) (file : Path) : List String :=
  ["-m", "pylint", "--output-format=json"] ++
    (l.rcfile.map fun rc => "--rcfile=" ++ rc.text).toList ++ l.extraArgs ++ [file.text]

/-- The linter, run by way of `launch`. -/
def linter {m : Type → Type} [Monad m] (l : Pylint) (launch : Launcher m) : Linter m :=
  fun file => do
    match ← launch { program := l.interpreter, args := l.arguments file } with
    | .ok f => return .ok ⟨f.status.code?, Text.decodeLossy f.stdout⟩
    | .error _ => return .error ⟨"failed to start " ++ l.interpreter.text⟩

end Pylint

end EditorInsight.Lint
