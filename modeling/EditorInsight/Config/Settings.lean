import EditorInsight.Path

/-!
# Settings

What can be configured: the interpreter that runs programs, how the linter is called and how long
edits have to rest before it is, and how the analysis engine is used.

* `Settings`, `LintSettings` and `AnalysisSettings`, each with its default.
* `Settings.withBaseDir` resolves relative paths against a directory.
-/

namespace EditorInsight.Config

/-- Settings of the linter. -/
structure LintSettings where
  /-- Whether buffers are checked in the background at all. -/
  enabled : Bool := true
  /-- The linter's own configuration file. -/
  rcfile : Option Path := none
  /-- Arguments in front of the path of the file. -/
  extraArgs : List String := []
  /-- How long a buffer has to rest after an edit before it is checked, in milliseconds. -/
  quietInterval : Nat := 5000
deriving DecidableEq, Repr, Inhabited

/-- Settings of the analysis engine. -/
structure AnalysisSettings where
  /-- Whether answers are kept as long as the text stays the same. -/
  cache : Bool := false
  /-- How long one call of the helper may take, in milliseconds. -/
  timeout : Nat := 10000
deriving DecidableEq, Repr, Inhabited

/-- The settings as a whole. -/
structure Settings where
  /-- The interpreter that runs programs, the linter and the analysis helper. -/
  interpreter : Path := ⟨"python3"⟩
  /-- Settings of the linter. -/
  lint : LintSettings := {}
  /-- Settings of the analysis engine. -/
  analysis : AnalysisSettings := {}
deriving DecidableEq, Repr, Inhabited

namespace Settings

/-- A path below a directory, unless it is absolute. -/
def resolveIn (base p : Path) : Path := if p.isAbsolute then p else base.join p

/-- Whether an interpreter is given by a relative path of several components. A bare name is not:
it is looked up where programs are installed. -/
def isRelativeProgram (p : Path) : Bool := !p.isAbsolute && 1 < p.components.length

/-- Resolves the relative paths of the settings against a directory. -/
def withBaseDir (c : Settings) (base : Path) : Settings where
  interpreter := if isRelativeProgram c.interpreter then base.join c.interpreter else c.interpreter
  lint := { c.lint with rcfile := c.lint.rcfile.map (resolveIn base) }
  analysis := c.analysis

end Settings

end EditorInsight.Config
