import EditorInsight.Config.Settings
import EditorInsight.Process

/-!
# Running files

Runs a file with the configured interpreter and keeps both outputs. A program that fails is an
outcome like any other; only an interpreter that cannot be started is an error.

* `runFile` runs a file.
-/

namespace EditorInsight

/-- What a run of a file left behind. -/
structure RunOutput where
  /-- Standard output as text. -/
  stdout : String
  /-- Standard error as text. -/
  stderr : String
  /-- The exit code; none if a signal ended the run. -/
  exitCode : Option Int
deriving DecidableEq, Repr, Inhabited

/-- Whether the run ended well. -/
def RunOutput.success (r : RunOutput) : Bool := r.exitCode == some 0

/-- An interpreter that cannot be started. -/
structure SpawnError where
  /-- The interpreter. -/
  program : Path
  /-- Why it cannot be started. -/
  cause : OsError
deriving DecidableEq, Repr

/-- The wording of an error. -/
def SpawnError.message (e : SpawnError) : String :=
  "Failed to start " ++ e.program.text ++ ": " ++ e.cause.message

/-- The outputs of a run as texts. -/
def RunOutput.of (f : Finished) : RunOutput :=
  ⟨Text.decodeLossy f.stdout, Text.decodeLossy f.stderr, f.status.code?⟩

/-- Runs a file with an interpreter. -/
def runFile {m : Type → Type} [Monad m] (launch : Launcher m) (interpreter : Path)
    (file : Path) : m (Except SpawnError RunOutput) := do
  match ← launch { program := interpreter, args := [file.text] } with
  | .ok f => return .ok (.of f)
  | .error e => return .error ⟨interpreter, e⟩

end EditorInsight
