import EditorInsight.Cli.Check
import EditorInsight.Cli.Query
import EditorInsight.Interpreter
import EditorInsight.Runner

/-!
# Commands

What each command does: it looks at the files, starts programs by way of a launcher, and writes its
results. Checks and questions have modules of their own.

* `run`, `watch` and `interpreters` are the other commands.
* `Command.perform` is any of them.
-/

namespace EditorInsight.Cli

variable {m : Type → Type} [Monad m]

/-- How a run of a file ends. -/
def runOutcome (styled : Bool) (r : RunOutput) : Outcome :=
  let errors := if r.stderr.isEmpty then "" else Style.red.apply styled r.stderr
  match r.exitCode with
  | some 0 => { stdout := r.stdout, stderr := errors }
  | some code =>
    { stdout := r.stdout
      stderr := errors ++ Style.yellow.apply styled s!"Process exited with code {code}" ++ "\n"
      exit := (code % 256).toNat }
  | none =>
    { stdout := r.stdout
      stderr := errors ++ Style.red.apply styled "Process was terminated by a signal" ++ "\n"
      exit := 1 }

/-- Runs a file. -/
def run (s : Surroundings m) (c : Config.Settings) (file : Path) : m (Except Failure Outcome) := do
  match ← runFile s.launch c.interpreter file with
  | .ok r => return .ok (runOutcome s.styled r)
  | .error e => return .error ⟨"Failed to run " ++ file.text, [e.message, e.cause.message]⟩

/-- Begins to watch a file: it is opened, and the text that announces it is given. -/
def startWatch (s : Surroundings m) (c : Config.Settings) (file : Path) :
    Except Failure (Session × String) := do
  let (location, _) ← (s.files.find file).mapError fun e =>
    ⟨"Failed to resolve " ++ file.text, [e.message]⟩
  let path := FileSystem.absolute location
  let (session, _) ← ((Session.ofSettings c).openFile s.files path 0).mapError fun e =>
    match e with
    | .load _ os => ⟨e.message, [os.message]⟩
    | _ => ⟨e.message, []⟩
  return (session, Style.boldGreen.apply s.styled "Watching" ++ " " ++ path.text ++
    s!" (quiet interval {millisText c.lint.quietInterval}, Ctrl-C to stop)\n")

/-- Watches a file until the user interrupts, which is at once. -/
def watch (s : Surroundings m) (c : Config.Settings) (file : Path) : Except Failure Outcome := do
  let (_, announcement) ← startWatch s c file
  return { stdout := announcement }

/-- The line of an interpreter that was found. -/
def interpreterLine (styled : Bool) (configured : Option Path) (p : Path) : String :=
  if configured.any p.same then p.text ++ " " ++ Style.green.apply styled "(configured)" else p.text

/-- Lists the interpreters, and marks the one that the settings name by its path. -/
def interpreters (s : Surroundings m) (c : Config.Settings) : Outcome :=
  match discoverIn s.files (searchDirs s.searchPath s.home) with
  | [] => .lines [Style.yellow.apply s.styled "No Python interpreters found"]
  | found => .lines (found.map (interpreterLine s.styled (s.files.canonical? c.interpreter)))

/-- Carries out a command. -/
def Command.perform (s : Surroundings m) (c : Config.Settings) :
    Command → m (Except Failure Outcome)
  | .check paths format => Cli.check s c paths format
  | .query kind target => Cli.query s c kind target
  | .run file => Cli.run s c file
  | .watch file => return Cli.watch s c file
  | .interpreters => return .ok (Cli.interpreters s c)

end EditorInsight.Cli
