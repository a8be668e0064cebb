import EditorInsight.Cli.Command

/-!
# The command line program

Reads the arguments, loads the settings and carries out the command. Settings come from the file
that is named, or from the nearest one; a command line that makes no sense ends before anything is
loaded.

* `execute` is the program as a function of its arguments and surroundings.
-/

namespace EditorInsight.Cli

/-- The name of the program. -/
def programName : String := "pyedit"

/-- The version of the program. -/
def programVersion : String := "0.1.1"

/-- How the program is used. -/
def usageText : String :=
  unlines <|
    ("Usage: " ++ programName ++ " [-c FILE] [-v] COMMAND [ARGUMENTS]") :: "" :: "Commands:" ::
      CommandName.names.map fun (name, command) =>
        "  " ++ " ".intercalate (name :: command.parameters.map fun p => p.name.toUpper)

/-- How the program ends when there is no command to carry out. -/
def Stop.outcome : Stop → Outcome
  | help => { stdout := usageText }
  | version => .lines [programName ++ " " ++ programVersion]
  | usage e => { stderr := "error: " ++ e.message ++ "\n", exit := 2 }

/-- The settings of a file, or else the nearest ones. -/
def loadSettings (files : FileSystem) : Option Path → Except Failure Config.Settings
  | some path => (Config.loadConfig files path).mapError fun e =>
      ⟨"Failed to load config " ++ path.text, configCauses e⟩
  | none => (Config.loadNearest files files.currentPath).mapError fun e =>
      ⟨"Failed to load config", configCauses e⟩

variable {m : Type → Type} [Monad m]

/-- Carries out a request. -/
def Request.perform (s : Surroundings m) (r : Request) : m (Except Failure Outcome) := do
  match loadSettings s.files r.config with
  | .ok c => r.command.perform s c
  | .error f => return .error f

/-- The program. -/
def execute (s : Surroundings m) (args : List String) : m Outcome := do
  match parseArguments args with
  | .error stop => return stop.outcome
  | .ok r =>
    match ← r.perform s with
    | .ok outcome => return outcome
    | .error f => return f.outcome

end EditorInsight.Cli
