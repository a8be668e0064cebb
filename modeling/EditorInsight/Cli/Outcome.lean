import EditorInsight.Config.Load

/-!
# Outcomes of commands

What a command writes and how it ends. A command that fails tells why, and what was behind that.

* `Outcome` is what a command leaves behind.
* `Failure.report` is the text of a failure with its causes.
-/

namespace EditorInsight.Cli

/-- What a command leaves behind. -/
structure Outcome where
  /-- What was written to standard output. -/
  stdout : String := ""
  /-- What was written to standard error. -/
  stderr : String := ""
  /-- The exit code. -/
  exit : Nat := 0
deriving DecidableEq, Repr, Inhabited

/-- A text of lines. -/
def unlines (lines : List String) : String := String.join (lines.map (· ++ "\n"))

/-- Lines on standard output and a good end. -/
def Outcome.lines (lines : List String) : Outcome := { stdout := unlines lines }

/-- Why a command fails. -/
structure Failure where
  /-- What failed. -/
  message : String
  /-- What was behind it, the nearest cause first. -/
  causes : List String := []
deriving DecidableEq, Repr, Inhabited

namespace Failure

/-- A cause behind a label. Its further lines are indented as far as the first one. -/
def labelled (label cause : String) : String :=
  let blanks := String.ofList (List.replicate label.length ' ')
  "\n" ++ label ++ ("\n" ++ blanks).intercalate (cause.splitOn "\n")

/-- The label of a cause among several. -/
def numbered (n : Nat) : String :=
  let digits := toString n
  String.ofList (List.replicate (5 - digits.length) ' ') ++ digits ++ ": "

/-- The causes as text. A single one is indented, several are numbered. -/
def causeText : List String → String
  | [] => ""
  | [cause] => "\n\nCaused by:" ++ labelled "    " cause
  | causes =>
    "\n\nCaused by:" ++ String.join (causes.mapIdx fun n cause => labelled (numbered n) cause)

/-- The text of a failure. -/
def report (f : Failure) : String := "Error: " ++ f.message ++ causeText f.causes ++ "\n"

/-- The outcome of a command that fails. -/
def outcome (f : Failure) : Outcome := { stderr := f.report, exit := 1 }

end Failure

/-- The causes that settings cannot be loaded. -/
def configCauses (e : Config.ConfigError) : List String :=
  match e with
  | .io os => [e.message, os.message]
  | _ => [e.message]

end EditorInsight.Cli
