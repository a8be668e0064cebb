import EditorInsight.Cli.Workspace

/-!
# The command line

Reads the description of a workspace from standard input, carries out the arguments on it, writes
what the command wrote, and ends as the command ended.
-/

namespace EditorInsight.Cli

/-- The exit code for an input that describes no workspace. -/
def noWorkspace : UInt32 := 70

end EditorInsight.Cli

open EditorInsight EditorInsight.Cli

/-- The program. -/
def main (args : List String) : IO UInt32 := do
  let text ← (← IO.getStdin).readToEnd
  match (Json.parse? text).bind Workspace.ofJson? with
  | none =>
    IO.eprintln "standard input describes no workspace"
    return noWorkspace
  | some w =>
    let outcome := w.execute args
    IO.print outcome.stdout
    IO.eprint outcome.stderr
    return outcome.exit.toUInt32
