import EditorInsight.Cli.Style
import EditorInsight.Json.Print
import EditorInsight.Process

/-!
# Surroundings of commands

What a command finds around it: the files, the search path, the home directory, and a way to start
programs.

* `Surroundings` holds them.
* `jsonLine` is how results are written for programs.
-/

namespace EditorInsight.Cli

open Json

/-- What commands work on. -/
structure Surroundings (m : Type → Type) where
  /-- The files. -/
  files : FileSystem
  /-- The directories of the search path. -/
  searchPath : List Path := []
  /-- The home directory, if there is one. -/
  home : Option Path := none
  /-- Whether styles are shown. -/
  styled : Bool := false
  /-- Starts programs. -/
  launch : Launcher m

/-- A value as a line of compact text, its members ordered by their names. -/
def jsonLine (v : Value) : String := render v.sortNames ++ "\n"

end EditorInsight.Cli
