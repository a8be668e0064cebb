import EditorInsight.Cli.Program

/-!
# Described workspaces

A workspace as a document: the current directory, what is in it, where programs are looked up, and
what the programs that are started leave behind, one after the other. The command line program on a
described workspace starts nothing and changes nothing.

* `Workspace.ofJson?` reads a description.
* `Workspace.execute` is the program on a described workspace.
-/

namespace EditorInsight.Cli

open Json

/-- What is known of a place where commands are carried out. -/
structure Workspace where
  /-- The files. -/
  files : FileSystem
  /-- The directories of the search path. -/
  searchPath : List Path
  /-- The home directory, if there is one. -/
  home : Option Path
  /-- Whether styles are shown. -/
  styled : Bool
  /-- What the programs that are started leave behind. The last one repeats. -/
  runs : List Finished
deriving Repr, Inhabited

namespace Workspace

/-- The names that a path consists of. -/
def names (text : String) : List String :=
  (FileSystem.parts text.toList).filter fun s => s != "" && s != "."

/-- Reads an entry and its path: a link if it has a target, and otherwise a file, which holds a text
or is a program. -/
def entryOf? (v : Value) : Option (String × Entry) := do
  let [path, text, mode, target, program] ←
    v.fields? ["path", "text", "mode", "link", "program"] | none
  let path ← path.required Value.text?
  match ← target.withDefault none (Value.nullable? Value.text?) with
  | some target => return (path, .link target)
  | none =>
    let text ← text.withDefault "" Value.text?
    let contents := if ← program.withDefault false Value.bool? then Contents.program else .text text
    return (path, .file (← mode.withDefault FileSystem.defaultMode Value.word?) contents)

/-- Reads what a program leaves behind. -/
def finishedOf? (v : Value) : Option Finished := do
  let [stdout, stderr, exit, signal, duration] ←
    v.fields? ["stdout", "stderr", "exit", "signal", "duration"] | none
  let exit ← exit.withDefault 0 Value.word?
  return {
    stdout := Text.encode (← stdout.withDefault "" Value.text?)
    stderr := Text.encode (← stderr.withDefault "" Value.text?)
    status := match ← signal.withDefault none (Value.nullable? Value.word?) with
      | some signal => .signaled signal
      | none => .exited (exit % 256)
    duration := ← duration.withDefault 0 Value.word? }

/-- Reads a description. Relative paths start in the current directory. -/
def ofJson? (v : Value) : Option Workspace := do
  let [directory, entries, searchPath, home, styled, runs] ←
    v.fields? ["directory", "entries", "path", "home", "styled", "runs"] | none
  let current := names (← directory.required Value.text?)
  let entries ← entries.withDefault [] (Value.list? entryOf?)
  let start : FileSystem := { current := current }
  let place (fs : FileSystem) (entry : String × Entry) : FileSystem :=
    let absolute := Path.isAbsolute ⟨entry.1⟩
    fs.putAt ((if absolute then [] else current) ++ names entry.1) entry.2
  let home ← home.withDefault none (Value.nullable? Value.text?)
  return {
    files := entries.foldl place (start.putAt current (.directory []))
    searchPath := splitSearchPath (← searchPath.withDefault "" Value.text?)
    home := home.map Path.mk
    styled := ← styled.withDefault false Value.bool?
    runs := ← runs.withDefault [] (Value.list? finishedOf?) }

/-- What comes of starting a program: the file of the program has to be there, and then the next
run is used up, unless it is the last. -/
def launch (w : Workspace) : Launcher (StateM (List Finished)) := fun i => do
  match resolveProgram w.files w.searchPath i, ← get with
  | .error e, _ => return .error e
  | .ok _, [] => return .error .notFound
  | .ok _, [run] => return .ok run
  | .ok _, run :: next :: rest =>
    set (next :: rest)
    return .ok run

/-- The program on a described workspace. -/
def execute (w : Workspace) (args : List String) : Outcome :=
  (Id.run ((Cli.execute ⟨w.files, w.searchPath, w.home, w.styled, w.launch⟩ args).run w.runs)).1

end Workspace

end EditorInsight.Cli
