import EditorInsight.Glob.Expand

/-!
# Source files

Which files a list of files, directories and patterns stands for. A file stands for itself, whatever
it is called. A directory stands for the source files below it, except those in hidden directories
and in directories of installed or generated code; links below it are not followed. Anything else is
a pattern.

* `sourcesBelow` lists the source files below a directory.
* `collectSources` lists the files of several arguments, in order and each path only once.
-/

namespace EditorInsight

/-- The extension of source files. -/
def sourceExtension : String := "py"

/-- Whether a path is that of a source file, by its name. -/
def isSource (p : Path) : Bool := p.extension? == some sourceExtension

/-- Whether a directory of this name is passed over: a hidden one, or one of installed or generated
code. -/
def isIgnoredDirectory (name : String) : Bool :=
  name.toList.head? == some '.' || ["__pycache__", "venv", "node_modules"].contains name

mutual

/-- The source files that an entry at a path stands for: a file for itself, a directory for those
below it. What is in a directory with too long a path cannot be listed. -/
def sourcesUnder (p : Path) : Entry → List Path
  | .file .. => if isSource p then [p] else []
  | .directory entries => if FileSystem.isTooLong p then [] else sourcesAmong p entries
  | .link _ => []

/-- The source files among and below the entries of a directory. -/
def sourcesAmong (dir : Path) : List (String × Entry) → List Path
  | [] => []
  | (name, e) :: rest =>
    (if e.isDirectory && isIgnoredDirectory name then [] else sourcesUnder (dir.child name) e) ++
      sourcesAmong dir rest

end

/-- The source files below a directory, whatever the directory itself is called. -/
def sourcesBelow (fs : FileSystem) (dir : Path) : List Path := sourcesAmong dir (fs.entriesOf dir)

/-- An argument that is no file, no directory and no pattern. -/
structure InvalidPattern where
  /-- The argument. -/
  pattern : String
  /-- What is wrong with it. -/
  error : Glob.PatternError
deriving DecidableEq, Repr

/-- The files that a path from a pattern stands for. -/
def sourcesAt (fs : FileSystem) (p : Path) : List Path :=
  if fs.isDirectory p then sourcesBelow fs p else if isSource p then [p] else []

/-- The files that an argument stands for. -/
def sourcesOf (fs : FileSystem) (argument : String) : Except InvalidPattern (List Path) :=
  if fs.isFile ⟨argument⟩ then .ok [⟨argument⟩]
  else if fs.isDirectory ⟨argument⟩ then .ok (sourcesBelow fs ⟨argument⟩)
  else
    match Glob.parse argument with
    | .ok g => .ok ((g.expand fs).flatMap (sourcesAt fs))
    | .error e => .error ⟨argument, e⟩

/-- The files that several arguments stand for, in order and each path only once. -/
def collectSources (fs : FileSystem) (arguments : List String) :
    Except InvalidPattern (List Path) := do
  return Path.sorted (← arguments.mapM (sourcesOf fs)).flatten

end EditorInsight
