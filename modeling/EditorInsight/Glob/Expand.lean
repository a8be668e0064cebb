import EditorInsight.FileSystem
import EditorInsight.Glob.Pattern

/-!
# Expanding patterns

A pattern of paths has one pattern of names for each component, and stands for the paths of a file
system that follow it. Links are followed. A component without wildcards is looked up as it is; the
others are compared with the names of a directory, of which a leading dot is an ordinary character.
Only a pattern that itself begins with a dot also stands for the directory and the one above it.

* `Glob.parse` reads a pattern of paths.
* `Glob.expand` lists the paths that follow it, a directory before what is in it.
-/

namespace EditorInsight

/-- A pattern of paths. -/
structure Glob where
  /-- Where the paths start. -/
  start : Path
  /-- The patterns of the components. -/
  components : List (List Glob.Token)
  /-- Whether only directories follow the pattern: it ends with a slash. -/
  onlyDirectories : Bool
deriving DecidableEq, Repr, Inhabited

namespace Glob

/-- The current directory. -/
def here : Path := ⟨"."⟩

/-- The parts between the slashes. A slash at the end has no part behind it. -/
def partsOf (text : List Char) : List (List Char) :=
  let parts := Path.splitSlashes text
  if text.getLast? = some '/' then parts.dropLast else parts

/-- Reads a pattern of paths. The text as a whole and each of its components have to be patterns. -/
def parse (text : String) : Except PatternError Glob := do
  let cs := text.toList
  let _ ← Token.scan cs
  let absolute := cs.head? == some '/'
  return {
    start := if absolute then ⟨"/"⟩ else here
    components := ← (partsOf (if absolute then cs.tail else cs)).mapM Token.scan
    onlyDirectories := cs.getLast? == some '/' }

section Search

variable (fs : FileSystem)

/-- The path of an entry of a directory. In the current directory it is the name alone. -/
def entryPath (dir : Path) (name : String) : Path :=
  if dir.same here then ⟨name⟩ else dir.child name

/-- The names in a directory, in order. -/
def namesIn (dir : Path) : List String :=
  ((fs.entriesOf dir).map (·.1)).mergeSort fun a b => decide (a ≤ b)

/-- The entries below a directory at any depth, with their names. `depth` bounds the depth. -/
def below : Nat → Path → List (String × Path)
  | 0, _ => []
  | depth + 1, dir =>
    (namesIn fs dir).flatMap fun name =>
      let p := entryPath dir name
      (name, p) :: below depth p

/-- Whether a path may stand at the end of a pattern. -/
def mayEnd (onlyDirectories : Bool) (p : Path) : Bool := !onlyDirectories || fs.isDirectory p

/-- The names of a directory itself and of the one above it that follow a pattern. Only a pattern
that begins with a dot describes them. -/
def specialNames (tokens : List Token) : List String :=
  if tokens.head? = some (.char '.') then ["..", "."].filter fun s => Token.accepts tokens s.toList
  else []

/-- Whether a name without wildcards leads on from a directory. -/
def leadsOn (dir : Path) (name : String) : Bool :=
  if name = "." ∨ name = ".." then fs.isDirectory dir else fs.isPresent (entryPath dir name)

/-- The paths that follow the patterns of components, from a directory on. -/
def search (onlyDirectories : Bool) : List (List Token) → Path → List Path
  | [], p => if mayEnd fs onlyDirectories p then [p] else []
  | [.anyDepth] :: [.anyDepth] :: rest, dir => search onlyDirectories ([.anyDepth] :: rest) dir
  | [[.anyDepth]], dir => ((below fs fs.longestChain dir).map (·.2)).filter fs.isDirectory
  | [.anyDepth] :: tokens :: rest, dir =>
    (below fs fs.longestChain dir).flatMap fun (name, p) =>
      if Token.accepts tokens name.toList then search onlyDirectories rest p else []
  | tokens :: rest, dir =>
    match Token.literal? tokens with
    | some cs =>
      let name := String.ofList cs
      if leadsOn fs dir name then search onlyDirectories rest (entryPath dir name) else []
    | none =>
      -- the names that no directory lists come before those that it lists
      if fs.isDirectory dir then
        (specialNames tokens).flatMap (fun name => search onlyDirectories rest (dir.child name)) ++
          ((namesIn fs dir).filter fun name => Token.accepts tokens name.toList).flatMap
            fun name => search onlyDirectories rest (entryPath dir name)
      else []

end Search

/-- The paths that follow a pattern. -/
def expand (fs : FileSystem) (g : Glob) : List Path :=
  search fs g.onlyDirectories g.components g.start

end Glob

end EditorInsight
