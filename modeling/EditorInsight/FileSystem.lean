import EditorInsight.Path
import EditorInsight.Text.Octets

/-!
# File systems

A tree of directories, files and symbolic links, with a current directory. A path is looked up part
by part from the current directory, or from the root if it is absolute; links on the way are
followed.

* `FileSystem.locate` finds what a path leads to, or where it would be created.
* `FileSystem.readText`, `writeText`, `exists`, `isFile`, `isDirectory`, `isExecutable` and
  `canonical?` answer the questions a program asks.
* `OsError` and its wording.
-/

namespace EditorInsight

/-- Why the system refuses an operation. -/
inductive OsError where
  | notFound
  /-- An argument of a program is too long. -/
  | argumentsTooLong
  /-- A file may be executed, but nothing tells how it is run. -/
  | unknownFormat
  | permissionDenied
  | notADirectory
  | isADirectory
  | nameTooLong
  | tooManyLinks
  /-- The path holds a null character. -/
  | nullInPath
  /-- A null character is in the name or an argument of a program. -/
  | nullInArgument
  /-- The file is no text. -/
  | invalidText
deriving DecidableEq, Repr, Inhabited

/-- The wording of an error. -/
def OsError.message : OsError → String
  | notFound => "No such file or directory (os error 2)"
  | argumentsTooLong => "Argument list too long (os error 7)"
  | unknownFormat => "Exec format error (os error 8)"
  | permissionDenied => "Permission denied (os error 13)"
  | notADirectory => "Not a directory (os error 20)"
  | isADirectory => "Is a directory (os error 21)"
  | nameTooLong => "File name too long (os error 36)"
  | tooManyLinks => "Too many levels of symbolic links (os error 40)"
  | nullInPath => "file name contained an unexpected NUL byte"
  | nullInArgument => "nul byte found in provided data"
  | invalidText => "stream did not contain valid UTF-8"

/-- What a file holds. -/
inductive Contents where
  | text (s : String)
  /-- Octets that are no text. -/
  | octets (bytes : List UInt8)
  /-- Machine code, which can only be executed. -/
  | program
deriving DecidableEq, Repr, Inhabited

/-- The contents of a file with the given octets. -/
def Contents.ofOctets (bytes : List UInt8) : Contents :=
  match Text.decode? bytes with
  | some s => .text s
  | none => .octets bytes

/-- The octets that can be read from a file. -/
def Contents.toOctets : Contents → List UInt8
  | text s => Text.encode s
  | octets bytes => bytes
  | program => []

/-- An entry of a directory. -/
inductive Entry where
  /-- A regular file with its permission bits. -/
  | file (mode : Nat) (contents : Contents)
  | directory (entries : List (String × Entry))
  /-- A symbolic link with its target. -/
  | link (target : String)
deriving Repr, Inhabited

/-- What is wanted of the last part of a path. -/
inductive LastPart where
  /-- The entry itself, be it a link. -/
  | entry
  /-- What the entry leads to. -/
  | target
  /-- What the entry leads to, or else a place for a new file. -/
  | file
deriving DecidableEq, Repr, Inhabited

/-- What a path leads to. -/
inductive Place where
  /-- An entry, by its names from the root. -/
  | occupied (location : List String) (entry : Entry)
  /-- No entry, but a directory in which one can be created. -/
  | vacant (directory : List String) (name : String)
deriving Repr, Inhabited

/-- A tree of files, and the directory in it from which relative paths start. -/
structure FileSystem where
  /-- The entries of the root. -/
  root : List (String × Entry) := []
  /-- The names that lead from the root to the current directory. -/
  current : List String := []
deriving Repr, Inhabited

namespace Entry

/-- The entry that a row of names leads to from an entry. -/
def follow? : Entry → List String → Option Entry
  | e, [] => some e
  | .directory entries, name :: names => (entries.lookup name).bind (follow? · names)
  | .file .., _ :: _ => none
  | .link _, _ :: _ => none

/-- The list of entries with one of them replaced, or added at the end. -/
def putIn (entries : List (String × Entry)) (name : String) (e : Entry) : List (String × Entry) :=
  if entries.any (·.1 == name) then entries.map fun (k, v) => if k == name then (k, e) else (k, v)
  else entries ++ [(name, e)]

/-- The entry with another one put at the end of a row of names. Directories on the way are created
where nothing is. -/
def put : Entry → List String → Entry → Entry
  | _, [], new => new
  | .directory entries, name :: names, new =>
    .directory (putIn entries name (put ((entries.lookup name).getD (.directory [])) names new))
  | e, _ :: _, _ => e

/-- Whether the entry is a regular file. -/
def isFile : Entry → Bool
  | .file .. => true
  | _ => false

/-- Whether the entry is a directory. -/
def isDirectory : Entry → Bool
  | .directory _ => true
  | _ => false

mutual

/-- How many directories are nested below the entry. -/
def height : Entry → Nat
  | .directory entries => heightOf entries + 1
  | .file .. | .link _ => 0

/-- The greatest height of an entry. -/
def heightOf : List (String × Entry) → Nat
  | [] => 0
  | (_, e) :: rest => max (height e) (heightOf rest)

end

end Entry

/-- How many links may be followed on the way to one entry. -/
def maxLinks : Nat := 40

/-- The longest name of an entry, in bytes. -/
def maxName : Nat := 255

/-- The longest path, in bytes. -/
def maxPath : Nat := 4095

namespace FileSystem

/-- The root as an entry. -/
def rootEntry (fs : FileSystem) : Entry := .directory fs.root

/-- The parts of a path between its slashes. -/
def parts (text : List Char) : List String := (Path.splitSlashes text).map String.ofList

/-- The entries of a directory, by its names from the root. -/
def entriesAt? (fs : FileSystem) (location : List String) : Option (List (String × Entry)) :=
  match fs.rootEntry.follow? location with
  | some (.directory entries) => some entries
  | _ => none

/-- Walks from a directory along the parts of a path. Empty parts and dots stay where they are, two
dots lead to the directory above. A link on the way is replaced by its target, unless the entry
itself is wanted. Where a file is wanted, a name with slashes behind it asks for a directory
instead, and is not even looked up. -/
def walk (fs : FileSystem) (last : LastPart) (links : Nat) (here : List String) :
    List String → Except OsError Place
  | [] => .ok (.occupied here (.directory ((fs.entriesAt? here).getD [])))
  | part :: rest =>
    if part == "" || part == "." then walk fs last links here rest
    else if part == ".." then walk fs last links here.dropLast rest
    else if last = .file && !rest.isEmpty && rest.all String.isEmpty then .error .isADirectory
    else if maxName < Text.byteLength part then .error .nameTooLong
    else
      match ((fs.entriesAt? here).getD []).lookup part with
      | none => if rest.isEmpty then .ok (.vacant here part) else .error .notFound
      | some (.directory _) => walk fs last links (here ++ [part]) rest
      | some (.file mode contents) =>
        if rest.isEmpty then .ok (.occupied (here ++ [part]) (.file mode contents))
        else .error .notADirectory
      | some (.link target) =>
        if rest.isEmpty && last = .entry then .ok (.occupied (here ++ [part]) (.link target))
        else
          match links with
          | 0 => .error .tooManyLinks
          | links + 1 =>
            -- a target goes on from the directory of the link, unless it begins at the root
            let cs := target.toList
            walk fs last links (if cs.head? == some '/' then [] else here) (parts cs ++ rest)
termination_by ps => (links, ps.length)

/-- What a path of any length leads to. -/
def trace (fs : FileSystem) (last : LastPart) (p : Path) : Except OsError Place :=
  if p.text.isEmpty then .error .notFound
  else walk fs last maxLinks (if p.isAbsolute then [] else fs.current) (parts p.text.toList)

/-- Whether a path is too long to be handed to the system. -/
def isTooLong (p : Path) : Bool := decide (maxPath < Text.byteLength p.text)

/-- What a path leads to. -/
def locate (fs : FileSystem) (last : LastPart) (p : Path) : Except OsError Place :=
  if p.text.toList.contains '\x00' then .error .nullInPath
  else if isTooLong p then .error .nameTooLong
  else fs.trace last p

/-- The entry that a path leads to, with its names from the root. -/
def find (fs : FileSystem) (p : Path) : Except OsError (List String × Entry) := do
  match ← fs.locate .target p with
  | .occupied location e => return (location, e)
  | .vacant .. => throw .notFound

/-- The entry that a path leads to, if there is one. -/
def find? (fs : FileSystem) (p : Path) : Option Entry :=
  (fs.find p).toOption.map (·.2)

/-- Whether a path leads to anything. -/
def exists? (fs : FileSystem) (p : Path) : Bool := (fs.find? p).isSome

/-- Whether there is an entry at a path, were it a link that leads nowhere. -/
def isPresent (fs : FileSystem) (p : Path) : Bool :=
  match fs.locate .entry p with
  | .ok (.occupied ..) => true
  | _ => false

/-- Whether a path leads to a regular file. -/
def isFile (fs : FileSystem) (p : Path) : Bool := (fs.find? p).any Entry.isFile

/-- Whether a path leads to a directory. -/
def isDirectory (fs : FileSystem) (p : Path) : Bool := (fs.find? p).any Entry.isDirectory

/-- The entries of the directory that a path leads to; none if it leads to no directory. -/
def entriesOf (fs : FileSystem) (p : Path) : List (String × Entry) :=
  match fs.find? p with
  | some (.directory entries) => entries
  | _ => []

/-- The longest chain of directories that one path can lead through, with all the links that may be
followed on the way. -/
def longestChain (fs : FileSystem) : Nat := (maxLinks + 1) * fs.rootEntry.height

/-- Whether somebody may execute a file with these permission bits. -/
def isExecutableMode (mode : Nat) : Bool := mode &&& 0o111 != 0

/-- Whether a path leads to a regular file that somebody may execute. -/
def isExecutable (fs : FileSystem) (p : Path) : Bool :=
  match fs.find? p with
  | some (.file mode _) => isExecutableMode mode
  | _ => false

/-- The absolute path of a row of names from the root. -/
def absolute (location : List String) : Path := ⟨"/" ++ "/".intercalate location⟩

/-- The path without links, dots and repeated slashes that leads to the same entry. It is found part
by part, so the path may have any length. -/
def canonical? (fs : FileSystem) (p : Path) : Option Path :=
  match fs.trace .target p with
  | .ok (.occupied location _) => some (absolute location)
  | _ => none

/-- The current directory as a path. -/
def currentPath (fs : FileSystem) : Path := absolute fs.current

/-- The text of a file. -/
def readText (fs : FileSystem) (p : Path) : Except OsError String := do
  match ← fs.find p with
  | (_, .file _ (.text s)) => return s
  | (_, .file _ _) => throw .invalidText
  | _ => throw .isADirectory

/-- The permission bits of a new file. -/
def defaultMode : Nat := 0o644

/-- Puts an entry at a row of names from the root. -/
def putAt (fs : FileSystem) (location : List String) (e : Entry) : FileSystem :=
  match fs.rootEntry.put location e with
  | .directory root => { fs with root := root }
  | _ => fs

/-- Writes a text to a file, in place of what it held. A file that is not there is created in its
directory. A directory cannot be written. -/
def writeText (fs : FileSystem) (p : Path) (s : String) : Except OsError FileSystem := do
  match ← fs.locate .file p with
  | .occupied location (.file mode _) => return fs.putAt location (.file mode (.text s))
  | .occupied .. => throw .isADirectory
  | .vacant directory name => return fs.putAt (directory ++ [name]) (.file defaultMode (.text s))

end FileSystem

end EditorInsight
