import EditorInsight.FileSystem
import EditorInsight.Identifier

/-!
# Buffers

The live text of one open file. Every change of the text raises the generation by one, so that
results computed for an older text can be recognised. Stub files are read-only.

* `Change` is a change as data, `Buffer.apply` performs it.
* `Buffer.load` and `Buffer.save` read and write the file.
* `EditError` says why a change is refused.
-/

namespace EditorInsight

/-- Why a change is refused. -/
inductive EditError where
  | readOnly (path : Path)
  /-- The offset is past the end, inside a character, or behind the end of a range. -/
  | invalidOffset (offset length : Nat)
deriving DecidableEq, Repr

/-- The wording of an error. -/
def EditError.message : EditError → String
  | readOnly path => "Buffer is read-only: " ++ path.text
  | invalidOffset offset length =>
    s!"Offset {offset} is not a valid edit position (buffer length {length})"

/-- The extension of stub files, which describe code and are not edited. -/
def stubExtension : String := "pyi"

/-- The live text of an open file. -/
structure Buffer where
  /-- The file. -/
  path : Path
  /-- The text. -/
  text : String
  /-- How many times the text has been changed. -/
  generation : Nat := 0
deriving DecidableEq, Repr, Inhabited

/-- A change of a buffer. -/
inductive Change where
  /-- Replaces the whole text. -/
  | setText (text : String)
  /-- Inserts a text at an offset. -/
  | insert (offset : Nat) (text : String)
  /-- Deletes the text between two offsets. -/
  | delete (start stop : Nat)
  /-- Replaces the partial word before an offset by a label. -/
  | complete (offset : Nat) (label : String)
  /-- Points the buffer at another file. -/
  | setPath (path : Path)
  /-- Changes nothing. -/
  | nothing
deriving DecidableEq, Repr, Inhabited

namespace Buffer

/-- The characters of the text. -/
def chars (b : Buffer) : List Char := b.text.toList

/-- The length of the text in bytes. -/
def length (b : Buffer) : Nat := Text.byteLength b.text

/-- Whether the buffer may not be changed. -/
def isReadOnly (b : Buffer) : Bool := b.path.extension? == some stubExtension

/-- The error of an offset. -/
def offsetError (b : Buffer) (offset : Nat) : EditError := .invalidOffset offset b.length

/-- Refuses to change a read-only buffer. -/
def ensureWritable (b : Buffer) : Except EditError Unit :=
  if b.isReadOnly then .error (.readOnly b.path) else .ok ()

/-- Refuses an offset that is past the end or inside a character. -/
def checkOffset (b : Buffer) (offset : Nat) : Except EditError Unit :=
  if Text.isBoundary b.chars offset then .ok () else .error (b.offsetError offset)

/-- The buffer with another text, one generation on. -/
def withChars (b : Buffer) (cs : List Char) : Buffer :=
  { b with text := String.ofList cs, generation := b.generation + 1 }

/-- Replaces the text between two offsets, if these are boundaries in order. -/
def splice (b : Buffer) (start stop : Nat) (new : List Char) : Except EditError Buffer :=
  match Text.splice? b.chars start stop new with
  | some cs => .ok (b.withChars cs)
  | none => .error (b.offsetError start)

/-- Where the partial word before an offset begins. -/
def wordStart (b : Buffer) (offset : Nat) : Nat :=
  match identifierAt? b.text offset with
  | some (start, _) => min start offset
  | none => offset

/-- Performs a change. A completion also gives the offset behind the label. -/
def apply (b : Buffer) : Change → Except EditError (Buffer × Option Nat)
  | .setText text => do
    b.ensureWritable
    return (b.withChars text.toList, none)
  | .insert offset text => do
    b.ensureWritable
    b.checkOffset offset
    return (← b.splice offset offset text.toList, none)
  | .delete start stop => do
    b.ensureWritable
    b.checkOffset start
    b.checkOffset stop
    return (← b.splice start stop [], none)
  | .complete offset label => do
    b.ensureWritable
    b.checkOffset offset
    let start := b.wordStart offset
    return (← b.splice start offset label.toList, some (start + Text.byteLength label))
  | .setPath path => .ok ({ b with path := path }, none)
  | .nothing => .ok (b, none)

/-- Reads a file into a new buffer. -/
def load (fs : FileSystem) (path : Path) : Except OsError Buffer := do
  return { path := path, text := ← fs.readText path }

/-- Writes the text to the file. -/
def save (fs : FileSystem) (b : Buffer) : Except OsError FileSystem :=
  fs.writeText b.path b.text

end Buffer

end EditorInsight
