import EditorInsight.Buffer
import EditorInsight.Config.Settings
import EditorInsight.Debouncer
import EditorInsight.Lint.Summary
import EditorInsight.Painting

/-!
# Editing sessions

The open buffers of an editor. Each has its own timer and its own layers; at most one of them is
active, and only the active one is armed by edits.

* `Session` is the state, `OpenBuffer` that of one buffer.
* `openBuffer`, `openFile`, `activate`, `close`, `save`, `rename`, `edit`, `hover` and `clearHover`
  are what an editor does with buffers; each leaves the session alone when it fails.
* `editBy` is an edit by any way to paint. An edit paints, so a build that checks its sums may stop at
  it: `edit?` is an edit in any build, and `edit` in one that does not stop.
* `SessionError` says why an operation fails.

The cycle of checks is in `EditorInsight.Session.Check`.
-/

namespace EditorInsight

/-- Identifies a buffer as long as the session lasts. -/
abbrev BufferId := Nat

/-- The name of a buffer. -/
def BufferId.label (id : BufferId) : String := s!"#{id}"

/-- Why an operation on a session fails. -/
inductive SessionError where
  /-- The file cannot be read. -/
  | load (path : Path) (e : OsError)
  /-- The file cannot be written. -/
  | io (e : OsError)
  | unknownBuffer (id : BufferId)
  /-- The change is refused. -/
  | edit (e : EditError)
deriving DecidableEq, Repr

/-- The wording of an error. -/
def SessionError.message : SessionError → String
  | load path e => "Failed to read " ++ path.text ++ ": " ++ e.message
  | io e => "IO error: " ++ e.message
  | unknownBuffer id => "Unknown buffer: " ++ id.label
  | edit e => e.message

/-- The state of one open buffer. -/
structure OpenBuffer where
  /-- The text. -/
  buffer : Buffer
  /-- The timer. -/
  debouncer : Debouncer
  /-- What is drawn over the text. -/
  layers : Layers := {}
  /-- The findings of the last check that was applied. -/
  diagnostics : List Diagnostic := []
  /-- Whether a check has been issued and not yet completed. -/
  inFlight : Bool := false
deriving DecidableEq, Repr, Inhabited

namespace OpenBuffer

/-- Restarts the rest before the next check. -/
def arm (o : OpenBuffer) (now : Nat) : OpenBuffer := { o with debouncer := o.debouncer.arm now }

/-- Stops waiting for the next check. -/
def cancel (o : OpenBuffer) : OpenBuffer := { o with debouncer := o.debouncer.cancel }

/-- Removes the underline under the pointer. -/
def clearUnderline (o : OpenBuffer) : OpenBuffer := { o with layers := o.layers.clearUnderline }

/-- The state after the buffer was changed. What is painted is painted again over the new text, so
that findings keep their lines and columns. -/
def changedBy {m : Type → Type} [Monad m] (paint : Painter m) (o : OpenBuffer) (b : Buffer) :
    m OpenBuffer := do
  let layers := o.layers.clearUnderline
  let painted :=
    if layers.annotations.isEmpty then pure layers else layers.applyBy paint b.text o.diagnostics
  return { o with buffer := b, layers := ← painted }

/-- The state after the buffer was changed in a build that does not stop. -/
def changed (o : OpenBuffer) (b : Buffer) : OpenBuffer := Id.run (o.changedBy .unchecked b)

/-- The state after the buffer was pointed at another file: its findings were those of the old
one. -/
def renamed (o : OpenBuffer) (path : Path) : OpenBuffer :=
  { o with
    buffer := { o.buffer with path := path }
    diagnostics := []
    layers := o.layers.clear
    debouncer := o.debouncer.reset }

/-- The file system after the buffer was written, unless it is read-only. A failed write is
passed over. -/
def flush (o : OpenBuffer) (fs : FileSystem) : FileSystem :=
  if o.buffer.isReadOnly then fs
  else
    match o.buffer.save fs with
    | .ok fs => fs
    | .error _ => fs

end OpenBuffer

/-- The open buffers of an editor. -/
structure Session where
  /-- The buffers by their identities, which ascend. -/
  buffers : List (BufferId × OpenBuffer) := []
  /-- The buffer that has the focus. -/
  active : Option BufferId := none
  /-- The identity of the next buffer. -/
  nextId : BufferId := 0
  /-- How long edits have to rest before a check. -/
  quiet : Nat
  /-- Whether buffers are checked at all. -/
  lintEnabled : Bool := true
deriving DecidableEq, Repr, Inhabited

namespace Session

/-- A session without buffers. -/
def ofQuiet (quiet : Nat) : Session := { quiet := quiet }

/-- A session without buffers, with the given settings. -/
def ofSettings (c : Config.Settings) : Session :=
  { quiet := c.lint.quietInterval, lintEnabled := c.lint.enabled }

/-- The state of a buffer. -/
def get? (s : Session) (id : BufferId) : Option OpenBuffer := s.buffers.lookup id

/-- The state of a buffer that has to be open. -/
def get (s : Session) (id : BufferId) : Except SessionError OpenBuffer :=
  match s.get? id with
  | some o => .ok o
  | none => .error (.unknownBuffer id)

/-- Changes the state of one buffer, if it is open. -/
def modify (s : Session) (id : BufferId) (f : OpenBuffer → OpenBuffer) : Session :=
  { s with buffers := s.buffers.map fun (k, o) => if k = id then (k, f o) else (k, o) }

/-- Replaces the state of one buffer, if it is open. -/
def put (s : Session) (id : BufferId) (o : OpenBuffer) : Session := s.modify id fun _ => o

/-- Restarts the rest of a buffer, if it is the active one. -/
def armIfActive (s : Session) (id : BufferId) (now : Nat) : Session :=
  if s.active = some id then s.modify id (·.arm now) else s

/-! ### Looking -/

/-- The first buffer of a path. -/
def findByPath (s : Session) (path : Path) : Option BufferId :=
  (s.buffers.find? fun (_, o) => o.buffer.path.same path).map (·.1)

/-- The summary of a buffer's findings. -/
def summary (s : Session) (id : BufferId) : Option String :=
  (s.get? id).map fun o => Lint.summarize o.diagnostics

/-- Whether a check of a buffer has been issued and not yet completed. -/
def isInFlight (s : Session) (id : BufferId) : Bool := (s.get? id).any (·.inFlight)

/-- The first time at which a check may be due. A buffer whose check is under way has none. -/
def nextDeadline (s : Session) : Option Nat :=
  (s.buffers.filterMap fun (_, o) => if o.inFlight then none else o.debouncer.deadline).min?

/-! ### Opening and closing -/

/-- Opens a buffer and gives it the focus. The buffer that had the focus stops waiting. -/
def openBuffer (s : Session) (b : Buffer) (now : Nat) : Session × BufferId :=
  let id := s.nextId
  let opened : OpenBuffer := { buffer := b, debouncer := { quiet := s.quiet } }
  let s := match s.active with
    | some previous => s.modify previous OpenBuffer.cancel
    | none => s
  let s := { s with buffers := s.buffers ++ [(id, opened)], nextId := id + 1, active := some id }
  (s.armIfActive id now, id)

/-- Reads a file into a new buffer and gives it the focus. -/
def openFile (s : Session) (fs : FileSystem) (path : Path) (now : Nat) :
    Except SessionError (Session × BufferId) := do
  let b ← (Buffer.load fs path).mapError (.load path)
  return s.openBuffer b now

/-- Closes a buffer after writing it. A failed write does not keep it open. -/
def close (s : Session) (fs : FileSystem) (id : BufferId) :
    Except SessionError (Session × FileSystem × Buffer) := do
  let o ← s.get id
  let s := { s with
    buffers := s.buffers.filter (·.1 != id)
    active := if s.active = some id then none else s.active }
  return (s, o.flush fs, o.buffer)

/-- Writes a buffer to its file. -/
def save (s : Session) (fs : FileSystem) (id : BufferId) : Except SessionError FileSystem := do
  let o ← s.get id
  (o.buffer.save fs).mapError .io

/-- Points a buffer at another file and drops its findings. -/
def rename (s : Session) (id : BufferId) (path : Path) (now : Nat) :
    Except SessionError Session := do
  let o ← s.get id
  return (s.put id (o.renamed path)).armIfActive id now

/-! ### Editing and focus -/

/-- The buffer that an edit is for, what the change makes of it, and what the change answers. -/
def prepareEdit (s : Session) (id : BufferId) (change : Change) :
    Except SessionError (OpenBuffer × Buffer × Option Nat) := do
  let o ← s.get id
  let (b, offset) ← (o.buffer.apply change).mapError .edit
  return (o, b, offset)

/-- Changes a buffer and restarts its rest. -/
def editBy {m : Type → Type} [Monad m] (paint : Painter m) (s : Session) (id : BufferId) (now : Nat)
    (change : Change) : m (Except SessionError (Session × Option Nat)) :=
  match s.prepareEdit id change with
  | .error e => return .error e
  | .ok (o, b, offset) => do
    let o ← o.changedBy paint b
    return .ok ((s.put id o).armIfActive id now, offset)

/-- Changes a buffer in a build that may stop. -/
def edit? (build : Arithmetic) (s : Session) (id : BufferId) (now : Nat) (change : Change) :
    Option (Except SessionError (Session × Option Nat)) :=
  s.editBy (paintInWords? build) id now change

/-- Changes a buffer in a build that does not stop. -/
def edit (s : Session) (id : BufferId) (now : Nat) (change : Change) :
    Except SessionError (Session × Option Nat) :=
  Id.run (s.editBy .unchecked id now change)

/-- Gives a buffer the focus. Another buffer that had it stops waiting and loses its underline. -/
def activate (s : Session) (id : BufferId) (now : Nat) : Except SessionError Session := do
  let _ ← s.get id
  let s := match s.active with
    | some previous =>
      if previous = id then s else s.modify previous fun o => o.cancel.clearUnderline
    | none => s
  return { s with active := some id }.armIfActive id now

/-- Underlines the identifier at an offset and gives its text. Without an identifier the underline
is removed. -/
def hover (s : Session) (id : BufferId) (offset : Nat) :
    Except SessionError (Session × Option String) := do
  let o ← s.get id
  match identifierAt? o.buffer.text offset with
  | some (start, stop) =>
    let word := (Text.slice? o.buffer.chars start stop).map String.ofList
    return (s.put id { o with layers := o.layers.underlineWord ⟨start, stop⟩ }, word)
  | none => return (s.put id o.clearUnderline, none)

/-- Removes the underline of a buffer. -/
def clearHover (s : Session) (id : BufferId) : Except SessionError Session := do
  let o ← s.get id
  return s.put id o.clearUnderline

end Session

end EditorInsight
