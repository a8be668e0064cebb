import EditorInsight.Analysis.Cache
import EditorInsight.FileSystem

/-!
# Navigation

What happens when a name is clicked: a jump to its definition, or, where no definition is known, a
menu of its uses.

* `Intent` is what the editor should do; `decide` chooses it.
* `Intent.target` is the jump of an intent, or why there is none.
* `Host` is the editor that is driven; `Intent.apply`, `click` and `select` drive it.
-/

namespace EditorInsight

open Analysis

/-- What the editor should do. -/
inductive Intent where
  /-- Open a file and jump to a place in it. -/
  | openAndJump (filePath : Path) (position : Position)
  /-- Jump to a place in the buffer that has the focus. -/
  | jumpWithinBuffer (position : Position)
  /-- Let the user choose among uses. -/
  | showReferenceMenu (hits : List ReferenceHit)
  | nothing
deriving DecidableEq, Repr, Inhabited

/-- Chooses what to do: a definition comes before uses. -/
def Intent.decide (resolved : Option ResolvedSymbol) (references : List ReferenceHit)
    (current : Path) : Intent :=
  match resolved with
  | some symbol =>
    if symbol.filePath.same current then .jumpWithinBuffer symbol.position
    else .openAndJump symbol.filePath symbol.position
  | none => if references.isEmpty then .nothing else .showReferenceMenu references

/-- Why an intent cannot be carried out. -/
inductive NavigationError where
  | targetMissing (path : Path)
  | noActiveBuffer
  /-- The editor refuses to open the file. -/
  | host (path : Path) (message : String)
deriving DecidableEq, Repr

/-- The wording of an error. -/
def NavigationError.message : NavigationError → String
  | targetMissing path => "Cannot open " ++ path.text ++ ": the file no longer exists"
  | noActiveBuffer => "No buffer is active"
  | host path message => "Host failed to open " ++ path.text ++ ": " ++ message

/-- The editor that is driven. -/
structure Host (m : Type → Type) (Handle : Type) where
  /-- The path of the buffer that has the focus. -/
  current : m (Option Path)
  /-- Opens a file, or gives it the focus if it is open. -/
  openAndFocus : Path → m (Except NavigationError Handle)
  /-- Moves the caret. -/
  setCursor : Handle → Position → m Unit

namespace Intent

/-- The jump that an intent asks for, if it asks for one: a file and a place in it. A file that is
not there is no target, and a jump within a buffer needs one. -/
def target (fs : FileSystem) (current : Option Path) :
    Intent → Except NavigationError (Option (Path × Position))
  | openAndJump filePath position =>
    if fs.exists? filePath then .ok (some (filePath, position))
    else .error (.targetMissing filePath)
  | jumpWithinBuffer position =>
    match current with
    | some path => .ok (some (path, position))
    | none => .error .noActiveBuffer
  | showReferenceMenu _ | nothing => .ok none

variable {m : Type → Type} [Monad m] {Handle : Type}

/-- Opens a file in the editor and then moves the caret. -/
def jump (host : Host m Handle) (path : Path) (position : Position) :
    m (Except NavigationError Unit) := do
  match ← host.openAndFocus path with
  | .error e => return .error e
  | .ok handle =>
    host.setCursor handle position
    return .ok ()

/-- Carries an intent out. A menu is left to the editor. -/
def apply (host : Host m Handle) (fs : FileSystem) (intent : Intent) :
    m (Except NavigationError Unit) := do
  match intent.target fs (← host.current) with
  | .error e => return .error e
  | .ok none => return .ok ()
  | .ok (some (path, position)) => jump host path position

/-- Carries an intent out and gives it back. -/
def applied (host : Host m Handle) (fs : FileSystem) (intent : Intent) :
    m (Except NavigationError Intent) := do
  return (← apply host fs intent).map fun _ => intent

end Intent

variable {m : Type → Type} [Monad m] {Handle : Type}

/-- A click on a name of the buffer that has the focus: asks for its definition, and for its uses
only if there is none, and carries out what follows. -/
def click (digest : String → UInt64) (engine : Engine m) (host : Host m Handle) (fs : FileSystem)
    (cache : Option Cache) (source : String) (position : Position) :
    m (Except NavigationError Intent × Option Cache) := do
  match ← host.current with
  | none => return (.error .noActiveBuffer, cache)
  | some current =>
    let q : Query := ⟨source, current, position⟩
    let (answer, cache) ← ask digest engine cache q .definition
    match answer.symbol? with
    | some symbol =>
      return (← Intent.applied host fs (.decide (some symbol) [] current), cache)
    | none =>
      let (answer, cache) ← ask digest engine cache q .references
      return (← Intent.applied host fs (.decide none answer.hits current), cache)

/-- The choice of a use from a menu: a jump to it. -/
def select (host : Host m Handle) (fs : FileSystem) (hit : ReferenceHit) :
    m (Except NavigationError Intent) := do
  match ← host.current with
  | none => return .error .noActiveBuffer
  | some current => Intent.applied host fs (.decide (some hit.toSymbol) [] current)

end EditorInsight
