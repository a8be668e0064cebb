import EditorInsight.Text.Bytes

/-!
# Paths

A path is kept as it is spelled and compared by its components. Components are separated by slashes;
repeated slashes, a slash at the end and a dot that is not the first component say nothing. Two dots
are a component like any other: whether they undo the one before is a matter of the file system.

* `Path.components` takes a path apart.
* `Path.same` compares by components, `Path.before` orders by components.
* `Path.join`, `Path.parent?`, `Path.fileName?` and `Path.extension?` work on the spelling and keep
  what they do not touch.
* `Path.sorted` puts paths in order and keeps each only once.
-/

namespace EditorInsight

/-- One component of a path. -/
inductive Component where
  /-- The slash in front of an absolute path. -/
  | root
  /-- A dot in front of a relative path. -/
  | current
  /-- Two dots. -/
  | parent
  /-- A name. -/
  | name (s : String)
deriving DecidableEq, Repr, Inhabited

namespace Component

/-- The place of the kind of component in the order. -/
def rank : Component → Nat
  | root => 0
  | current => 1
  | parent => 2
  | name _ => 3

/-- Components are ordered by kind, and names by their bytes, which is the order of their
characters. -/
def before : Component → Component → Bool
  | name a, name b => decide (a < b)
  | a, b => a.rank < b.rank

end Component

/-- A path, as it is spelled. -/
structure Path where
  /-- The spelling. -/
  text : String
deriving DecidableEq, Repr, Inhabited, Hashable

namespace Path

/-- The parts between the slashes, empty ones included. There is always at least one. -/
def splitSlashes : List Char → List (List Char)
  | [] => [[]]
  | c :: cs =>
    match splitSlashes cs with
    | [] => [[c]]
    | part :: parts => if c = '/' then [] :: part :: parts else (c :: part) :: parts

/-- The component that a part stands for behind the front of a path. -/
def componentOf? : List Char → Option Component
  | [] => none
  | ['.'] => none
  | ['.', '.'] => some .parent
  | cs => some (.name (String.ofList cs))

/-- The components of a spelling. Only at the front do a slash and a dot say anything. -/
def componentsOf (cs : List Char) : List Component :=
  match splitSlashes cs with
  | [] :: part :: parts => .root :: (part :: parts).filterMap componentOf?
  | ['.'] :: parts => .current :: parts.filterMap componentOf?
  | parts => parts.filterMap componentOf?

/-- The components of a path. -/
def components (p : Path) : List Component := componentsOf p.text.toList

/-- Whether two paths have the same components. -/
def same (p q : Path) : Bool := p.components == q.components

/-- Whether one row of components comes before another; a shorter one comes before what it
begins. -/
def componentsBefore : List Component → List Component → Bool
  | [], [] => false
  | [], _ :: _ => true
  | _ :: _, [] => false
  | a :: as, b :: bs => if a = b then componentsBefore as bs else a.before b

/-- The order of paths, component by component. -/
def before (p q : Path) : Bool := componentsBefore p.components q.components

/-- Whether a path starts at the root. -/
def isAbsolute (p : Path) : Bool := p.text.toList.head? == some '/'

/-- A path below another: the second one alone if it is absolute, and otherwise both with one slash
between them, which is left out behind an empty path and behind a slash. -/
def join (base p : Path) : Path :=
  if p.isAbsolute then p
  else
    let cs := base.text.toList
    if cs.isEmpty || cs.getLast? == some '/' then ⟨base.text ++ p.text⟩
    else ⟨base.text ++ "/" ++ p.text⟩

/-- A path below another, by the name of an entry. -/
def child (base : Path) (name : String) : Path := base.join ⟨name⟩

/-! ### The last component

Read from the end, a spelling is a tail that says nothing, then its last component. -/

/-- Drops, from a reversed spelling, the slashes and lone dots that say nothing at its end. What
stands at the very front is never dropped. -/
def dropSilent : List Char → List Char
  | '/' :: c :: rest => dropSilent (c :: rest)
  | '.' :: '/' :: rest =>
    match rest with
    | [] => ['/']
    | c :: rest => dropSilent (c :: rest)
  | cs => cs

/-- The spelling without what says nothing at its end. -/
def trimSilent (cs : List Char) : List Char := (dropSilent cs.reverse).reverse

/-- The path without its last component, if it has one that can be left: the root alone and the
empty path have none. -/
def parent? (p : Path) : Option Path :=
  match trimSilent p.text.toList with
  | [] => none
  | ['/'] => none
  | cs =>
    let rest := (cs.reverse.dropWhile (· != '/')).reverse
    some ⟨String.ofList (trimSilent rest)⟩

/-- The last component, if it is a name. -/
def fileName? (p : Path) : Option String :=
  match p.components.getLast? with
  | some (.name s) => some s
  | _ => none

/-- The part of a name behind its last dot, if something stands before that dot. -/
def nameExtension? (name : List Char) : Option (List Char) :=
  let after := (name.reverse.takeWhile (· != '.')).reverse
  let before := name.length - after.length
  -- `before` counts the dot, so a dot at the front leaves nothing before it
  if before ≤ 1 then none else some after

/-- The extension of the last component, if this is a name that has one. -/
def extension? (p : Path) : Option String := do
  let name ← p.fileName?
  return String.ofList (← nameExtension? name.toList)

/-! ### Sorted lists -/

/-- Puts a path into an ascending list. If the list has the same path already, that one stays, with
its spelling. -/
def insertSorted (p : Path) : List Path → List Path
  | [] => [p]
  | q :: qs =>
    if p.before q then p :: q :: qs
    else if q.before p then q :: insertSorted p qs
    else q :: qs

/-- The paths of a list, ascending and each only once. -/
def sorted (ps : List Path) : List Path := ps.foldl (fun acc p => insertSorted p acc) []

end Path

end EditorInsight
