import EditorInsight.Yaml.Token

/-!
# Documents of YAML text

The tokens of a text are read into a tree of scalars, sequences and mappings. An alias stays in the
tree as a reference, because it may refer to a collection it stands in; what it refers to is looked
up when the tree is read.

* `Node` is the tree; `Document` adds what the aliases refer to.
* `Stream.read?` reads a text that holds at most one document.
-/

namespace EditorInsight.Yaml

/-- A part of a document. -/
inductive Node where
  | scalar (tag : Option String) (style : ScalarStyle) (text : String)
  | sequence (items : List Node)
  | mapping (entries : List (Node × Node))
  /-- A reference to the node of an anchor. -/
  | alias (anchor : Nat)
deriving Repr, Inhabited

/-- A document and the nodes of its anchors. -/
structure Document where
  /-- The whole tree. -/
  root : Node
  /-- The anchored nodes. -/
  anchored : List (Nat × Node)
deriving Repr, Inhabited

/-- The state of reading a document. -/
structure Composer where
  /-- The tokens that are left. -/
  tokens : List Token
  /-- The tags that the handles stand for. -/
  handles : List (List Char × List Char) := []
  /-- The identities of the anchor names. -/
  names : List (List Char × Nat) := []
  /-- Which anchored node, counted from the first, an identity belongs to. -/
  targets : List (Nat × Nat) := []
  /-- How many anchored nodes have begun. -/
  begun : Nat := 0
  /-- The anchored nodes that are complete. -/
  complete : List (Nat × Node) := []

/-- Reading steps: they may fail and they consume tokens. -/
abbrev Compose := StateT Composer Option

namespace Compose

/-- The next token. Behind the last one the text is at its end. -/
def peek : Compose Token := return (← get).tokens.headD .streamEnd

/-- Passes over the next token. -/
def advance : Compose Unit := modify fun s => { s with tokens := s.tokens.tail }

/-- The empty scalar that stands for a missing node. -/
def emptyScalar : Node := .scalar none .plain ""

/-- Gives the name of an anchor to the node that begins here. Identities are counted by the distinct
names before, and the last node that takes an identity keeps it. -/
def beginAnchor : Option (List Char) → Compose (Option Nat)
  | none => return none
  | some name => do
    let s ← get
    let known := s.names.filter (·.1 != name)
    let identity := s.names.length
    set { s with
      names := (name, identity) :: known
      targets := (identity, s.begun) :: s.targets.filter (·.1 != identity)
      begun := s.begun + 1 }
    return some s.begun

/-- Records the node of an anchor. -/
def endAnchor (serial : Option Nat) (node : Node) : Compose Node := do
  match serial with
  | none => return node
  | some n =>
    modify fun s => { s with complete := (n, node) :: s.complete }
    return node

/-- The full form of a tag. -/
def resolveTag (handle rest : List Char) : Compose String := do
  if handle.isEmpty then return String.ofList rest
  else
    match (← get).handles.lookup handle with
    | some tag => return String.ofList (tag ++ rest)
    | none => failure

/-- The anchor and the tag in front of a node, in either order. -/
def properties : Compose (Option (List Char) × Option String) := do
  match ← peek with
  | .anchor name =>
    advance
    match ← peek with
    | .tag handle rest =>
      advance
      return (some name, some (← resolveTag handle rest))
    | _ => return (some name, none)
  | .tag handle rest =>
    advance
    match ← peek with
    | .anchor name =>
      advance
      return (some name, some (← resolveTag handle rest))
    | _ => return (none, some (← resolveTag handle rest))
  | _ => return (none, none)

mutual

/-- A node. Block collections may begin only where `block` says so, and a sequence that is not
indented only where `indentless` does. -/
def node : Nat → (block indentless : Bool) → Compose Node
  | 0, _, _ => failure
  | fuel + 1, block, indentless => do
    match ← peek with
    | .alias name =>
      advance
      match (← get).names.lookup name with
      | some identity => return .alias identity
      | none => failure
    | _ =>
      let (anchor, tag) ← properties
      let start ← peek
      match start with
      | .scalar style text =>
        advance
        let serial ← beginAnchor anchor
        endAnchor serial (.scalar tag style (String.ofList text))
      | .blockEntry =>
        -- the items stand at the column of the key, so no token begins the sequence
        if indentless then
          let serial ← beginAnchor anchor
          endAnchor serial (.sequence (← indentlessItems fuel))
        else missing anchor tag
      | .flowSequenceStart =>
        advance
        let serial ← beginAnchor anchor
        endAnchor serial (.sequence (← flowItems fuel true))
      | .flowMappingStart =>
        advance
        let serial ← beginAnchor anchor
        endAnchor serial (.mapping (← flowEntries fuel true))
      | .blockSequenceStart =>
        if block then
          advance
          let serial ← beginAnchor anchor
          endAnchor serial (.sequence (← blockItems fuel))
        else missing anchor tag
      | .blockMappingStart =>
        if block then
          advance
          let serial ← beginAnchor anchor
          endAnchor serial (.mapping (← blockEntries fuel))
        else missing anchor tag
      | _ => missing anchor tag

/-- The empty scalar behind an anchor or a tag. Without these a node has to follow. -/
def missing (anchor : Option (List Char)) (tag : Option String) : Compose Node := do
  if anchor.isNone && tag.isNone then failure
  else
    let serial ← beginAnchor anchor
    endAnchor serial (.scalar tag .plain "")

/-- The items of a block sequence, up to its end. -/
def blockItems : Nat → Compose (List Node)
  | 0 => failure
  | fuel + 1 => do
    match ← peek with
    | .blockEntry =>
      advance
      let item ← match ← peek with
        | .blockEntry | .blockEnd => pure emptyScalar
        | _ => node fuel true false
      return item :: (← blockItems fuel)
    | .blockEnd =>
      advance
      return []
    | _ => failure

/-- The items of a sequence that is not indented. It ends where no item follows. -/
def indentlessItems : Nat → Compose (List Node)
  | 0 => failure
  | fuel + 1 => do
    match ← peek with
    | .blockEntry =>
      advance
      let item ← match ← peek with
        | .blockEntry | .key | .value | .blockEnd => pure emptyScalar
        | _ => node fuel true false
      return item :: (← indentlessItems fuel)
    | _ => return []

/-- The entries of a block mapping, up to its end. -/
def blockEntries : Nat → Compose (List (Node × Node))
  | 0 => failure
  | fuel + 1 => do
    match ← peek with
    | .key =>
      advance
      let key ← match ← peek with
        | .key | .value | .blockEnd => pure emptyScalar
        | _ => node fuel true true
      let value ← blockValue fuel
      return (key, value) :: (← blockEntries fuel)
    | .value =>
      -- a value of which the key is missing
      failure
    | .blockEnd =>
      advance
      return []
    | _ => failure

/-- The value of an entry of a block mapping; empty if there is none. -/
def blockValue : Nat → Compose Node
  | 0 => failure
  | fuel + 1 => do
    match ← peek with
    | .value =>
      advance
      match ← peek with
      | .key | .value | .blockEnd => return emptyScalar
      | _ => node fuel true true
    | _ => return emptyScalar

/-- The items of a sequence in brackets, up to its end. Commas separate them, and one may stand at
the end. An entry with a key is a mapping of its own. -/
def flowItems : Nat → (first : Bool) → Compose (List Node)
  | 0, _ => failure
  | fuel + 1, first => do
    match ← peek with
    | .flowSequenceEnd =>
      advance
      return []
    | t =>
      if !first then
        if t == .flowEntry then advance else failure
      match ← peek with
      | .key =>
        advance
        let entry ← flowPair fuel
        return .mapping [entry] :: (← flowItems fuel false)
      | .flowSequenceEnd =>
        advance
        return []
      | _ =>
        let item ← node fuel false false
        return item :: (← flowItems fuel false)

/-- The key and the value of an entry that stands in a sequence. Where the key is missing, the token
in its place is passed over. -/
def flowPair : Nat → Compose (Node × Node)
  | 0 => failure
  | fuel + 1 => do
    let key ← match ← peek with
      | .value | .flowEntry | .flowSequenceEnd =>
        advance
        pure emptyScalar
      | _ => node fuel false false
    match ← peek with
    | .value =>
      advance
      match ← peek with
      | .flowEntry | .flowSequenceEnd => return (key, emptyScalar)
      | _ => return (key, ← node fuel false false)
    | _ => return (key, emptyScalar)

/-- The entries of a mapping in braces, up to its end. -/
def flowEntries : Nat → (first : Bool) → Compose (List (Node × Node))
  | 0, _ => failure
  | fuel + 1, first => do
    match ← peek with
    | .flowMappingEnd =>
      advance
      return []
    | t =>
      if !first then
        if t == .flowEntry then advance else failure
      match ← peek with
      | .key =>
        advance
        let key ← match ← peek with
          | .value | .flowEntry | .flowMappingEnd => pure emptyScalar
          | _ => node fuel false false
        let value ← flowValue fuel
        return (key, value) :: (← flowEntries fuel false)
      | .flowMappingEnd =>
        advance
        return []
      | _ =>
        -- a key alone, without a question mark in front and a colon behind it
        let key ← node fuel false false
        return (key, emptyScalar) :: (← flowEntries fuel false)

/-- The value of an entry in braces; empty if there is none. -/
def flowValue : Nat → Compose Node
  | 0 => failure
  | fuel + 1 => do
    match ← peek with
    | .value =>
      advance
      match ← peek with
      | .flowEntry | .flowMappingEnd => return emptyScalar
      | _ => node fuel false false
    | _ => return emptyScalar

end

/-! ### Documents -/

/-- The handles that need no directive. -/
def standardHandles : List (List Char × List Char) :=
  [(['!'], ['!']), (['!', '!'], "tag:yaml.org,2002:".toList)]

/-- The directives in front of a document: at most one version, which has to be 1.1 or 1.2, and each
handle at most once. -/
def directives : List Token → (version : Bool) → List (List Char × List Char) →
    Option (List (List Char × List Char) × List Token)
  | .versionDirective major minor :: ts, version, handles =>
    if version || major != 1 || !(minor == 1 || minor == 2) then none
    else directives ts true handles
  | .tagDirective handle tag :: ts, version, handles =>
    if handles.any (·.1 == handle) then none
    else directives ts version (handles ++ [(handle, tag)])
  | ts, _, handles => some (handles, ts)

/-- Sets the handles by the directives that come next; a handle that is not redefined keeps its
standard meaning. -/
def readDirectives : Compose Unit := do
  let (handles, rest) ← directives (← get).tokens false []
  modify fun s => { s with tokens := rest, handles := handles ++ standardHandles }

/-- The content of a document behind its start mark; empty if the document ends at once. -/
def content (fuel : Nat) : Compose Node := do
  match ← peek with
  | .versionDirective .. | .tagDirective .. | .documentStart | .documentEnd | .streamEnd =>
    return emptyScalar
  | _ => node fuel true false

/-- Passes over the marks that end a document. -/
def skipDocumentEnds : Compose Unit :=
  modify fun s => { s with tokens := s.tokens.dropWhile (· == .documentEnd) }

/-- The only document of a text, if there is one; nothing may follow it. -/
def document (fuel : Nat) : Compose (Option Node) := do
  match ← peek with
  | .streamEnd => return none
  | .versionDirective .. | .tagDirective .. | .documentStart =>
    readDirectives
    if (← peek) == .documentStart then advance else failure
    let root ← content fuel
    skipDocumentEnds
    if (← peek) == .streamEnd then return some root else failure
  | _ =>
    -- there are no directives here, but the standard handles have to be set
    readDirectives
    let root ← node fuel true false
    skipDocumentEnds
    if (← peek) == .streamEnd then return some root else failure

end Compose

/-- What a text holds. -/
inductive Stream where
  /-- No document at all: blanks and comments. -/
  | empty
  | single (d : Document)
deriving Repr, Inhabited

/-- Reads a text that holds at most one document. -/
def Stream.read? (text : String) : Option Stream := do
  let tokens ← Token.scan text.toList
  let fuel := 2 * tokens.length + 4
  let (root, s) ← (Compose.document fuel).run { tokens := tokens }
  match root with
  | none => return .empty
  | some root =>
    let anchored := s.targets.filterMap fun (identity, serial) =>
      (s.complete.lookup serial).map (identity, ·)
    return .single ⟨root, anchored⟩

end EditorInsight.Yaml
