import EditorInsight.Json.Number
import EditorInsight.Yaml.Node

/-!
# Reading records from YAML documents

What a plain scalar means depends on what is asked for: any scalar can be read as text, and only a
plain one (or a block with the tag of the type) as a number or a truth value. The rules for numbers,
truth values and null are those of the core schema of YAML 1.2.

* `Document.fields?` finds the fields of a record by name.
* `Document.text?`, `Document.word?`, `Document.bool?`, `Document.optional?` and
  `Document.list?` read values.
-/

namespace EditorInsight.Yaml

/-! ### Plain words -/

/-- The value of a row of digits in a base, if it is a machine word. -/
def wordInBase? (base : Nat) (digits : List Char) : Option Nat := do
  if digits.isEmpty then none
  let ds ← digits.mapM Json.hexDigit?
  if ds.any (· ≥ base) then none
  let n := ds.foldl (fun n d => n * base + d) 0
  if n < Json.wordSize then some n else none

/-- Whether a digit row would be a number but for zeros in front of it. -/
def hasLeadingZero (cs : List Char) : Bool :=
  match cs with
  | '0' :: c :: rest => (c :: rest).all Json.isDigit
  | _ => false

/-- A machine word: decimal, or with the mark of another base. -/
def wordOf? (cs : List Char) : Option Nat :=
  let unsigned := if cs.head? == some '+' then cs.tail else cs
  let marked : Option Nat :=
    match unsigned with
    | '0' :: 'x' :: ds => wordInBase? 16 ds
    | '0' :: 'o' :: ds => wordInBase? 8 ds
    | '0' :: 'b' :: ds => wordInBase? 2 ds
    | _ => none
  marked.or <|
    if hasLeadingZero unsigned then none else wordInBase? 10 unsigned

/-- A truth value, in lower case, capitalized or in upper case. -/
def boolOf? (s : String) : Option Bool :=
  if s == "true" || s == "True" || s == "TRUE" then some true
  else if s == "false" || s == "False" || s == "FALSE" then some false
  else none

/-- Whether a word means that there is no value. -/
def isNullWord (s : String) : Bool :=
  s == "null" || s == "Null" || s == "NULL" || s == "~"

/-- The full form of a tag of the core schema. -/
def coreTag (name : String) : String := "tag:yaml.org,2002:" ++ name

namespace Document

/-- The node that a reference stands for, and any other node itself. -/
def resolve? (d : Document) : Node → Option Node
  | .alias anchor => d.anchored.lookup anchor
  | n => some n

/-- The text of a scalar. -/
def text? (d : Document) (n : Node) : Option String :=
  match d.resolve? n with
  | some (.scalar _ _ text) => some text
  | _ => none

/-- The text of a scalar that can be something else than text: a plain one, or a literal block with
the tag of the type. -/
def typedText? (d : Document) (type : String) (n : Node) : Option String :=
  match d.resolve? n with
  | some (.scalar _ .plain text) => some text
  | some (.scalar (some tag) .literal text) => if tag == coreTag type then some text else none
  | _ => none

/-- A machine word. -/
def word? (d : Document) (n : Node) : Option Nat :=
  (d.typedText? "int" n).bind fun text => wordOf? text.toList

/-- A truth value. -/
def bool? (d : Document) (n : Node) : Option Bool :=
  (d.typedText? "bool" n).bind boolOf?

/-- Whether a scalar says that there is no value; the tag of null does not admit any other word. -/
def isNull? (tag : Option String) (style : ScalarStyle) (text : String) : Option Bool :=
  if style ≠ .plain then some false
  else
    match tag with
    | none => some (text.isEmpty || isNullWord text)
    | some tag =>
      if tag == coreTag "null" then (if isNullWord text then some true else none)
      else some false

/-- A value that may be absent. -/
def optional? {α : Type} (d : Document) (read : Node → Option α) (n : Node) : Option (Option α) :=
  match d.resolve? n with
  | some (.scalar tag style text) => do
    if ← isNull? tag style text then return none
    else return some (← read (.scalar tag style text))
  | some n => (read n).map some
  | none => none

/-- Whether a node is a scalar that stands for an empty collection. -/
def isEmptyScalar : Node → Bool
  | .scalar _ .plain text => text.isEmpty
  | _ => false

/-- A list, each item of which is read by `read`. -/
def list? {α : Type} (d : Document) (read : Node → Option α) (n : Node) : Option (List α) :=
  match d.resolve? n with
  | some (.sequence items) => items.mapM read
  | some n => if isEmptyScalar n then some [] else none
  | none => none

/-- The fields of a record with the given names; a field that is not there is absent. Every key has
to be a scalar, and no name may repeat. -/
def fields? (d : Document) (names : List String) (n : Node) : Option (List (Option Node)) :=
  match d.resolve? n with
  | some (.mapping entries) => do
    let keyed ← entries.mapM fun (k, v) => (d.text? k).map (·, v)
    if names.any fun name => 1 < (keyed.filter (·.1 == name)).length then none
    else return names.map fun name => (keyed.find? (·.1 == name)).map (·.2)
  | some n => if isEmptyScalar n then some (names.map fun _ => none) else none
  | none => none

end Document

/-- A field with a value of its own when it is absent. -/
def fieldOr {α : Type} (default : α) (read : Node → Option α) : Option Node → Option α
  | none => some default
  | some n => read n

end EditorInsight.Yaml
