import EditorInsight.Json.Token

/-!
# Reading JSON text

Tokens are read into a value from left to right with a stack of the arrays and objects that are
still open. Reading is one fold over the tokens, so it needs no bound on the nesting; a limit on the
depth is a separate question about the value.

* `Value.ofTokens?` reads a row of tokens as one value.
* `parse?` reads a text as one value, tokens without a value included.
* `parseStrict?` also refuses tokens without a value and nesting deeper than `maxDepth`.
-/

namespace EditorInsight.Json

/-- An array or object that is still open, with the parts read so far, the last one first. -/
inductive Frame where
  | array (items : List Value)
  /-- The member whose name is `key` is being read. -/
  | object (members : List (Option String × Value)) (key : Option String)
deriving Inhabited

/-- What has to come next, and inside what. -/
inductive Reader where
  /-- A value. -/
  | value (stack : List Frame)
  /-- A value, or the end of the array just opened. -/
  | firstItem (stack : List Frame)
  /-- A name, or the end of the object just opened. -/
  | firstName (stack : List Frame)
  /-- A name. -/
  | name (members : List (Option String × Value)) (stack : List Frame)
  /-- The colon behind a name. -/
  | colon (members : List (Option String × Value)) (key : Option String) (stack : List Frame)
  /-- A comma, or the end of the array. -/
  | afterItem (items : List Value) (stack : List Frame)
  /-- A comma, or the end of the object. -/
  | afterMember (members : List (Option String × Value)) (stack : List Frame)
  /-- Nothing. -/
  | finished (v : Value)
deriving Inhabited

/-- The object with the given members; one name without a value makes the object unreadable. -/
def objectOf (members : List (Option String × Value)) : Value :=
  match members.mapM fun (k, v) => k.map (·, v) with
  | some ms => .object ms
  | none => .unreadable

namespace Reader

/-- The state after a complete value. -/
def deliver (v : Value) : List Frame → Reader
  | [] => .finished v
  | .array items :: stack => .afterItem (v :: items) stack
  | .object members key :: stack => .afterMember ((key, v) :: members) stack

/-- The state after a token with which a value begins. -/
def startValue (stack : List Frame) : Token → Option Reader
  | .openArray => some (.firstItem stack)
  | .openObject => some (.firstName stack)
  | .null => some (deliver .null stack)
  | .bool b => some (deliver (.bool b) stack)
  | .number n => some (deliver (if n.isFinite then .number n else .unreadable) stack)
  | .string (some s) => some (deliver (.string s) stack)
  | .string none => some (deliver .unreadable stack)
  | .closeArray | .closeObject | .comma | .colon => none

/-- The state after the next token, if the token may stand there. -/
def step : Reader → Token → Option Reader
  | .value stack, t => startValue stack t
  | .firstItem stack, .closeArray => some (deliver (.array []) stack)
  | .firstItem stack, t => startValue (.array [] :: stack) t
  | .firstName stack, .closeObject => some (deliver (.object []) stack)
  | .firstName stack, .string s => some (.colon [] s stack)
  | .firstName _, _ => none
  | .name members stack, .string s => some (.colon members s stack)
  | .name _ _, _ => none
  | .colon members key stack, .colon => some (.value (.object members key :: stack))
  | .colon _ _ _, _ => none
  | .afterItem items stack, .comma => some (.value (.array items :: stack))
  | .afterItem items stack, .closeArray => some (deliver (.array items.reverse) stack)
  | .afterItem _ _, _ => none
  | .afterMember members stack, .comma => some (.name members stack)
  | .afterMember members stack, .closeObject => some (deliver (objectOf members.reverse) stack)
  | .afterMember _ _, _ => none
  | .finished _, _ => none

end Reader

/-- Reads a row of tokens as one value. -/
def Value.ofTokens? (ts : List Token) : Option Value :=
  match ts.foldlM Reader.step (.value []) with
  | some (.finished v) => some v
  | _ => none

/-- Reads a text as one value. Tokens without a value are kept as `Value.unreadable`. -/
def parse? (s : String) : Option Value :=
  (Token.scan s.toList).bind Value.ofTokens?

/-- How deep arrays and objects may be nested in a document that is read as a whole. -/
def maxDepth : Nat := 127

/-- Reads a text as one value of which every part counts: a token without a value is refused, and so
is nesting deeper than `maxDepth`. -/
def parseStrict? (s : String) : Option Value :=
  (parse? s).filter fun v => v.isReadable && v.depth ≤ maxDepth

end EditorInsight.Json
