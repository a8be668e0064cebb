import EditorInsight.Json.Number

/-!
# JSON values

The tree that a JSON text denotes. Members of an object keep their order and may repeat a name; what
a repeated name means is for the reader of the object to decide.

A text can follow the grammar and yet hold a token without a value: a number that overflows a
double, or a string with half of a surrogate pair. Such a token does no harm in a part of the
document that nobody reads, so it is a value of its own, `unreadable`.

* `Value.isReadable`: no part of the value is unreadable.
* `Value.depth`: how deep arrays and objects are nested.
* `Value.lastWins`: of members with the same name only the last one is kept.
-/

namespace EditorInsight.Json

/-- A JSON value. -/
inductive Value where
  | null
  | bool (b : Bool)
  | number (n : Number)
  | string (s : String)
  | array (items : List Value)
  | object (members : List (String × Value))
  /-- A token that follows the grammar and has no value. -/
  | unreadable
deriving Repr, BEq, Inhabited

namespace Value

/-- A natural number as a value. -/
def nat (n : Nat) : Value := .number (.ofNat n)

/-- An integer as a value. -/
def int (n : Int) : Value := .number (.ofInt n)

/-- An optional value, with `null` for the missing one. -/
def option {α : Type} (write : α → Value) : Option α → Value
  | none => .null
  | some a => write a

mutual

/-- Whether no part of the value is unreadable. -/
def isReadable : Value → Bool
  | null | bool _ | string _ | number _ => true
  | array items => allReadable items
  | object members => membersReadable members
  | unreadable => false

/-- `isReadable` of every item. -/
def allReadable : List Value → Bool
  | [] => true
  | v :: vs => isReadable v && allReadable vs

/-- `isReadable` of every member. -/
def membersReadable : List (String × Value) → Bool
  | [] => true
  | (_, v) :: ms => isReadable v && membersReadable ms

end

mutual

/-- The number of arrays and objects around the innermost part of the value. -/
def depth : Value → Nat
  | null | bool _ | string _ | number _ | unreadable => 0
  | array items => depthItems items + 1
  | object members => depthMembers members + 1

/-- The greatest depth of an item. -/
def depthItems : List Value → Nat
  | [] => 0
  | v :: vs => max (depth v) (depthItems vs)

/-- The greatest depth of a member. -/
def depthMembers : List (String × Value) → Nat
  | [] => 0
  | (_, v) :: ms => max (depth v) (depthMembers ms)

end

/-- Keeps, of all members with one name, the last. -/
def lastOfEach : List (String × Value) → List (String × Value)
  | [] => []
  | (k, v) :: ms => if ms.any (·.1 == k) then lastOfEach ms else (k, v) :: lastOfEach ms

mutual

/-- The value in which a repeated member name stands for its last occurrence, at every depth. -/
def lastWins : Value → Value
  | array items => array (lastWinsItems items)
  | object members => object (lastOfEach (lastWinsMembers members))
  | v => v

/-- `lastWins` of every item. -/
def lastWinsItems : List Value → List Value
  | [] => []
  | v :: vs => lastWins v :: lastWinsItems vs

/-- `lastWins` of every member's value. -/
def lastWinsMembers : List (String × Value) → List (String × Value)
  | [] => []
  | (k, v) :: ms => (k, lastWins v) :: lastWinsMembers ms

end

mutual

/-- The value whose members stand in the order of their names, at every depth. -/
def sortNames : Value → Value
  | array items => array (sortNamesItems items)
  | object members =>
    object ((sortNamesMembers members).mergeSort fun a b => decide (a.1 ≤ b.1))
  | v => v

/-- `sortNames` of every item. -/
def sortNamesItems : List Value → List Value
  | [] => []
  | v :: vs => sortNames v :: sortNamesItems vs

/-- `sortNames` of every member's value. -/
def sortNamesMembers : List (String × Value) → List (String × Value)
  | [] => []
  | (k, v) :: ms => (k, sortNames v) :: sortNamesMembers ms

end

end Value

end EditorInsight.Json
