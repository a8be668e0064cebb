import EditorInsight.Json.Value

/-!
# Reading records

A record is written as an object with its fields by name, in any order and with unknown members
ignored, or as an array of its fields in their fixed order. How a field that is not there is read
depends on the form: a missing member of an object and a missing end of an array are different
things.

* `Value.fields?` finds the fields of a record in either form.
* `Field.required`, `Field.optional` and `Field.withDefault` read one field.
* `Value.word?`, `Value.text?`, `Value.bool?`, `Value.list?`, `Value.nullable?` and
  `Value.choice?` read plain values.
-/

namespace EditorInsight.Json

/-- What a record has for one of its fields. -/
inductive Field where
  | present (v : Value)
  /-- The object has no member of that name. -/
  | missing
  /-- The array ends before that field. -/
  | cutOff
deriving Inhabited

namespace Value

/-! ### Plain values -/

/-- A machine word. -/
def word? : Value → Option Nat
  | number n => n.toWord?
  | _ => none

/-- A string. -/
def text? : Value → Option String
  | string s => some s
  | _ => none

/-- A truth value. -/
def bool? : Value → Option Bool
  | bool b => some b
  | _ => none

/-- An array whose every item is read by `read`. -/
def list? {α : Type} (read : Value → Option α) : Value → Option (List α)
  | array items => items.mapM read
  | _ => none

/-- `null`, or what `read` reads. -/
def nullable? {α : Type} (read : Value → Option α) : Value → Option (Option α)
  | null => some none
  | v => (read v).map some

/-- One of finitely many names, given as a string or as an object whose only member has that name
and the value `null`. -/
def choice? {α : Type} (names : List (String × α)) : Value → Option α
  | string s => names.lookup s
  | object [(s, null)] => names.lookup s
  | _ => none

/-! ### Records -/

/-- The first member of a name. -/
def member? (name : String) (members : List (String × Value)) : Option Value :=
  (members.find? (·.1 == name)).map (·.2)

/-- Whether a name occurs more than once among the members. -/
def isRepeated (name : String) (members : List (String × Value)) : Bool :=
  1 < (members.filter (·.1 == name)).length

/-- The fields of a record with the given field names. An object that repeats one of these names is
no record, and neither is an array that is too long. -/
def fields? (names : List String) : Value → Option (List Field)
  | object members =>
    if names.any (isRepeated · members) then none
    else some (names.map fun name => (member? name members).elim .missing .present)
  | array items =>
    if items.length > names.length then none
    else some (items.map .present ++ List.replicate (names.length - items.length) .cutOff)
  | _ => none

end Value

namespace Field

/-- A field that has to be there. -/
def required {α : Type} (read : Value → Option α) : Field → Option α
  | present v => read v
  | missing | cutOff => none

/-- A field that may be `null`; in an object it may also be left out. -/
def optional {α : Type} (read : Value → Option α) : Field → Option (Option α)
  | present v => v.nullable? read
  | missing => some none
  | cutOff => none

/-- A field with a value of its own when it is left out, in either form. -/
def withDefault {α : Type} (default : α) (read : Value → Option α) : Field → Option α
  | present v => read v
  | missing | cutOff => some default

end Field

end EditorInsight.Json
