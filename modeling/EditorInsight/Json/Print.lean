import EditorInsight.Json.Value

/-!
# Writing JSON text

The compact form of a value: no blanks, members in their order, and only those characters escaped
that have to be.

* `Value.toChars` and `render` write a value.
* `escape` writes one character of a string.
-/

namespace EditorInsight.Json

/-- A hexadecimal digit in lower case. -/
def hexDigit (n : Nat) : Char := Nat.digitChar n

/-- The characters that stand for one character of a string. -/
def escape (c : Char) : List Char :=
  if c == '"' then ['\\', '"']
  else if c == '\\' then ['\\', '\\']
  else if c == '\x08' then ['\\', 'b']
  else if c == '\x0c' then ['\\', 'f']
  else if c == '\n' then ['\\', 'n']
  else if c == '\r' then ['\\', 'r']
  else if c == '\t' then ['\\', 't']
  else if c.toNat < 0x20 then
    ['\\', 'u', '0', '0', hexDigit (c.toNat / 16), hexDigit (c.toNat % 16)]
  else [c]

/-- The characters of a string literal. -/
def stringChars (s : String) : List Char :=
  '"' :: s.toList.flatMap escape ++ ['"']

namespace Value

mutual

/-- The characters of a value in compact form. What has no value is written as `null`. -/
def toChars : Value → List Char
  | null | unreadable => "null".toList
  | bool b => (if b then "true" else "false").toList
  | number n => n.toChars
  | string s => stringChars s
  | array items => '[' :: itemsChars items ++ [']']
  | object members => '\x7b' :: membersChars members ++ ['\x7d']

/-- Items, separated by commas. -/
def itemsChars : List Value → List Char
  | [] => []
  | [v] => toChars v
  | v :: w :: vs => toChars v ++ ',' :: itemsChars (w :: vs)

/-- Members, separated by commas. -/
def membersChars : List (String × Value) → List Char
  | [] => []
  | [(k, v)] => stringChars k ++ ':' :: toChars v
  | (k, v) :: m :: ms => stringChars k ++ ':' :: toChars v ++ ',' :: membersChars (m :: ms)

end

end Value

/-- The compact text of a value. -/
def render (v : Value) : String := String.ofList v.toChars

end EditorInsight.Json
