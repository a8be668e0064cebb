/-!
# Patterns of names

A pattern describes names: `?` stands for any character, `*` for any characters, a class in brackets
for one character of it, or, behind an exclamation mark, for one that is not in it. Two stars stand
for directories at any depth, and have to be a component of their own.

* `Token.scan` reads a pattern, `PatternError` says why it is none.
* `Token.accepts` says whether a name follows a pattern.
* `Token.literal?` is the name of a pattern that describes only one.
-/

namespace EditorInsight.Glob

/-- One part of a class. -/
inductive ClassItem where
  | single (c : Char)
  | span (first last : Char)
deriving DecidableEq, Repr, Inhabited

namespace ClassItem

/-- Whether a part contains a character. -/
def contains (c : Char) : ClassItem → Bool
  | single d => c == d
  | span first last => first ≤ c && c ≤ last

/-- The parts of a class. A hyphen between two characters makes a span of them. -/
def ofChars : List Char → List ClassItem
  | a :: '-' :: b :: rest => span a b :: ofChars rest
  | a :: rest => single a :: ofChars rest
  | [] => []

end ClassItem

/-- One part of a pattern. -/
inductive Token where
  | char (c : Char)
  | anyChar
  | anyChars
  /-- Directories at any depth. -/
  | anyDepth
  | within (items : List ClassItem)
  | outside (items : List ClassItem)
deriving DecidableEq, Repr, Inhabited

/-- What is wrong with a pattern. -/
inductive PatternFault where
  /-- There are more than two stars in a row. -/
  | tooManyStars
  /-- Two stars are not a component of their own. -/
  | depthInName
  /-- A class is not closed, or it is empty. -/
  | openClass
deriving DecidableEq, Repr, Inhabited

/-- The wording of a fault. -/
def PatternFault.message : PatternFault → String
  | tooManyStars => "wildcards are either regular \x60*\x60 or recursive \x60**\x60"
  | depthInName => "recursive wildcards must form a single path component"
  | openClass => "invalid range pattern"

/-- Why a text is no pattern. -/
structure PatternError where
  /-- The number of characters in front of the fault. -/
  position : Nat
  /-- What is wrong there. -/
  fault : PatternFault
deriving DecidableEq, Repr, Inhabited

/-- The wording of an error. -/
def PatternError.message (e : PatternError) : String :=
  s!"Pattern syntax error near position {e.position}: " ++ e.fault.message

namespace Token

mutual

/-- Reads a pattern. The text stands at a position behind a character, or at the start. -/
def scanFrom (pos : Nat) (previous : Option Char) : List Char → Except PatternError (List Token)
  | [] => .ok []
  | '?' :: rest => do return anyChar :: (← scanFrom (pos + 1) (some '?') rest)
  | '*' :: '*' :: '*' :: _ => .error ⟨pos + 2, .tooManyStars⟩
  | ['*', '*'] =>
    if previous = none ∨ previous = some '/' then .ok [anyDepth] else .error ⟨pos - 1, .depthInName⟩
  | '*' :: '*' :: c :: rest =>
    if previous = none ∨ previous = some '/' then
      if c = '/' then do return anyDepth :: (← scanFrom (pos + 3) (some '/') rest)
      else .error ⟨pos + 2, .depthInName⟩
    else .error ⟨pos - 1, .depthInName⟩
  | '*' :: rest => do return anyChars :: (← scanFrom (pos + 1) (some '*') rest)
  | '[' :: '!' :: c :: rest => scanClass pos (pos + 3) true [c] rest
  | ['[', '!'] | ['['] => .error ⟨pos, .openClass⟩
  | '[' :: c :: rest => scanClass pos (pos + 2) false [c] rest
  | c :: rest => do return char c :: (← scanFrom (pos + 1) (some c) rest)

/-- Reads the rest of a class that was opened at a position; `seen` are the characters in it so far,
the last one first. The first character never closes the class. -/
def scanClass (opened pos : Nat) (negated : Bool) (seen : List Char) :
    List Char → Except PatternError (List Token)
  | [] => .error ⟨opened, .openClass⟩
  | ']' :: rest => do
    let items := ClassItem.ofChars seen.reverse
    return (if negated then outside items else within items) ::
      (← scanFrom (pos + 1) (some ']') rest)
  | c :: rest => scanClass opened (pos + 1) negated (c :: seen) rest

end

/-- Reads a pattern. -/
def scan (text : List Char) : Except PatternError (List Token) := scanFrom 0 none text

/-- The ends of a list, the whole list first. -/
def ends : List Char → List (List Char)
  | [] => [[]]
  | c :: cs => (c :: cs) :: ends cs

/-- Whether a token stands for a character. -/
def acceptsChar (c : Char) : Token → Bool
  | char d => c == d
  | anyChar => true
  | within items => items.any (·.contains c)
  | outside items => !items.any (·.contains c)
  | anyChars | anyDepth => false

/-- Whether a name follows a pattern. -/
def accepts : List Token → List Char → Bool
  | [], name => name.isEmpty
  | anyChars :: tokens, name | anyDepth :: tokens, name => (ends name).any (accepts tokens)
  | _ :: _, [] => false
  | token :: tokens, c :: name => acceptsChar c token && accepts tokens name

/-- The only name that follows a pattern without wildcards. -/
def literal? : List Token → Option (List Char)
  | [] => some []
  | char c :: tokens => (literal? tokens).map (c :: ·)
  | _ :: _ => none

end Token

end EditorInsight.Glob
