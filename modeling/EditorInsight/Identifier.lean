import EditorInsight.Text.Alphanumeric
import EditorInsight.Text.Bytes

/-!
# The identifier at an offset

The word under the pointer, and the partial word before the caret: the longest run of identifier
characters that touches an offset.

* `runAt?` finds the run for any class of characters.
* `identifierAt?` finds it for letters, digits and the underscore.
-/

namespace EditorInsight

/-- The characters of an identifier: letters and numbers of every script, and the underscore. -/
def isIdentifierChar (c : Char) : Bool := c == '_' || Text.isAlphanumeric c

/-- The characters at the end of a text that belong to the class. -/
def trailingRun (member : Char → Bool) (cs : List Char) : List Char :=
  (cs.reverse.takeWhile member).reverse

/-- The bounds of the run of class members that touches an offset. There is none if the offset is no
character boundary or has no class member on either side. -/
def runAt? (member : Char → Bool) (cs : List Char) (offset : Nat) : Option (Nat × Nat) := do
  let (before, after) ← Text.cutAt? cs offset
  let start := offset - Text.width (trailingRun member before)
  let stop := offset + Text.width (after.takeWhile member)
  if start < stop then some (start, stop) else none

/-- The bounds of the identifier that touches an offset of a text. -/
def identifierAt? (text : String) (offset : Nat) : Option (Nat × Nat) :=
  runAt? isIdentifierChar text.toList offset

end EditorInsight
