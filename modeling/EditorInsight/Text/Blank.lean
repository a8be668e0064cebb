/-!
# Blank characters

The Unicode property *White_Space*, and the two operations the library needs on it: dropping blanks
from both ends of a text, and asking whether a text is nothing but blanks.

* `trim` drops blanks from both ends.
* `isBlankText` asks for nothing but blanks.
-/

namespace EditorInsight.Text

/-- Membership in the Unicode property *White_Space*. -/
def isBlank (c : Char) : Bool :=
  let code := c.toNat
  (0x09 ≤ code && code ≤ 0x0D) || code == 0x20 || code == 0x85 || code == 0xA0 || code == 0x1680 ||
    (0x2000 ≤ code && code ≤ 0x200A) || code == 0x2028 || code == 0x2029 || code == 0x202F ||
    code == 0x205F || code == 0x3000

/-- The characters left after dropping blanks from both ends. -/
def trimChars (cs : List Char) : List Char :=
  ((cs.dropWhile isBlank).reverse.dropWhile isBlank).reverse

/-- The text without the blanks at its two ends. -/
def trim (s : String) : String :=
  String.ofList (trimChars s.toList)

/-- A text of nothing but blanks; the empty text is one. -/
def isBlankText (s : String) : Bool :=
  s.toList.all isBlank

/-- Text without any blank at its end; `drop` says which characters count. -/
def trimEndChars (drop : Char → Bool) (cs : List Char) : List Char :=
  (cs.reverse.dropWhile drop).reverse

end EditorInsight.Text
