import EditorInsight.Text.Bytes

/-!
# Columns in bytes and in characters

Buffers count columns in bytes; the analysis engine counts them in characters. A column past the end
of its line keeps its distance from the end in either count.

* `charColumn` counts the characters that begin before a byte column.
* `byteColumn` finds the byte at which a character begins.
-/

namespace EditorInsight

/-- The characters of a line that begin before the given byte column. -/
def charsBefore : List Char → Nat → Nat
  | [], _ => 0
  | _, 0 => 0
  | c :: cs, column + 1 => 1 + charsBefore cs (column + 1 - c.utf8Size)

/-- The character column of a byte column. Inside a character it is that of the next one. -/
def charColumn (line : List Char) (column : Nat) : Nat :=
  charsBefore line column + (column - Text.width line)

/-- The byte column of a character column. -/
def byteColumn (line : List Char) (column : Nat) : Nat :=
  Text.width (line.take column) + (column - line.length)

end EditorInsight
