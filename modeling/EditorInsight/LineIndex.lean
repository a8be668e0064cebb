import EditorInsight.Position
import EditorInsight.Text.Bytes

/-!
# Line index

A table of the offsets at which the lines of a text start. It turns positions into offsets and
offsets into positions. Lines are ended by a newline character alone; a carriage return in front of
it belongs to the line, but not to the text of the line.

* `LineIndex.ofText` builds the table.
* `LineIndex.offset?` accepts exactly the positions up to the end of an existing line.
* `LineIndex.clampedOffset` gives every position an offset.
* `LineIndex.position` gives every offset a position.
* `LineIndex.lineText?` takes a line out of a text.
-/

namespace EditorInsight

/-- The offsets behind each newline, for characters that begin at the given offset. -/
def offsetsBehindNewlines : Nat → List Char → List Nat
  | _, [] => []
  | offset, c :: cs =>
    let next := offset + c.utf8Size
    if c = '\n' then next :: offsetsBehindNewlines next cs else offsetsBehindNewlines next cs

/-- The offsets at which the lines of a text start, and the length of the text. -/
structure LineIndex where
  /-- The first line starts at zero, every other line behind a newline. -/
  starts : List Nat
  /-- The length of the text in bytes. -/
  size : Nat
deriving DecidableEq, Repr

namespace LineIndex

/-- The index of a sequence of characters. -/
def ofChars (cs : List Char) : LineIndex :=
  ⟨0 :: offsetsBehindNewlines 0 cs, Text.width cs⟩

/-- The index of a text. -/
def ofText (text : String) : LineIndex := ofChars text.toList

/-- How many lines there are. A text always has at least one. -/
def lineCount (ix : LineIndex) : Nat := ix.starts.length

/-- Where a line starts, with lines counted from one. -/
def lineStart? (ix : LineIndex) (line : Nat) : Option Nat :=
  if line = 0 then none else ix.starts[line - 1]?

/-- Where a line ends, before its newline, with lines counted from one. -/
def lineEnd (ix : LineIndex) (line : Nat) : Nat :=
  match ix.starts[line]? with
  | some next => next - 1
  | none => ix.size

/-- The offset of a position. The column may be that of the line's end, but not beyond it. -/
def offset? (ix : LineIndex) (p : Position) : Except PositionError Nat :=
  match ix.lineStart? p.line with
  | none => .error (.lineOutOfRange p.line ix.lineCount)
  | some start =>
    let length := ix.lineEnd p.line - start
    if p.column > length then .error (.columnOutOfRange p.line p.column length)
    else .ok (start + p.column)

/-- The offset nearest to a position: a column past the end of its line is taken back to it, a line
past the last one to the end of the text, and an unknown line to the start. -/
def clampedOffset (ix : LineIndex) (p : Position) : Nat :=
  if p.line = 0 then 0
  else
    match ix.lineStart? p.line with
    | some start => min (start + p.column) (ix.lineEnd p.line)
    | none => ix.size

/-- The position of an offset. An offset past the end is taken back to the end. -/
def position (ix : LineIndex) (offset : Nat) : Position :=
  let offset := min offset ix.size
  let upTo := ix.starts.takeWhile (· ≤ offset)
  ⟨upTo.length, offset - upTo.getLastD 0⟩

/-- The characters of a line of `text`, without its newline and without a carriage return before
it. The index may be that of another text; then the stretch may not exist in this one. -/
def lineChars? (ix : LineIndex) (text : List Char) (line : Nat) : Option (List Char) := do
  let start ← ix.lineStart? line
  let cs ← Text.slice? text start (ix.lineEnd line)
  return if cs.getLast? = some '\r' then cs.dropLast else cs

/-- The text of a line, as `lineChars?`. -/
def lineText? (ix : LineIndex) (text : String) (line : Nat) : Option String :=
  (ix.lineChars? text.toList line).map String.ofList

end LineIndex

end EditorInsight
