/-!
# Positions and ranges

Where a finding, a definition or a caret is: a line and a column. Lines count from one, and line
zero says that the place is not known. Columns are byte offsets into the line and count from zero.

* `Position` with its order, first by line and then by column.
* `Range` and `Range.resolvedEnd`: a range without an end covers one column.
* `PositionError` and its wording.
-/

namespace EditorInsight

/-- A place in a text: a line, counted from one, and a byte column, counted from zero. -/
structure Position where
  /-- The line; zero if the place is not known. -/
  line : Nat
  /-- The byte offset into the line. -/
  column : Nat
deriving DecidableEq, Repr, Inhabited

namespace Position

/-- A place that is not known. -/
def unknown : Position := ⟨0, 0⟩

/-- Whether the place is known. -/
def isResolved (p : Position) : Bool := p.line != 0

/-- Earlier lines come first; on one line, smaller columns do. -/
instance : LT Position where
  lt p q := p.line < q.line ∨ (p.line = q.line ∧ p.column < q.column)

/-- Equal to or before the other. -/
instance : LE Position where
  le p q := p.line < q.line ∨ (p.line = q.line ∧ p.column ≤ q.column)

instance (p q : Position) : Decidable (p < q) :=
  inferInstanceAs (Decidable (p.line < q.line ∨ (p.line = q.line ∧ p.column < q.column)))

instance (p q : Position) : Decidable (p ≤ q) :=
  inferInstanceAs (Decidable (p.line < q.line ∨ (p.line = q.line ∧ p.column ≤ q.column)))

end Position

/-- A stretch of text. Without an end it covers the token at its start. -/
structure Range where
  /-- Where the range starts. -/
  start : Position
  /-- Where the range stops, if that is known. -/
  stop : Option Position
deriving DecidableEq, Repr, Inhabited

namespace Range

/-- The range of a single place. -/
def point (start : Position) : Range := ⟨start, none⟩

/-- The end of the range; one column behind the start if none is known. -/
def resolvedEnd (r : Range) : Position :=
  r.stop.getD ⟨r.start.line, r.start.column + 1⟩

end Range

/-- Why a position has no offset. -/
inductive PositionError where
  /-- The text has no such line. -/
  | lineOutOfRange (line lineCount : Nat)
  /-- The line ends before the column. -/
  | columnOutOfRange (line column lineLength : Nat)
deriving DecidableEq, Repr

/-- The wording of a position error. -/
def PositionError.message : PositionError → String
  | lineOutOfRange line lineCount =>
    s!"line {line} is out of range (buffer has {lineCount} lines)"
  | columnOutOfRange line column lineLength =>
    s!"column {column} is out of range on line {line} (line length {lineLength})"

end EditorInsight
