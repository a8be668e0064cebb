import EditorInsight.Diagnostic
import EditorInsight.LineIndex

/-!
# Annotations

How the findings of a linter are painted over the text of a buffer. Each finding that is drawn and
whose start lies in the text becomes a stretch of bytes. A stretch that would be empty is widened to
the character before it on the same line, so that a finding at the end of a line shows.

* `paintedRange?` is the stretch of one finding.
* `paint` is the list of annotations of a list of findings.
* `Layers` holds the annotations and the hover underline of one buffer. Its `revision` moves when
  the annotations are replaced and stays when nothing changes.
-/

namespace EditorInsight

/-- A stretch of a text in byte offsets, its end excluded. -/
structure Span where
  /-- The first offset. -/
  start : Nat
  /-- The offset behind the last byte. -/
  stop : Nat
deriving DecidableEq, Repr, Inhabited

/-- A painted finding. -/
structure Annotation where
  /-- What is underlined. -/
  span : Span
  /-- How it is underlined. -/
  style : IndicatorStyle
  /-- The code of the finding. -/
  code : String
  /-- The message of the finding. -/
  message : String
deriving DecidableEq, Repr, Inhabited

/-- The last character of the stretch between two offsets, if they are boundaries in order. -/
def lastCharBetween? (text : List Char) (start stop : Nat) : Option Char :=
  (Text.slice? text start stop).bind List.getLast?

/-- The stretch that a range is painted over. A range whose start does not lie in the text, or whose
end comes before its start, is not painted. -/
def paintedRange? (text : List Char) (ix : LineIndex) (r : Range) : Option Span :=
  match ix.offset? r.start with
  | .error _ => none
  | .ok start =>
    let stop := ix.clampedOffset r.resolvedEnd
    if stop < start then none
    else if start = stop then
      let lineStart := (ix.lineStart? r.start.line).getD start
      match lastCharBetween? text lineStart start with
      | some c => some ⟨start - c.utf8Size, stop⟩
      | none => some ⟨start, stop⟩
    else some ⟨start, stop⟩

/-- The annotation of one finding, if it is drawn and its range can be painted. -/
def annotationOf? (text : List Char) (ix : LineIndex) (d : Diagnostic) :
    Option Annotation :=
  if d.isRendered then
    (paintedRange? text ix d.range).map fun span => ⟨span, d.style, d.code, d.message⟩
  else none

/-- The annotations of a list of findings over a text, in the order of the findings. -/
def paint (text : String) (ds : List Diagnostic) : List Annotation :=
  let cs := text.toList
  let ix := LineIndex.ofChars cs
  ds.filterMap (annotationOf? cs ix)

/-- What is drawn over one buffer. -/
structure Layers where
  /-- The painted findings. -/
  annotations : List Annotation := []
  /-- The word under the pointer. -/
  underline : Option Span := none
  /-- Counts the times that the painted findings were replaced or removed. -/
  revision : Nat := 0
deriving DecidableEq, Repr, Inhabited

namespace Layers

/-- Paints findings over a text in place of what was painted before. -/
def apply (l : Layers) (text : String) (ds : List Diagnostic) : Layers :=
  { l with annotations := paint text ds, revision := l.revision + 1 }

/-- Removes every painted finding. Where there is none, nothing changes. -/
def clear (l : Layers) : Layers :=
  if l.annotations.isEmpty then l else { l with annotations := [], revision := l.revision + 1 }

/-- Underlines a word in place of the one underlined before. -/
def underlineWord (l : Layers) (span : Span) : Layers := { l with underline := some span }

/-- Removes the underline. -/
def clearUnderline (l : Layers) : Layers := { l with underline := none }

end Layers

end EditorInsight
