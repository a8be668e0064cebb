import EditorInsight.Annotation
import EditorInsight.Arithmetic

/-!
# Painting with machine words

Painting as a machine does it, with every sum and every difference computed in words. The columns of
findings come from the linter and may be any words, so it has to be seen whether a sum is one. A
build that checks its sums may stop here, and then there is no result.

* `LineIndex.ofCharsInWords?`, `LineIndex.offsetInWords?` and `LineIndex.clampedOffsetInWords?` are
  the line index; `Range.resolvedEndInWords?` is the end of a range.
* `paintInWords?` is the list of annotations of a list of findings. Other builds than the one with
  checks never stop at it, and give `paintInWords`; `settled_paintInWords?` says that a build with
  checks stops or gives the same.
* `Layers.applyBy` paints findings in place of what was painted before, by any `Painter`;
  `Layers.applyInWords?` and `Layers.applyInWords` are a build that may stop and one that does not.
-/

namespace EditorInsight

/-- The end of the range; one column behind the start if none is known. That column is computed
even if it is not needed. -/
def Range.resolvedEndInWords? (m : Arithmetic) (r : Range) : Option Position := do
  let column ← m.add? r.start.column 1
  return r.stop.getD ⟨r.start.line, column⟩

/-- The offsets of the newlines, for characters that begin at the given offset. -/
def newlineOffsets : Nat → List Char → List Nat
  | _, [] => []
  | offset, c :: cs =>
    let next := offset + c.utf8Size
    if c = '\n' then offset :: newlineOffsets next cs else newlineOffsets next cs

namespace LineIndex

/-- The index of a sequence of characters. -/
def ofCharsInWords? (m : Arithmetic) (cs : List Char) : Option LineIndex := do
  let behind ← (newlineOffsets 0 cs).mapM (m.add? · 1)
  return ⟨0 :: behind, Text.width cs⟩

/-- Where a line ends, before its newline, with lines counted from one. -/
def lineEndInWords? (m : Arithmetic) (ix : LineIndex) (line : Nat) : Option Nat :=
  match ix.starts[line]? with
  | some next => m.sub? next 1
  | none => some ix.size

/-- The offset of a position, or the error of a position that has none. -/
def offsetInWords? (m : Arithmetic) (ix : LineIndex) (p : Position) :
    Option (Except PositionError Nat) :=
  match ix.lineStart? p.line with
  | none => some (.error (.lineOutOfRange p.line ix.lineCount))
  | some start => do
    let stop ← ix.lineEndInWords? m p.line
    let length ← m.sub? stop start
    if p.column > length then return .error (.columnOutOfRange p.line p.column length)
    else return .ok (← m.add? start p.column)

/-- The offset nearest to a position. The column is added before the sum is taken back to the end of
the line. -/
def clampedOffsetInWords? (m : Arithmetic) (ix : LineIndex) (p : Position) : Option Nat :=
  if p.line = 0 then some 0
  else
    match ix.lineStart? p.line with
    | some start => do
      let offset ← m.add? start p.column
      let stop ← ix.lineEndInWords? m p.line
      return min offset stop
    | none => some ix.size

end LineIndex

/-- The stretch that a range is painted over, if it is painted. -/
def paintedRangeInWords? (m : Arithmetic) (text : List Char) (ix : LineIndex) (r : Range) :
    Option (Option Span) := do
  match ← ix.offsetInWords? m r.start with
  | .error _ => return none
  | .ok start =>
    let stop ← ix.clampedOffsetInWords? m (← r.resolvedEndInWords? m)
    if stop < start then return none
    else if start = stop then
      -- an empty stretch is widened by the character before it, which has to be on its line
      let lineStart := (ix.lineStart? r.start.line).getD start
      match lastCharBetween? text lineStart start with
      | some c => return some ⟨← m.sub? start c.utf8Size, stop⟩
      | none => return some ⟨start, stop⟩
    else return some ⟨start, stop⟩

/-- The annotation of one finding, if it is drawn and its range can be painted. -/
def annotationInWords? (m : Arithmetic) (text : List Char) (ix : LineIndex) (d : Diagnostic) :
    Option (Option Annotation) :=
  if d.isRendered then do
    let span? ← paintedRangeInWords? m text ix d.range
    return span?.map fun span => ⟨span, d.style, d.code, d.message⟩
  else some none

/-- The annotations of a list of findings over a text, in the order of the findings. -/
def paintInWords? (m : Arithmetic) (text : String) (ds : List Diagnostic) :
    Option (List Annotation) := do
  let cs := text.toList
  let ix ← LineIndex.ofCharsInWords? m cs
  ds.filterMapM (annotationInWords? m cs ix)

/-! ### Builds -/

section Settled

variable {ix : LineIndex} {cs : List Char} {r : Range}

open Arithmetic (Settled)

theorem Range.settled_resolvedEndInWords? (r : Range) : Settled (r.resolvedEndInWords? ·) :=
  (Settled.add _ _).bind fun _ => .const _

namespace LineIndex

theorem settled_ofCharsInWords? (cs : List Char) : Settled (ofCharsInWords? · cs) :=
  (Settled.mapM fun n => .add n 1).bind fun _ => .const _

theorem settled_lineEndInWords? (ix : LineIndex) (line : Nat) :
    Settled (ix.lineEndInWords? · line) := by
  unfold lineEndInWords?
  cases ix.starts[line]? with
  | some next => exact .sub next 1
  | none => exact .const ix.size

theorem settled_offsetInWords? (ix : LineIndex) (p : Position) : Settled (ix.offsetInWords? · p) := by
  unfold offsetInWords?
  cases ix.lineStart? p.line with
  | none => exact .const _
  | some start =>
    refine (ix.settled_lineEndInWords? p.line).bind fun stop =>
      (Settled.sub stop start).bind fun length => ?_
    by_cases hcolumn : p.column > length
    · simp only [if_pos hcolumn]
      exact .const _
    · simp only [if_neg hcolumn]
      exact (Settled.add start p.column).bind fun _ => .const _

theorem settled_clampedOffsetInWords? (ix : LineIndex) (p : Position) :
    Settled (ix.clampedOffsetInWords? · p) := by
  unfold clampedOffsetInWords?
  by_cases hline : p.line = 0
  · simp only [if_pos hline]
    exact .const 0
  · simp only [if_neg hline]
    cases ix.lineStart? p.line with
    | some start =>
      exact (Settled.add start p.column).bind fun _ =>
        (ix.settled_lineEndInWords? p.line).bind fun _ => .const _
    | none => exact .const ix.size

end LineIndex

theorem settled_paintedRangeInWords? (cs : List Char) (ix : LineIndex) (r : Range) :
    Settled (paintedRangeInWords? · cs ix r) := by
  unfold paintedRangeInWords?
  refine (ix.settled_offsetInWords? r.start).bind fun start? => ?_
  cases start? with
  | error e => exact .const none
  | ok start =>
    refine r.settled_resolvedEndInWords?.bind fun e =>
      (ix.settled_clampedOffsetInWords? e).bind fun stop => ?_
    by_cases hinverted : stop < start
    · simp only [if_pos hinverted]
      exact .const none
    · simp only [if_neg hinverted]
      by_cases hempty : start = stop
      · simp only [if_pos hempty]
        cases lastCharBetween? cs ((ix.lineStart? r.start.line).getD start) start with
        | some c => exact (Settled.sub start c.utf8Size).bind fun _ => .const _
        | none => exact .const _
      · simp only [if_neg hempty]
        exact .const _

theorem settled_annotationInWords? (cs : List Char) (ix : LineIndex) (d : Diagnostic) :
    Settled (annotationInWords? · cs ix d) := by
  unfold annotationInWords?
  cases d.isRendered with
  | true => exact (settled_paintedRangeInWords? cs ix d.range).bind fun _ => .const _
  | false => exact .const none

/-- A build paints as every other build does, or it stops. -/
theorem settled_paintInWords? (text : String) (ds : List Diagnostic) :
    Settled (paintInWords? · text ds) :=
  (LineIndex.settled_ofCharsInWords? text.toList).bind fun ix =>
    .filterMapM fun d => settled_annotationInWords? text.toList ix d

end Settled

/-- The annotations of a list of findings over a text in every build that does not stop. -/
def paintInWords (text : String) (ds : List Diagnostic) : List Annotation :=
  (paintInWords? .wrapping text ds).get (settled_paintInWords? text ds).isSome

/-- A way to paint a list of findings over a text. What else it does besides, such as to stop, is up to
the monad. -/
abbrev Painter (m : Type → Type) := String → List Diagnostic → m (List Annotation)

/-- Painting that never stops. -/
def Painter.unchecked {m : Type → Type} [Monad m] : Painter m := fun text ds =>
  return paintInWords text ds

/-- Painting in a build that may stop, among other effects. -/
def Painter.ofBuild {m : Type → Type} [Monad m] (build : Arithmetic) : Painter (OptionT m) :=
  fun text ds => OptionT.mk (pure (paintInWords? build text ds))

namespace Layers

/-- Paints findings over a text in place of what was painted before. -/
def applyBy {m : Type → Type} [Monad m] (paint : Painter m) (l : Layers) (text : String)
    (ds : List Diagnostic) : m Layers := do
  let annotations ← paint text ds
  return { l with annotations := annotations, revision := l.revision + 1 }

/-- Paints findings in a build that may stop. -/
def applyInWords? (m : Arithmetic) (l : Layers) (text : String) (ds : List Diagnostic) :
    Option Layers :=
  l.applyBy (paintInWords? m) text ds

/-- Paints findings in a build that does not stop. -/
def applyInWords (l : Layers) (text : String) (ds : List Diagnostic) : Layers :=
  Id.run (l.applyBy Painter.unchecked text ds)

end Layers

end EditorInsight
