import EditorInsight.Proofs.Character
import EditorInsight.Proofs.LineIndex
import EditorInsight.Proofs.LineIndex.Lines

/-!
# What a finding is painted over

A finding is painted from its start to its end. The end is taken back to where there is text, and
this never puts it before a start that it was behind. If nothing is left to paint, the character
before it is painted instead, unless the line begins there.

* `PaintedFrom` says where a finding is painted from, `PaintedAs` what becomes of a finding.
* `spanBetween?` is what is left to do once the two offsets of a finding are known.
* `isSome_paintedRange?_iff` says which ranges are painted, and `paintedFrom_of_paintedRange?` over
  what.
* `paintedAs_annotationOf?` puts both together for the findings of a text.
-/

namespace EditorInsight

/-- Where a finding is painted from. Its line starts at `lineStart`, the finding starts at `start`,
and what is painted of it stops at `stop`. -/
inductive PaintedFrom (cs : List Char) (lineStart start stop : Nat) : Nat → Prop where
  /-- From where it starts, if there is something to paint. -/
  | own (something : start < stop) : PaintedFrom cs lineStart start stop start
  /-- From where the character before it begins, if that is on its line. -/
  | before {n : Nat} (nothing : start = stop) (onLine : lineStart ≤ n)
      (char : Text.CharAt cs n start) : PaintedFrom cs lineStart start stop n
  /-- From where it starts, if there is no character before it on its line. -/
  | alone (nothing : start = stop) (first : ∀ n, lineStart ≤ n → ¬ Text.CharAt cs n start) :
      PaintedFrom cs lineStart start stop start

theorem PaintedFrom.lineStart_le {cs : List Char} {lineStart start stop n : Nat}
    (h : PaintedFrom cs lineStart start stop n) (hle : lineStart ≤ start) : lineStart ≤ n := by
  cases h with
  | own => exact hle
  | before _ onLine _ => exact onLine
  | alone => exact hle

theorem PaintedFrom.le_stop {cs : List Char} {lineStart start stop n : Nat}
    (h : PaintedFrom cs lineStart start stop n) : n ≤ stop := by
  cases h with
  | own something => exact Nat.le_of_lt something
  | before nothing _ char => exact nothing ▸ Nat.le_of_lt char.start_lt_stop
  | alone nothing _ => exact Nat.le_of_eq nothing

/-- What becomes of one finding of a text. -/
structure PaintedAs (text : String) (d : Diagnostic) (x? : Option Annotation) : Prop where
  /-- A finding that is drawn, starts in the text and does not end before its start is painted. -/
  shown : d.isRendered = true → ∀ a, (LineIndex.ofText text).offset? d.range.start = .ok a →
    (∀ e, d.range.stop = some e → d.range.start ≤ e) → x?.isSome = true
  /-- A finding that is not drawn is not painted. -/
  hidden : d.isRendered = false → x? = none
  /-- A finding that does not start in the text is not painted. -/
  refused : ∀ e, (LineIndex.ofText text).offset? d.range.start = .error e → x? = none
  /-- What is painted looks as the finding says. -/
  look : ∀ x, x? = some x → x.style = d.style ∧ x.code = d.code ∧ x.message = d.message
  /-- What is painted stops at the end of the finding, taken back to where there is text. -/
  stop : ∀ x, x? = some x → x.span.stop = (LineIndex.ofText text).clampedOffset d.range.resolvedEnd
  /-- What is painted starts with the finding or with the character before, and not before the
  line. -/
  start : ∀ x, x? = some x → ∃ a lineStart, (LineIndex.ofText text).offset? d.range.start = .ok a ∧
    (LineIndex.ofText text).lineStart? d.range.start.line = some lineStart ∧
    lineStart ≤ x.span.start ∧
    PaintedFrom text.toList lineStart a x.span.stop x.span.start

/-! ### Ranges -/

section Ranges

variable {cs : List Char} {ix : LineIndex} {r : Range}

/-- Without an end a range ends behind its start. -/
theorem Range.start_le_resolvedEnd (h : ∀ e, r.stop = some e → r.start ≤ e) :
    r.start ≤ r.resolvedEnd := by
  unfold resolvedEnd
  cases hstop : r.stop with
  | none => exact Or.inr ⟨rfl, Nat.le_succ _⟩
  | some e => exact h e hstop

/-- The stretch of a finding, from where its line starts, where it starts and where it stops. A finding
that stops before its start has none. -/
def spanBetween? (cs : List Char) (lineStart start stop : Nat) : Option Span :=
  if stop < start then none
  else if start = stop then
    match lastCharBetween? cs lineStart start with
    | some c => some ⟨start - c.utf8Size, stop⟩
    | none => some ⟨start, stop⟩
  else some ⟨start, stop⟩

theorem paintedRange?_of_offset {a : Nat} (ha : ix.offset? r.start = .ok a) :
    paintedRange? cs ix r = spanBetween? cs ((ix.lineStart? r.start.line).getD a) a
      (ix.clampedOffset r.resolvedEnd) := by
  rw [paintedRange?, ha]
  rfl

theorem paintedRange?_of_error {e : PositionError} (he : ix.offset? r.start = .error e) :
    paintedRange? cs ix r = none := by
  rw [paintedRange?, he]

theorem isSome_spanBetween?_iff {lineStart start stop : Nat} :
    (spanBetween? cs lineStart start stop).isSome = true ↔ start ≤ stop := by
  unfold spanBetween?
  split
  · next hlt => exact iff_of_false Bool.false_ne_true (Nat.not_le.mpr hlt)
  · next hle =>
    -- an empty stretch is widened or kept, but never dropped
    refine iff_of_true ?_ (Nat.le_of_not_lt hle)
    split
    · split <;> rfl
    · rfl

theorem paintedFrom_of_spanBetween? {lineStart start stop : Nat} {span : Span}
    (hline : Text.isBoundary cs lineStart = true)
    (h : spanBetween? cs lineStart start stop = some span) :
    span.stop = stop ∧ PaintedFrom cs lineStart start stop span.start := by
  unfold spanBetween? at h
  split at h
  · cases h
  · next hle =>
    split at h
    · next hempty =>
      split at h
      · next c hlast =>
        -- an empty stretch takes the character before it, if its line has one
        obtain rfl := Option.some.inj h
        obtain ⟨honLine, -, hchar⟩ := charAt_of_lastCharBetween? hlast
        exact ⟨rfl, .before hempty honLine hchar⟩
      · next hnone =>
        obtain rfl := Option.some.inj h
        refine ⟨rfl, .alone hempty fun n hn hchar => ?_⟩
        obtain ⟨c, hlast, -⟩ := exists_lastCharBetween? hline hchar hn
        rw [hnone] at hlast
        cases hlast
    · next hne =>
      obtain rfl := Option.some.inj h
      exact ⟨rfl, .own (Nat.lt_of_le_of_ne (Nat.le_of_not_lt hle) hne)⟩

/-- A range is painted if and only if it starts in the text and its end, taken back, is not before
that. -/
theorem isSome_paintedRange?_iff :
    (paintedRange? cs ix r).isSome = true ↔
      ∃ a, ix.offset? r.start = .ok a ∧ a ≤ ix.clampedOffset r.resolvedEnd := by
  cases ha : ix.offset? r.start with
  | error e =>
    rw [paintedRange?_of_error ha]
    exact iff_of_false Bool.false_ne_true nofun
  | ok a =>
    rw [paintedRange?_of_offset ha, isSome_spanBetween?_iff]
    constructor
    · exact fun hle => ⟨a, rfl, hle⟩
    · rintro ⟨a', ha', hle⟩
      rwa [Except.ok.inj ha']

/-- A line begins where a character begins. -/
theorem LineIndex.isBoundary_lineStart {line start : Nat}
    (h : (ofChars cs).lineStart? line = some start) : Text.isBoundary cs start = true := by
  obtain ⟨before, chars, rest, after, hcs, -, -, hbefore, -⟩ := exists_lineChars_ofChars h
  rw [List.append_assoc] at hcs
  exact Text.isBoundary_iff_exists_append.mpr ⟨before, _, hcs, hbefore.symm⟩

/-- The stretch that a range of a text is painted over. -/
theorem paintedFrom_of_paintedRange? {span : Span}
    (h : paintedRange? cs (.ofChars cs) r = some span) :
    span.stop = (LineIndex.ofChars cs).clampedOffset r.resolvedEnd ∧
      ∃ a lineStart, (LineIndex.ofChars cs).offset? r.start = .ok a ∧
        (LineIndex.ofChars cs).lineStart? r.start.line = some lineStart ∧
        PaintedFrom cs lineStart a span.stop span.start := by
  obtain ⟨a, ha, -⟩ := isSome_paintedRange?_iff.mp (Option.isSome_of_eq_some h)
  obtain ⟨lineStart, hline, -⟩ := LineIndex.offset?_eq_ok ha
  rw [paintedRange?_of_offset ha, hline, Option.getD_some] at h
  obtain ⟨hstop, hfrom⟩ :=
    paintedFrom_of_spanBetween? (LineIndex.isBoundary_lineStart hline) h
  rw [hstop]
  exact ⟨rfl, a, lineStart, ha, hline, hfrom⟩

end Ranges

/-! ### Findings -/

theorem annotationOf?_eq_some {cs : List Char} {ix : LineIndex} {d : Diagnostic} {x : Annotation} :
    annotationOf? cs ix d = some x ↔
      d.isRendered = true ∧ paintedRange? cs ix d.range = some x.span ∧
        x.style = d.style ∧ x.code = d.code ∧ x.message = d.message := by
  unfold annotationOf?
  constructor
  · intro h
    split at h
    · next hr =>
      obtain ⟨span, hspan, rfl⟩ := Option.map_eq_some_iff.mp h
      exact ⟨hr, hspan, rfl, rfl, rfl⟩
    · cases h
  · rintro ⟨hr, hspan, hstyle, hcode, hmessage⟩
    rw [if_pos hr, hspan]
    obtain ⟨span, style, code, message⟩ := x
    obtain ⟨rfl, rfl, rfl⟩ : style = d.style ∧ code = d.code ∧ message = d.message :=
      ⟨hstyle, hcode, hmessage⟩
    rfl

/-- **What becomes of a finding.** -/
theorem paintedAs_annotationOf? (text : String) (d : Diagnostic) :
    PaintedAs text d (annotationOf? text.toList (.ofText text) d) where
  shown := by
    intro hr a ha hend
    -- clamping keeps the order, and leaves a start that is in the text alone
    have hle : a ≤ (LineIndex.ofText text).clampedOffset d.range.resolvedEnd :=
      (LineIndex.ordered_ofChars _).le_clampedOffset ha (Range.start_le_resolvedEnd hend)
    rw [annotationOf?, if_pos hr, Option.isSome_map]
    exact isSome_paintedRange?_iff.mpr ⟨a, ha, hle⟩
  hidden := by
    intro hr
    rw [annotationOf?, hr]
    rfl
  refused := by
    intro e he
    refine Option.eq_none_iff_forall_ne_some.mpr fun x hx => ?_
    obtain ⟨-, hspan, -⟩ := annotationOf?_eq_some.mp hx
    obtain ⟨a, ha, -⟩ := isSome_paintedRange?_iff.mp (Option.isSome_of_eq_some hspan)
    cases he.symm.trans ha
  look := by
    intro x hx
    exact (annotationOf?_eq_some.mp hx).2.2
  stop := by
    intro x hx
    exact (paintedFrom_of_paintedRange? (annotationOf?_eq_some.mp hx).2.1).1
  start := by
    intro x hx
    obtain ⟨-, a, lineStart, ha, hline, hfrom⟩ :=
      paintedFrom_of_paintedRange? (annotationOf?_eq_some.mp hx).2.1
    obtain ⟨lineStart', hline', hcolumn, -⟩ := LineIndex.offset?_eq_ok ha
    obtain rfl := Option.some.inj (hline.symm.trans hline')
    -- the offset of the start is that of its line and the column
    refine ⟨a, lineStart, ha, hline, hfrom.lineStart_le ?_, hfrom⟩
    omega

end EditorInsight
