import EditorInsight.Painting
import EditorInsight.Proofs.Painting.Spans

/-!
# When painting stays in words

Offsets of a text are words, since a text takes up less than half of the memory that words can
address. A column need not have anything to do with the text. The start of a finding is held against
its line before its column is added to anything; the end of a finding is not, so here a sum may be
too large.

* `Text.IsStorable` bounds the length of texts.
* `Diagnostic.EndFits` says of a finding that the sum for its end is a word, if it is computed.
* `paintInWords?_eq`: if the sums of all findings are words, painting in words is painting.
* `paintInWords?_eq_none`: with checks the program stops at every other list of findings.
-/

namespace EditorInsight

open Json (wordSize)

/-- Whether a text can be held in memory: no text takes up half of it or more. -/
def Text.IsStorable (text : String) : Prop := 2 * Text.byteLength text < wordSize

instance (text : String) : Decidable (Text.IsStorable text) :=
  inferInstanceAs (Decidable (2 * Text.byteLength text < wordSize))

theorem Text.IsStorable.width_lt {text : String} (h : Text.IsStorable text) :
    Text.width text.toList < wordSize := by
  have hlength : 2 * Text.width text.toList < wordSize := h
  omega

/-- Whether the sum for the end of a finding is a word. The sum is computed if the finding is drawn,
starts in the text, and has an end on a line of the text. -/
def Diagnostic.EndFits (text : String) (d : Diagnostic) : Prop :=
  d.isRendered = true → ∀ a, (LineIndex.ofText text).offset? d.range.start = .ok a →
    ∀ e, d.range.stop = some e → ∀ start, (LineIndex.ofText text).lineStart? e.line = some start →
      start + e.column < wordSize

/-! ### The line index -/

theorem offsetsBehindNewlines_eq_map (k : Nat) (cs : List Char) :
    offsetsBehindNewlines k cs = (newlineOffsets k cs).map (· + 1) := by
  induction cs generalizing k with
  | nil => rfl
  | cons c cs ih =>
    rw [offsetsBehindNewlines, newlineOffsets]
    split
    · next hc =>
      -- a newline is one byte wide
      subst hc
      rw [List.map_cons, ih]
      rfl
    · exact ih _

theorem mapM_eq_some_map {α β : Type} {f : α → Option β} {g : α → β} {xs : List α}
    (h : ∀ x ∈ xs, f x = some (g x)) : xs.mapM f = some (xs.map g) := by
  induction xs with
  | nil => rfl
  | cons x xs ih =>
    obtain ⟨hx, hxs⟩ := List.forall_mem_cons.mp h
    rw [List.mapM_cons, hx, ih hxs]
    rfl

theorem mem_of_mapM {α β : Type} {f : α → Option β} {xs : List α} {ys : List β}
    (h : xs.mapM f = some ys) {y : β} (hy : y ∈ ys) : ∃ x ∈ xs, f x = some y := by
  induction xs generalizing ys with
  | nil =>
    obtain rfl := Option.some.inj h
    cases hy
  | cons x xs ih =>
    rw [List.mapM_cons] at h
    obtain ⟨y', hx, h⟩ := Option.bind_eq_some_iff.mp h
    obtain ⟨ys', hxs, h⟩ := Option.bind_eq_some_iff.mp h
    obtain rfl := Option.some.inj h
    rcases List.mem_cons.mp hy with rfl | hy
    · exact ⟨x, List.mem_cons_self, hx⟩
    · obtain ⟨x', hmem, hx'⟩ := ih hxs hy
      exact ⟨x', List.mem_cons_of_mem x hmem, hx'⟩

namespace LineIndex

variable {m : Arithmetic} {ix : LineIndex}

theorem ofCharsInWords?_eq {cs : List Char} (hsize : Text.width cs < wordSize) :
    ofCharsInWords? m cs = some (ofChars cs) := by
  have hbehind : (newlineOffsets 0 cs).mapM (m.add? · 1)
      = some ((newlineOffsets 0 cs).map (· + 1)) := by
    refine mapM_eq_some_map fun n hn => Arithmetic.add?_eq ?_
    -- what is behind a newline is not past the end
    have hmem : n + 1 ∈ offsetsBehindNewlines 0 cs := by
      rw [offsetsBehindNewlines_eq_map]
      exact List.mem_map_of_mem hn
    have hle := (mem_offsetsBehindNewlines hmem).2
    omega
  rw [ofCharsInWords?, hbehind, ofChars, offsetsBehindNewlines_eq_map]
  rfl

theorem lineEndInWords?_eq (h : ix.Ordered) {line start : Nat}
    (hs : ix.lineStart? line = some start) : ix.lineEndInWords? m line = some (ix.lineEnd line) := by
  unfold lineEndInWords? lineEnd
  cases hnext : ix.starts[line]? with
  | none => rfl
  | some next =>
    -- a line that follows another one does not start at zero
    obtain ⟨hpos, hget⟩ := lineStart?_eq_some hs
    have hlt : start < next := h.getElem?_lt (Nat.sub_one_lt_of_lt hpos) hget hnext
    exact Arithmetic.sub?_eq (Nat.one_le_of_lt hlt)

/-- The column of a position is held against its line before it is added. -/
theorem offsetInWords?_eq (h : ix.Ordered) (hsize : ix.size < wordSize) (p : Position) :
    ix.offsetInWords? m p = some (ix.offset? p) := by
  unfold offsetInWords? offset?
  cases hs : ix.lineStart? p.line with
  | none => rfl
  | some start =>
    have hle := h.lineStart_le_lineEnd hs
    have hend := h.lineEnd_le_size p.line
    simp only [lineEndInWords?_eq h hs, Arithmetic.sub?_eq hle, Option.bind_eq_bind,
      Option.bind_some]
    split
    · rfl
    · next hcolumn =>
      have hfits : start + p.column < wordSize := by omega
      rw [Arithmetic.add?_eq hfits]
      rfl

/-- The column of the end is added as it is. -/
theorem clampedOffsetInWords?_eq_bind (h : ix.Ordered) {p : Position} {start : Nat}
    (hs : ix.lineStart? p.line = some start) :
    ix.clampedOffsetInWords? m p
      = (m.add? start p.column).map fun offset => min offset (ix.lineEnd p.line) := by
  have hpos := (lineStart?_eq_some hs).1
  rw [clampedOffsetInWords?, if_neg (by omega), hs]
  simp only [lineEndInWords?_eq h hs]
  cases m.add? start p.column <;> rfl

theorem clampedOffsetInWords?_eq (h : ix.Ordered) {p : Position}
    (hfits : ∀ start, ix.lineStart? p.line = some start → start + p.column < wordSize) :
    ix.clampedOffsetInWords? m p = some (ix.clampedOffset p) := by
  cases hs : ix.lineStart? p.line with
  | none =>
    rw [clampedOffsetInWords?, clampedOffset, hs]
    split <;> rfl
  | some start =>
    rw [clampedOffsetInWords?_eq_bind h hs, Arithmetic.add?_eq (hfits start hs),
      clampedOffset_eq_min hs]
    rfl

end LineIndex

/-! ### Ranges -/

section Ranges

variable {m : Arithmetic} {cs : List Char} {ix : LineIndex} {r : Range} {a : Nat}

theorem Range.resolvedEndInWords?_eq (h : r.start.column + 1 < wordSize) :
    r.resolvedEndInWords? m = some r.resolvedEnd := by
  rw [resolvedEndInWords?, Arithmetic.add?_eq h]
  rfl

/-- There is room for one column more behind a start in the text. -/
theorem LineIndex.Ordered.offset_add_one_lt (h : ix.Ordered) (hsize : 2 * ix.size < wordSize)
    {p : Position} (ha : ix.offset? p = .ok a) : a + 1 < wordSize := by
  have hle := h.offset_le_lineEnd ha
  have hend := h.lineEnd_le_size p.line
  have hone : 1 < wordSize := by decide
  omega

theorem paintedRangeInWords?_of_error (h : ix.Ordered) (hsize : 2 * ix.size < wordSize)
    {e : PositionError} (he : ix.offset? r.start = .error e) :
    paintedRangeInWords? m cs ix r = some none := by
  rw [paintedRangeInWords?, LineIndex.offsetInWords?_eq h (by omega), he]
  rfl

/-- The one sum that may be too large is the one for the end. -/
theorem paintedRangeInWords?_of_offset (h : ix.Ordered) (hsize : 2 * ix.size < wordSize)
    (ha : ix.offset? r.start = .ok a) :
    paintedRangeInWords? m cs ix r = (ix.clampedOffsetInWords? m r.resolvedEnd).map
      (spanBetween? cs ((ix.lineStart? r.start.line).getD a) a) := by
  have hroom := h.offset_add_one_lt hsize ha
  obtain ⟨start, hs, rfl, -⟩ := LineIndex.offset?_eq_ok ha
  rw [paintedRangeInWords?, LineIndex.offsetInWords?_eq h (by omega), ha]
  simp only [Option.bind_eq_bind, Option.bind_some]
  rw [Range.resolvedEndInWords?_eq (by omega), Option.bind_some]
  cases ix.clampedOffsetInWords? m r.resolvedEnd with
  | none => rfl
  | some stop =>
    rw [Option.bind_some, Option.map_some, spanBetween?]
    by_cases hlt : stop < start + r.start.column
    · rw [if_pos hlt, if_pos hlt]
      rfl
    · rw [if_neg hlt, if_neg hlt]
      by_cases hempty : start + r.start.column = stop
      · rw [if_pos hempty, if_pos hempty]
        cases hlast : lastCharBetween? cs ((ix.lineStart? r.start.line).getD (start + r.start.column))
            (start + r.start.column) with
        | some c =>
          -- the character is not wider than the text up to its end
          have hwide : c.utf8Size ≤ start + r.start.column := (charAt_of_lastCharBetween? hlast).2.1
          simp only [Arithmetic.sub?_eq hwide, Option.bind_some]
          rfl
        | none => rfl
      · rw [if_neg hempty, if_neg hempty]
        rfl

end Ranges

/-! ### Findings -/

section Findings

variable {m : Arithmetic} {text : String} {d : Diagnostic}

/-- If its sum is a word, or none is computed, a finding is painted as without words. -/
theorem annotationInWords?_eq (htext : Text.IsStorable text) (hfits : d.EndFits text) :
    annotationInWords? m text.toList (.ofText text) d
      = some (annotationOf? text.toList (.ofText text) d) := by
  have h := LineIndex.ordered_ofText text
  unfold annotationInWords? annotationOf?
  split
  · next hr =>
    cases ha : (LineIndex.ofText text).offset? d.range.start with
    | error e =>
      rw [paintedRangeInWords?_of_error h htext ha, paintedRange?_of_error ha]
      rfl
    | ok a =>
      have hroom := h.offset_add_one_lt htext ha
      have hend : (LineIndex.ofText text).clampedOffsetInWords? m d.range.resolvedEnd
          = some ((LineIndex.ofText text).clampedOffset d.range.resolvedEnd) := by
        refine LineIndex.clampedOffsetInWords?_eq h fun start hstart => ?_
        unfold Range.resolvedEnd at hstart ⊢
        cases hstop : d.range.stop with
        | some e =>
          rw [hstop] at hstart
          exact hfits hr a ha e hstop start hstart
        | none =>
          -- the column behind the start
          rw [hstop] at hstart
          obtain ⟨start', hs, rfl, -⟩ := LineIndex.offset?_eq_ok ha
          obtain rfl := Option.some.inj (hs.symm.trans hstart)
          exact hroom
      rw [paintedRangeInWords?_of_offset h htext ha, hend, paintedRange?_of_offset ha]
      rfl
  · rfl

/-- The numbers of a finding whose sum is too large. -/
theorem exists_of_not_endFits (hfits : ¬ d.EndFits text) :
    d.isRendered = true ∧ ∃ a e start, (LineIndex.ofText text).offset? d.range.start = .ok a ∧
      d.range.stop = some e ∧ (LineIndex.ofText text).lineStart? e.line = some start ∧
      wordSize ≤ start + e.column := by
  simp only [Diagnostic.EndFits, Classical.not_forall, Nat.not_lt] at hfits
  obtain ⟨hr, a, ha, e, he, start, hstart, hlarge⟩ := hfits
  exact ⟨hr, a, e, start, ha, he, hstart, hlarge⟩

/-- The program with checks stops at a sum that is too large. -/
theorem annotationInWords?_eq_none (htext : Text.IsStorable text) (hfits : ¬ d.EndFits text) :
    annotationInWords? .checked text.toList (.ofText text) d = none := by
  have h := LineIndex.ordered_ofText text
  obtain ⟨hr, a, e, start, ha, he, hstart, hlarge⟩ := exists_of_not_endFits hfits
  have hend : d.range.resolvedEnd = e := by rw [Range.resolvedEnd, he, Option.getD_some]
  rw [annotationInWords?, if_pos hr, paintedRangeInWords?_of_offset h htext ha, hend,
    LineIndex.clampedOffsetInWords?_eq_bind h hstart, Arithmetic.checked_add?_eq_none hlarge]
  rfl

/-- Without checks, what is left of a sum that is too large lies before the line of the end. If this
is the line of the start, the finding seems to end before it starts. -/
theorem annotationInWords?_eq_some_none (htext : Text.IsStorable text) (hfits : ¬ d.EndFits text)
    (hend : ∀ e, d.range.stop = some e → e.line = d.range.start.line ∧ e.column < wordSize) :
    annotationInWords? .wrapping text.toList (.ofText text) d = some none := by
  have h := LineIndex.ordered_ofText text
  obtain ⟨hr, a, e, start, ha, he, hstart, hlarge⟩ := exists_of_not_endFits hfits
  obtain ⟨hline, hcolumn⟩ := hend e he
  have hresolved : d.range.resolvedEnd = e := by rw [Range.resolvedEnd, he, Option.getD_some]
  -- the sum comes out before the start of the line, so the stretch ends before it starts
  have hbefore : start + e.column - wordSize < start := by omega
  have hle : start ≤ a := by
    obtain ⟨start', hs, rfl, -⟩ := LineIndex.offset?_eq_ok ha
    rw [← hline] at hs
    obtain rfl := Option.some.inj (hs.symm.trans hstart)
    exact Nat.le_add_right _ _
  rw [annotationInWords?, if_pos hr, paintedRangeInWords?_of_offset h htext ha, hresolved,
    LineIndex.clampedOffsetInWords?_eq_bind h hstart, Arithmetic.wrapping_add?_eq hlarge,
    Option.map_some, Option.map_some, spanBetween?, if_pos (by omega)]
  rfl

end Findings

/-! ### Lists of findings -/

section Lists

theorem filterMapM_eq_some {α β : Type} {f : α → Option (Option β)} {g : α → Option β} {xs : List α}
    (h : ∀ x ∈ xs, f x = some (g x)) : xs.filterMapM f = some (xs.filterMap g) := by
  induction xs with
  | nil => rfl
  | cons x xs ih =>
    obtain ⟨hx, hxs⟩ := List.forall_mem_cons.mp h
    rw [List.filterMapM_cons, hx, ih hxs, List.filterMap_cons]
    cases g x <;> rfl

theorem filterMapM_eq_none {α β : Type} {f : α → Option (Option β)} {xs : List α} {x : α}
    (hx : x ∈ xs) (h : f x = none) : xs.filterMapM f = none := by
  induction xs with
  | nil => cases hx
  | cons y ys ih =>
    rw [List.filterMapM_cons]
    rcases List.mem_cons.mp hx with rfl | hx
    · rw [h]
      rfl
    · rw [ih hx]
      cases f y with
      | none => rfl
      | some y? => cases y? <;> rfl

theorem mem_filterMapM {α β : Type} {f : α → Option (Option β)} {xs : List α} {ys : List β}
    (h : xs.filterMapM f = some ys) {y : β} : y ∈ ys ↔ ∃ x ∈ xs, f x = some (some y) := by
  induction xs generalizing ys with
  | nil =>
    obtain rfl := Option.some.inj h
    exact iff_of_false List.not_mem_nil nofun
  | cons x xs ih =>
    rw [List.filterMapM_cons] at h
    obtain ⟨y?, hx, h⟩ := Option.bind_eq_some_iff.mp h
    simp only [List.mem_cons, exists_eq_or_imp, hx]
    cases y? with
    | none =>
      -- nothing comes of the first one
      rw [ih h]
      exact (or_iff_right nofun).symm
    | some y' =>
      obtain ⟨ys', hxs, h⟩ := Option.bind_eq_some_iff.mp h
      obtain rfl := Option.some.inj h
      rw [List.mem_cons, ih hxs]
      exact or_congr_left ⟨fun heq => heq ▸ rfl, fun heq => (Option.some.inj (Option.some.inj heq)).symm⟩

/-- What comes to nothing may as well be left out. -/
theorem filterMapM_append_cons {α β : Type} {f : α → Option (Option β)} {x : α}
    (h : f x = some none) (before after : List α) :
    (before ++ x :: after).filterMapM f = (before ++ after).filterMapM f := by
  induction before with
  | nil =>
    rw [List.nil_append, List.filterMapM_cons, h]
    rfl
  | cons y before ih =>
    rw [List.cons_append, List.cons_append, List.filterMapM_cons, List.filterMapM_cons, ih]

variable {m : Arithmetic} {text : String} {ds : List Diagnostic}

theorem paintInWords?_eq_filterMapM (htext : Text.IsStorable text) :
    paintInWords? m text ds
      = ds.filterMapM (annotationInWords? m text.toList (.ofText text)) := by
  rw [paintInWords?, LineIndex.ofCharsInWords?_eq htext.width_lt]
  rfl

/-- If all sums are words, findings are painted as without words. -/
theorem paintInWords?_eq (htext : Text.IsStorable text) (hfits : ∀ d ∈ ds, d.EndFits text) :
    paintInWords? m text ds = some (paint text ds) := by
  rw [paintInWords?_eq_filterMapM htext]
  exact filterMapM_eq_some fun d hd => annotationInWords?_eq htext (hfits d hd)

/-- If one sum is too large, the program with checks stops. -/
theorem paintInWords?_eq_none (htext : Text.IsStorable text) {d : Diagnostic} (hd : d ∈ ds)
    (hfits : ¬ d.EndFits text) : paintInWords? .checked text ds = none := by
  rw [paintInWords?_eq_filterMapM htext]
  exact filterMapM_eq_none hd (annotationInWords?_eq_none htext hfits)

theorem Layers.applyInWords?_eq (l : Layers) (htext : Text.IsStorable text)
    (hfits : ∀ d ∈ ds, d.EndFits text) : l.applyInWords? m text ds = some (l.apply text ds) := by
  rw [applyInWords?, applyBy, paintInWords?_eq htext hfits]
  rfl

end Lists

end EditorInsight
