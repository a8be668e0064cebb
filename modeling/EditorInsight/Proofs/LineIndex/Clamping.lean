import EditorInsight.Proofs.LineIndex.Positions
import EditorInsight.Proofs.Painting.Words

/-!
# Offsets for all positions

Not every position has an offset: a line may not exist, or end before the column. Painting needs an
offset for all of them, and needs these to be ordered as the positions are, or else a finding would
end before it starts. There is only one way to do so without leaving the text or the line.

* `Text.IsLine` says which part of a text a line is; `Text.IsLine.lineStart?_eq` and
  `Text.IsLine.lineEnd_eq` find it in the index, and `Text.exists_isLine` says that every line of the
  index is one.
* `LineIndex.Ordered.clampedOffset_mono`: clamped offsets are ordered as positions are.
* `Position.MonotoneExtension` is what is asked of offsets for all positions.
* `LineIndex.clampedOffset_exact`: clamped offsets have it, nothing else has, and machine words hold
  them wherever the sum of line start and column is a word.
-/

namespace EditorInsight

open Json (wordSize)

/-! ### Lines -/

/-- What is before a line of a text, the line without its newline, and what is behind it. The lines
before are ended by their newlines, and the line itself by a newline or by the end of the text. -/
structure Text.IsLine (cs : List Char) (line : Nat) (before part after : List Char) : Prop where
  text : cs = before ++ part ++ after
  number : line = before.count '\n' + 1
  starts : before = [] ∨ ∃ earlier, before = earlier ++ ['\n']
  inside : '\n' ∉ part
  stops : after = [] ∨ ∃ later, after = '\n' :: later

theorem offsetsBehindNewlines_append (k : Nat) (cs ds : List Char) :
    offsetsBehindNewlines k (cs ++ ds)
      = offsetsBehindNewlines k cs ++ offsetsBehindNewlines (k + Text.width cs) ds := by
  induction cs generalizing k with
  | nil => rfl
  | cons c cs ih =>
    rw [List.cons_append, offsetsBehindNewlines, offsetsBehindNewlines, Text.width_cons,
      ← Nat.add_assoc, ih]
    split
    · rw [List.cons_append]
    · rfl

theorem offsetsBehindNewlines_of_not_mem {cs : List Char} (h : '\n' ∉ cs) (k : Nat) :
    offsetsBehindNewlines k cs = [] := by
  apply List.eq_nil_of_length_eq_zero
  rw [length_offsetsBehindNewlines]
  exact List.count_eq_zero.mpr h

namespace Text

variable {cs before part after : List Char} {line : Nat}

/-- The starts of the lines up to a line, and of those behind it. -/
theorem IsLine.starts_eq (h : IsLine cs line before part after) :
    (LineIndex.ofChars cs).starts
      = 0 :: (offsetsBehindNewlines 0 before
        ++ offsetsBehindNewlines (width before + width part) after) := by
  rw [h.text, LineIndex.ofChars, offsetsBehindNewlines_append, offsetsBehindNewlines_append,
    offsetsBehindNewlines_of_not_mem h.inside, List.append_nil, Nat.zero_add, width_append]

theorem IsLine.lineStart?_eq (h : IsLine cs line before part after) :
    (LineIndex.ofChars cs).lineStart? line = some (width before) := by
  rw [LineIndex.lineStart?, h.starts_eq, h.number, if_neg (Nat.succ_ne_zero _), Nat.add_sub_cancel]
  rcases h.starts with rfl | ⟨earlier, rfl⟩
  · rfl
  · -- the line starts behind the last newline before it
    have hlength : (offsetsBehindNewlines 0 earlier).length = earlier.count '\n' :=
      length_offsetsBehindNewlines 0 earlier
    rw [List.count_append, List.count_singleton_self, List.getElem?_cons_succ,
      offsetsBehindNewlines_append, List.append_assoc, ← hlength,
      List.getElem?_append_right (Nat.le_refl _), Nat.sub_self, width_append, Nat.zero_add]
    rfl

theorem IsLine.lineEnd_eq (h : IsLine cs line before part after) :
    (LineIndex.ofChars cs).lineEnd line = width before + width part := by
  have hbefore : (offsetsBehindNewlines 0 before).length = before.count '\n' :=
    length_offsetsBehindNewlines 0 before
  rw [LineIndex.lineEnd, h.starts_eq, h.number, List.getElem?_cons_succ, ← hbefore,
    List.getElem?_append_right (Nat.le_refl _), Nat.sub_self]
  rcases h.stops with rfl | ⟨later, rfl⟩
  · -- the last line ends with the text
    show width cs = width before + width part
    rw [h.text, List.append_nil, width_append]
  · rfl

/-- There is one line more than there are newlines. -/
theorem exists_isLine (cs : List Char) {line : Nat} (hpos : 0 < line)
    (hle : line ≤ cs.count '\n' + 1) : ∃ before part after, IsLine cs line before part after := by
  -- on the text, of which the first character is before the line or belongs to it
  induction cs generalizing line with
  | nil =>
    obtain rfl : line = 1 := by
      rw [List.count_nil] at hle
      omega
    exact ⟨[], [], [], rfl, rfl, Or.inl rfl, List.not_mem_nil, Or.inl rfl⟩
  | cons c cs ih =>
    by_cases hc : c = '\n'
    · subst hc
      rw [List.count_cons_self] at hle
      rcases Nat.eq_or_lt_of_le (Nat.succ_le_of_lt hpos) with rfl | hlater
      · exact ⟨[], [], '\n' :: cs, rfl, rfl, Or.inl rfl, List.not_mem_nil, Or.inr ⟨cs, rfl⟩⟩
      · have hearlier : 0 < line - 1 ∧ line - 1 ≤ cs.count '\n' + 1 := by omega
        obtain ⟨before, part, after, h⟩ := ih hearlier.1 hearlier.2
        refine ⟨'\n' :: before, part, after, by rw [h.text]; rfl, ?_, Or.inr ?_, h.inside, h.stops⟩
        · have hnumber := h.number
          rw [List.count_cons_self]
          omega
        · rcases h.starts with rfl | ⟨earlier, rfl⟩
          · exact ⟨[], rfl⟩
          · exact ⟨'\n' :: earlier, rfl⟩
    · rw [List.count_cons_of_ne hc] at hle
      obtain ⟨before, part, after, h⟩ := ih hpos hle
      rcases h.starts with rfl | ⟨earlier, rfl⟩
      · -- the first line is one character longer
        refine ⟨[], c :: part, after, by rw [h.text]; rfl, h.number, Or.inl rfl, ?_, h.stops⟩
        exact fun hmem => (List.mem_cons.mp hmem).elim (fun heq => hc heq.symm) h.inside
      · refine ⟨c :: (earlier ++ ['\n']), part, after, by rw [h.text]; rfl, ?_,
          Or.inr ⟨c :: earlier, rfl⟩, h.inside, h.stops⟩
        rw [List.count_cons_of_ne hc]
        exact h.number

end Text

namespace LineIndex

/-! ### The order of clamped offsets -/

variable {ix : LineIndex} {p q : Position} {start : Nat}

/-- A column that is not past the end of its line is accepted. -/
theorem offset?_of_le (hs : ix.lineStart? p.line = some start)
    (hle : p.column ≤ ix.lineEnd p.line - start) : ix.offset? p = .ok (start + p.column) := by
  rw [offset?, hs]
  exact if_neg (Nat.not_lt.mpr hle)

theorem clampedOffset_of_line_eq_zero (h : p.line = 0) : ix.clampedOffset p = 0 := if_pos h

theorem clampedOffset_of_lineCount_lt (h : ix.lineCount < p.line) : ix.clampedOffset p = ix.size := by
  rw [clampedOffset, if_neg (Nat.ne_of_gt (Nat.zero_lt_of_lt h)),
    (lineStart?_eq_none_iff p.line).mpr (Or.inr h)]

/-- Where a position has an offset, nothing is clamped. -/
theorem Ordered.clampedOffset_of_offset? (h : ix.Ordered) {a : Nat} (ha : ix.offset? p = .ok a) :
    ix.clampedOffset p = a := by
  obtain ⟨start, hs, rfl, -⟩ := offset?_eq_ok ha
  rw [clampedOffset_eq_min hs, Nat.min_eq_left (h.offset_le_lineEnd ha)]

theorem Ordered.le_clampedOffset_of_lineStart? (h : ix.Ordered)
    (hs : ix.lineStart? p.line = some start) :
    start ≤ ix.clampedOffset p ∧ ix.clampedOffset p ≤ ix.lineEnd p.line := by
  have hle := h.lineStart_le_lineEnd hs
  rw [clampedOffset_eq_min hs]
  omega

/-- **Clamped offsets are ordered** as positions are. -/
theorem Ordered.clampedOffset_mono (h : ix.Ordered) (hpq : p ≤ q) :
    ix.clampedOffset p ≤ ix.clampedOffset q := by
  cases hs : ix.lineStart? p.line with
  | none =>
    rcases (lineStart?_eq_none_iff p.line).mp hs with hzero | hlate
    · rw [clampedOffset_of_line_eq_zero hzero]
      exact Nat.zero_le _
    · -- behind a line that is past the last one there are only such lines
      have hlater : ix.lineCount < q.line := by
        rcases hpq with hlt | ⟨heq, -⟩
        · exact Nat.lt_trans hlate hlt
        · exact heq ▸ hlate
      have hsize : ix.clampedOffset p = ix.clampedOffset q := by
        rw [clampedOffset_of_lineCount_lt hlate, clampedOffset_of_lineCount_lt hlater]
      exact Nat.le_of_eq hsize
  | some start =>
    -- the clamped offset is that of a position on the line, which is not behind the first one
    obtain ⟨hstart, hend⟩ := h.le_clampedOffset_of_lineStart? hs
    have hmin := clampedOffset_eq_min hs
    let r : Position := ⟨p.line, ix.clampedOffset p - start⟩
    have hr : ix.offset? r = .ok (ix.clampedOffset p) := by
      rw [offset?_of_le (p := r) hs (Nat.sub_le_sub_right hend start)]
      exact congrArg Except.ok (Nat.add_sub_cancel' hstart)
    have hcolumn : r.column ≤ p.column := by
      show ix.clampedOffset p - start ≤ p.column
      omega
    refine h.le_clampedOffset hr ?_
    rcases hpq with hlt | ⟨heq, hle⟩
    · exact Or.inl hlt
    · exact Or.inr ⟨heq, Nat.le_trans hcolumn hle⟩

end LineIndex

/-! ### Offsets for all positions -/

/-- What is asked of offsets for all positions of a text: where a position has an offset it is that
one, no offset is past the end of the text or leaves its line, and a position that is not behind
another has no larger offset. -/
structure Position.MonotoneExtension (text : String) (f : Position → Nat) : Prop where
  offset?_eq : ∀ p a, (LineIndex.ofText text).offset? p = .ok a → f p = a
  le_length : ∀ p, f p ≤ Text.byteLength text
  within : ∀ p before part after, Text.IsLine text.toList p.line before part after →
    Text.width before ≤ f p ∧ f p ≤ Text.width before + Text.width part
  monotone : ∀ p q, p ≤ q → f p ≤ f q

/-- Whether the sum for a position is a word, if there is such a line. -/
def Position.SumFits (text : String) (p : Position) : Prop :=
  ∀ before part after, Text.IsLine text.toList p.line before part after →
    Text.width before + p.column < wordSize

namespace LineIndex

variable {text : String}

theorem lineCount_ofText (text : String) :
    (ofText text).lineCount = text.toList.count '\n' + 1 := by
  rw [ofText, lineCount, ofChars, List.length_cons, length_offsetsBehindNewlines]

/-- Every line of the index is a part of the text. -/
theorem exists_isLine_of_lineStart? {line start : Nat}
    (hs : (ofText text).lineStart? line = some start) :
    ∃ before part after, Text.IsLine text.toList line before part after ∧
      Text.width before = start ∧ Text.width before + Text.width part = (ofText text).lineEnd line := by
  have hline : ¬ (line = 0 ∨ (ofText text).lineCount < line) := by
    rw [← lineStart?_eq_none_iff, hs]
    exact Option.some_ne_none start
  rw [lineCount_ofText, not_or, Nat.not_lt] at hline
  obtain ⟨before, part, after, h⟩ :=
    Text.exists_isLine text.toList (Nat.pos_of_ne_zero hline.1) hline.2
  exact ⟨before, part, after, h, Option.some.inj (h.lineStart?_eq.symm.trans hs), h.lineEnd_eq.symm⟩

theorem monotoneExtension_clampedOffset (text : String) :
    Position.MonotoneExtension text (ofText text).clampedOffset where
  offset?_eq := fun _ _ ha => (ordered_ofText text).clampedOffset_of_offset? ha
  le_length := (ordered_ofText text).clampedOffset_le_size
  within := by
    intro p before part after h
    have hbounds := (ordered_ofText text).le_clampedOffset_of_lineStart? h.lineStart?_eq
    rwa [show (ofText text).lineEnd p.line = _ from h.lineEnd_eq] at hbounds
  monotone := fun _ _ hpq => (ordered_ofText text).clampedOffset_mono hpq

/-- **There is only one way.** What is before the text or behind it is held between its first or last
position and its bounds, and what is behind a line between the end of the line and itself. -/
theorem eq_clampedOffset {f : Position → Nat} (h : Position.MonotoneExtension text f) :
    f = (ofText text).clampedOffset := by
  have hordered := ordered_ofText text
  funext p
  cases hs : (ofText text).lineStart? p.line with
  | none =>
    rcases (lineStart?_eq_none_iff p.line).mp hs with hzero | hlate
    · -- not behind the first position
      have hfirst : f ⟨1, 0⟩ = 0 := h.offset?_eq _ _ (offset?_of_le rfl (Nat.zero_le _))
      have hle : f p ≤ f ⟨1, 0⟩ := h.monotone _ _ (Or.inl (by show p.line < 1; omega))
      rw [clampedOffset_of_line_eq_zero hzero]
      omega
    · -- not before the last position
      have hlast : f ((ofText text).position (ofText text).size) = (ofText text).size :=
        h.offset?_eq _ _ ((anchored_ofText text).offset?_position (Nat.le_refl _))
      have hline : ((ofText text).position (ofText text).size).line ≤ (ofText text).lineCount :=
        (List.takeWhile_sublist _).length_le
      have hle := h.monotone _ p (Or.inl (Nat.lt_of_le_of_lt hline hlate))
      rw [clampedOffset_of_lineCount_lt hlate]
      exact Nat.le_antisymm (h.le_length p) (hlast ▸ hle)
  | some start =>
    have hstop := hordered.lineStart_le_lineEnd hs
    rcases Nat.le_total p.column ((ofText text).lineEnd p.line - start) with hle | hge
    · have hp := offset?_of_le hs hle
      rw [h.offset?_eq p _ hp, hordered.clampedOffset_of_offset? hp]
    · -- not before the end of the line, and not behind it
      let q : Position := ⟨p.line, (ofText text).lineEnd p.line - start⟩
      have hq : f q = (ofText text).lineEnd p.line := by
        rw [h.offset?_eq q _ (offset?_of_le (p := q) hs (Nat.le_refl _))]
        exact Nat.add_sub_cancel' hstop
      have hqp : f q ≤ f p := h.monotone q p (Or.inr ⟨rfl, hge⟩)
      obtain ⟨before, part, after, hline, -, hend⟩ := exists_isLine_of_lineStart? hs
      have hwithin := (h.within p before part after hline).2
      rw [clampedOffset_eq_min hs]
      omega

/-- **The offsets of all positions.** For every text that can be held in memory, the index is built and
the offset of every position is computed in words as without them, and so is the clamped offset of
every position for which the start of its line, if there is one, and its column add up to a word.
Clamped offsets are those of the positions that have any; none is past the end of the text; on an
existing line none is before its start or behind its end, which is before the newline; and a position
that is not behind another, on whatever lines the two are, has no larger one. Nothing else has these
properties. -/
theorem clampedOffset_exact (text : String) (htext : Text.IsStorable text) :
    (∀ m, ofCharsInWords? m text.toList = some (ofText text) ∧
      (∀ p, (ofText text).offsetInWords? m p = some ((ofText text).offset? p)) ∧
      ∀ p, p.SumFits text →
        (ofText text).clampedOffsetInWords? m p = some ((ofText text).clampedOffset p)) ∧
    ∀ f, Position.MonotoneExtension text f ↔ f = (ofText text).clampedOffset := by
  have hordered := ordered_ofText text
  have hsize : (ofText text).size < wordSize := by
    have hlength : 2 * (ofText text).size < wordSize := htext
    omega
  refine ⟨fun m => ⟨ofCharsInWords?_eq hsize, offsetInWords?_eq hordered hsize, ?_⟩, ?_⟩
  · intro p hfits
    refine clampedOffsetInWords?_eq hordered fun start hs => ?_
    obtain ⟨before, part, after, hline, rfl, -⟩ := exists_isLine_of_lineStart? hs
    exact hfits before part after hline
  · intro f
    constructor
    · exact eq_clampedOffset
    · rintro rfl
      exact monotoneExtension_clampedOffset text

/-- A column so large that just the sum is a word, on the second line of a text whose first one has a
character of two bytes. -/
theorem clampedOffset_exact_accented :
    Text.IsStorable "é\nab" ∧ Position.SumFits "é\nab" ⟨2, wordSize - 4⟩ ∧
      (ofText "é\nab").clampedOffsetInWords? .checked ⟨2, wordSize - 4⟩ = some 5 ∧
      (ofText "é\nab").clampedOffset ⟨1, 7⟩ ≤ (ofText "é\nab").clampedOffset ⟨2, 1⟩ := by
  have htext : Text.IsStorable "é\nab" := by decide
  have hfits : Position.SumFits "é\nab" ⟨2, wordSize - 4⟩ := by
    intro before part after hline
    have hstart : (ofText "é\nab").lineStart? 2 = some 3 := by decide
    rw [Option.some.inj (hline.lineStart?_eq.symm.trans hstart)]
    decide
  obtain ⟨hwords, hextension⟩ := clampedOffset_exact "é\nab" htext
  refine ⟨htext, hfits, ?_, ?_⟩
  · rw [(hwords .checked).2.2 _ hfits]
    decide
  · exact ((hextension _).mpr rfl).monotone _ _ (by decide)

end LineIndex

end EditorInsight
