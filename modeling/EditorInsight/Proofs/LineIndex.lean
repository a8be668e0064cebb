import EditorInsight.LineIndex

/-!
# The order of a line index

The starts of the lines of a text ascend and do not pass its end. From this alone, and not from the
text, follows how positions and offsets are ordered.

* `LineIndex.Ordered` is the invariant of every index, `LineIndex.ordered_ofChars` says so.
* `LineIndex.lineStart_le_lineEnd` and `LineIndex.lineEnd_le_lineStart`: a line ends behind its start
  and before the start of any later line.
* `LineIndex.le_clampedOffset`: the offset of a position is not past the clamped offset of any
  position behind it.
-/

namespace EditorInsight

theorem mem_offsetsBehindNewlines {k n : Nat} {cs : List Char}
    (h : n ∈ offsetsBehindNewlines k cs) : k < n ∧ n ≤ k + Text.width cs := by
  induction cs generalizing k with
  | nil => cases h
  | cons c cs ih =>
    have hc := c.utf8Size_pos
    have htail (hn : n ∈ offsetsBehindNewlines (k + c.utf8Size) cs) :
        k < n ∧ n ≤ k + Text.width (c :: cs) := by
      obtain ⟨h₁, h₂⟩ := ih hn
      rw [Text.width_cons]
      omega
    rw [offsetsBehindNewlines] at h
    split at h
    · rcases List.mem_cons.mp h with rfl | h
      · rw [Text.width_cons]
        omega
      · exact htail h
    · exact htail h

theorem pairwise_offsetsBehindNewlines (k : Nat) (cs : List Char) :
    (offsetsBehindNewlines k cs).Pairwise (· < ·) := by
  induction cs generalizing k with
  | nil => exact List.Pairwise.nil
  | cons c cs ih =>
    rw [offsetsBehindNewlines]
    split
    · -- the offset behind a newline comes before all that follow it
      exact List.pairwise_cons.mpr ⟨fun n hn => (mem_offsetsBehindNewlines hn).1, ih _⟩
    · exact ih _

/-- Each newline is behind one line and before another. -/
theorem length_offsetsBehindNewlines (k : Nat) (cs : List Char) :
    (offsetsBehindNewlines k cs).length = cs.count '\n' := by
  induction cs generalizing k with
  | nil => rfl
  | cons c cs ih =>
    rw [offsetsBehindNewlines, List.count_cons]
    by_cases hc : c = '\n'
    · rw [if_pos hc, if_pos (beq_iff_eq.mpr hc), List.length_cons, ih]
    · rw [if_neg hc, if_neg (by simpa using hc), ih, Nat.add_zero]

/-- There is one part more than there are cuts. -/
theorem length_splitOn {α : Type} [BEq α] (a : α) (xs : List α) :
    (xs.splitOn a).length = 1 + xs.count a := by
  induction xs with
  | nil => rfl
  | cons x xs ih =>
    rw [List.splitOn_cons_eq_if_modifyHead, List.count_cons]
    cases x == a with
    | true => rw [if_pos rfl, if_pos rfl, List.length_cons, ih, Nat.add_assoc]
    | false =>
      rw [if_neg Bool.false_ne_true, if_neg Bool.false_ne_true, List.length_modifyHead, ih,
        Nat.add_zero]

theorem lt_of_ascending {xs : List Nat} (hasc : xs.Pairwise (· < ·)) {i j a b : Nat} (hij : i < j)
    (ha : xs[i]? = some a) (hb : xs[j]? = some b) : a < b := by
  obtain ⟨hi, rfl⟩ := List.getElem?_eq_some_iff.mp ha
  obtain ⟨hj, rfl⟩ := List.getElem?_eq_some_iff.mp hb
  exact List.pairwise_iff_getElem.mp hasc i j hi hj hij

namespace LineIndex

/-- What every index of a text satisfies. -/
structure Ordered (ix : LineIndex) : Prop where
  /-- Each line starts behind the start of the one before. -/
  ascending : ix.starts.Pairwise (· < ·)
  /-- No line starts past the end of the text. -/
  le_size : ∀ n ∈ ix.starts, n ≤ ix.size

theorem ordered_ofChars (cs : List Char) : (ofChars cs).Ordered where
  ascending :=
    List.pairwise_cons.mpr
      ⟨fun _ hn => (mem_offsetsBehindNewlines hn).1, pairwise_offsetsBehindNewlines 0 cs⟩
  le_size := by
    intro n hn
    rcases List.mem_cons.mp hn with rfl | hn
    · -- the first line starts with the text
      exact Nat.zero_le _
    · have h := (mem_offsetsBehindNewlines hn).2
      rwa [Nat.zero_add] at h

theorem ordered_ofText (text : String) : (ofText text).Ordered := ordered_ofChars text.toList

variable {ix : LineIndex}

theorem lineStart?_eq_some {line start : Nat} (h : ix.lineStart? line = some start) :
    0 < line ∧ ix.starts[line - 1]? = some start := by
  unfold lineStart? at h
  split at h
  · cases h
  · exact ⟨by omega, h⟩

theorem Ordered.getElem?_lt (h : ix.Ordered) {i j a b : Nat} (hij : i < j)
    (ha : ix.starts[i]? = some a) (hb : ix.starts[j]? = some b) : a < b :=
  lt_of_ascending h.ascending hij ha hb

theorem Ordered.lineStart_le_lineEnd (h : ix.Ordered) {line start : Nat}
    (hs : ix.lineStart? line = some start) : start ≤ ix.lineEnd line := by
  obtain ⟨hpos, hs⟩ := lineStart?_eq_some hs
  unfold lineEnd
  split
  · -- the newline stands between the two starts
    next next hn =>
    have hlt := h.getElem?_lt (by omega) hs hn
    omega
  · exact h.le_size start (List.mem_of_getElem? hs)

theorem Ordered.lineEnd_le_size (h : ix.Ordered) (line : Nat) : ix.lineEnd line ≤ ix.size := by
  unfold lineEnd
  split
  · next next hn =>
    have hle := h.le_size next (List.mem_of_getElem? hn)
    omega
  · exact Nat.le_refl _

/-- A line ends before any later line starts. -/
theorem Ordered.lineEnd_le_lineStart (h : ix.Ordered) {line line' start' : Nat}
    (hl : line < line') (hs' : ix.lineStart? line' = some start') :
    ix.lineEnd line ≤ start' := by
  obtain ⟨-, hs'⟩ := lineStart?_eq_some hs'
  have hlen := (List.getElem?_eq_some_iff.mp hs').1
  obtain ⟨next, hn⟩ : ∃ next, ix.starts[line]? = some next :=
    ⟨_, List.getElem?_eq_getElem (by omega)⟩
  -- the next line is either the later one or starts before it
  have hle : next ≤ start' := by
    rcases Nat.lt_or_ge line (line' - 1) with hlt | hge
    · exact Nat.le_of_lt (h.getElem?_lt hlt hn hs')
    · obtain rfl : line = line' - 1 := by omega
      exact Nat.le_of_eq (Option.some.inj (hn.symm.trans hs'))
  unfold lineEnd
  rw [hn]
  exact Nat.le_trans (Nat.sub_le _ _) hle

/-- An accepted position lies on an existing line, no further than its end. -/
theorem offset?_eq_ok {p : Position} {a : Nat} (h : ix.offset? p = .ok a) :
    ∃ start, ix.lineStart? p.line = some start ∧ a = start + p.column ∧
      p.column ≤ ix.lineEnd p.line - start := by
  unfold offset? at h
  cases hs : ix.lineStart? p.line with
  | none => rw [hs] at h; cases h
  | some start =>
    rw [hs] at h
    by_cases hc : p.column > ix.lineEnd p.line - start
    · simp only [hc, if_true] at h
      cases h
    · simp only [hc, if_false] at h
      exact ⟨start, rfl, (Except.ok.inj h).symm, Nat.le_of_not_gt hc⟩

theorem Ordered.offset_le_lineEnd (h : ix.Ordered) {p : Position} {a : Nat}
    (ha : ix.offset? p = .ok a) : a ≤ ix.lineEnd p.line := by
  obtain ⟨start, hs, rfl, hc⟩ := offset?_eq_ok ha
  have hse := h.lineStart_le_lineEnd hs
  omega

/-- On an existing line, the clamped offset is that of the column, but not past the end. -/
theorem clampedOffset_eq_min {p : Position} {start : Nat}
    (hs : ix.lineStart? p.line = some start) :
    ix.clampedOffset p = min (start + p.column) (ix.lineEnd p.line) := by
  have hpos := (lineStart?_eq_some hs).1
  rw [clampedOffset, if_neg (Nat.ne_of_gt hpos), hs]

/-- No clamped offset is past the end of the text. -/
theorem Ordered.clampedOffset_le_size (h : ix.Ordered) (p : Position) :
    ix.clampedOffset p ≤ ix.size := by
  unfold clampedOffset
  split
  · exact Nat.zero_le _
  · split
    · -- on a line, at most at its end
      exact Nat.le_trans (Nat.min_le_right _ _) (h.lineEnd_le_size p.line)
    · exact Nat.le_refl _

/-- The offset of a position is not past the clamped offset of any position behind it. -/
theorem Ordered.le_clampedOffset (h : ix.Ordered) {p q : Position} {a : Nat}
    (ha : ix.offset? p = .ok a) (hpq : p ≤ q) : a ≤ ix.clampedOffset q := by
  obtain ⟨start, hs, rfl, hc⟩ := offset?_eq_ok ha
  have hse := h.lineStart_le_lineEnd hs
  have hpos := (lineStart?_eq_some hs).1
  unfold clampedOffset
  rcases hpq with hlt | ⟨heq, hle⟩
  · -- on a later line, or past the last one
    rw [if_neg (by omega)]
    split
    · next start' hs' =>
      have h₁ := h.lineEnd_le_lineStart hlt hs'
      have h₂ := h.lineStart_le_lineEnd hs'
      omega
    · have h₁ := h.lineEnd_le_size p.line
      omega
  · -- on the same line, where the column may be taken back to its end
    rw [← heq, if_neg (by omega), hs]
    dsimp only
    omega

end LineIndex

end EditorInsight
