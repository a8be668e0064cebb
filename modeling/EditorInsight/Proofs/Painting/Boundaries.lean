import EditorInsight.Proofs.Painting.Findings

/-!
# Where painted stretches start and stop

What is painted is meant to be taken out of the text, and that is possible only between boundaries of
characters. Lines start and end at boundaries, and going back by a character leads to one. But a
finding without an end is painted over one byte, and that may be only the first byte of a character.

* `Position.OnBoundary` says of a position that no character of its line is split there.
* `isBoundary_clampedOffset`: what such a position is taken back to is a boundary of the text.
* `isBoundary_stop_iff` is what this means for one finding.
* `painted_on_boundaries_iff` is the exact condition for all of them, and
  `painted_inside_character` a finding for which it fails.
-/

namespace EditorInsight

/-- Whether a column is at a boundary of the characters of its line, or past the end of the line. -/
def Position.OnBoundary (text : String) (p : Position) : Prop :=
  ∀ line, (LineIndex.ofText text).lineText? text p.line = some line →
    p.column ≤ Text.byteLength line → Text.isBoundary line.toList p.column = true

section Lines

variable {text : String} {p : Position} {start : Nat}

/-- A line ends where a character ends. -/
theorem LineIndex.isBoundary_lineEnd {line : Nat}
    (h : (ofText text).lineStart? line = some start) :
    Text.isBoundary text.toList ((ofText text).lineEnd line) = true := by
  obtain ⟨before, own, rest, after, hcs, -, -, rfl, hend⟩ := exists_lineText_ofText h
  refine Text.isBoundary_iff_exists_append.mpr ⟨before ++ (own.toList ++ rest), after, hcs, ?_⟩
  rw [hend, Text.width_append, Text.width_append, Nat.add_assoc, Text.byteLength]

/-- A boundary of a line is a boundary of the text. -/
theorem Position.OnBoundary.isBoundary_min (h : p.OnBoundary text)
    (hs : (LineIndex.ofText text).lineStart? p.line = some start) :
    Text.isBoundary text.toList
      (min (start + p.column) ((LineIndex.ofText text).lineEnd p.line)) = true := by
  rcases Nat.lt_or_ge (start + p.column) ((LineIndex.ofText text).lineEnd p.line) with hlt | hge
  · rw [Nat.min_eq_left (Nat.le_of_lt hlt)]
    obtain ⟨before, own, rest, after, hcs, hreturn, hown, rfl, hend⟩ :=
      LineIndex.exists_lineText_ofText hs
    -- the column is not behind a carriage return, since this is the last byte of the line
    have hone : Text.width rest ≤ 1 := by
      rcases hreturn with rfl | rfl
      · exact Nat.zero_le 1
      · exact Nat.le_refl 1
    have hboundary : Text.isBoundary own.toList p.column = true := h own hown (by omega)
    obtain ⟨upTo, behind, hsplit, hupTo⟩ := Text.isBoundary_iff_exists_append.mp hboundary
    refine Text.isBoundary_iff_exists_append.mpr
      ⟨before ++ upTo, behind ++ rest ++ after, ?_, ?_⟩
    · rw [hcs, hsplit]
      simp
    · rw [Text.width_append, hupTo]
  · rw [Nat.min_eq_right hge]
    exact LineIndex.isBoundary_lineEnd hs

theorem isBoundary_clampedOffset (h : p.OnBoundary text) :
    Text.isBoundary text.toList ((LineIndex.ofText text).clampedOffset p) = true := by
  cases hs : (LineIndex.ofText text).lineStart? p.line with
  | some start =>
    rw [LineIndex.clampedOffset_eq_min hs]
    exact h.isBoundary_min hs
  | none =>
    -- at one of the ends of the text
    rw [LineIndex.clampedOffset, hs]
    split
    · exact Text.isBoundary_width [] text.toList
    · refine Text.isBoundary_iff_exists_append.mpr ⟨text.toList, [], ?_, rfl⟩
      exact (List.append_nil _).symm

theorem isBoundary_offset {a : Nat} (h : p.OnBoundary text)
    (ha : (LineIndex.ofText text).offset? p = .ok a) :
    Text.isBoundary text.toList a = true := by
  have hle := (LineIndex.ordered_ofText text).offset_le_lineEnd ha
  obtain ⟨start, hs, rfl, -⟩ := LineIndex.offset?_eq_ok ha
  have hmin := h.isBoundary_min hs
  rwa [Nat.min_eq_left hle] at hmin

end Lines

/-! ### One finding -/

/-- Whether a finding without an end, if it starts in the text, is at the end of its line or at a
character of one byte. -/
def Diagnostic.AtNarrowChar (text : String) (d : Diagnostic) : Prop :=
  d.range.stop = none → ∀ a, (LineIndex.ofText text).offset? d.range.start = .ok a →
    a = (LineIndex.ofText text).lineEnd d.range.start.line ∨ Text.CharAt text.toList a (a + 1)

theorem PaintedFrom.isBoundary {cs : List Char} {lineStart start stop n : Nat}
    (h : PaintedFrom cs lineStart start stop n) (hstart : Text.isBoundary cs start = true) :
    Text.isBoundary cs n = true := by
  cases h with
  | own => exact hstart
  | before _ _ char => exact char.isBoundary_start
  | alone => exact hstart

section Finding

variable {text : String} {d : Diagnostic} {x : Annotation}

/-- One byte on from a start in the text, but not past the end of the line. -/
theorem clampedOffset_behind {p : Position} {a : Nat}
    (ha : (LineIndex.ofText text).offset? p = .ok a) :
    (LineIndex.ofText text).clampedOffset ⟨p.line, p.column + 1⟩
      = min (a + 1) ((LineIndex.ofText text).lineEnd p.line) := by
  obtain ⟨start, hs, rfl, -⟩ := LineIndex.offset?_eq_ok ha
  exact LineIndex.clampedOffset_eq_min hs

theorem Diagnostic.atNarrowChar_iff (hnone : d.range.stop = none) {a : Nat}
    (ha : (LineIndex.ofText text).offset? d.range.start = .ok a) :
    d.AtNarrowChar text ↔ a = (LineIndex.ofText text).lineEnd d.range.start.line ∨
      Text.CharAt text.toList a (a + 1) := by
  constructor
  · exact fun h => h hnone a ha
  · rintro h - a' ha'
    obtain rfl := Except.ok.inj (ha.symm.trans ha')
    exact h

/-- A finding stops at a boundary unless it has no end and starts at a wider character. -/
theorem isBoundary_stop_iff (hx : annotationOf? text.toList (.ofText text) d = some x)
    (hstart : d.range.start.OnBoundary text)
    (hstop : ∀ e, d.range.stop = some e → e.OnBoundary text) :
    Text.isBoundary text.toList x.span.stop = true ↔ d.AtNarrowChar text := by
  have hpainted := paintedAs_annotationOf? text d
  rw [hpainted.stop x hx]
  unfold Range.resolvedEnd
  cases he : d.range.stop with
  | some e =>
    refine iff_of_true (isBoundary_clampedOffset (hstop e he)) fun hnone => ?_
    rw [he] at hnone
    cases hnone
  | none =>
    have hordered := LineIndex.ordered_ofText text
    obtain ⟨a, lineStart, ha, -, -, -⟩ := hpainted.start x hx
    have hboundary := isBoundary_offset hstart ha
    rw [Option.getD_none, clampedOffset_behind ha, Diagnostic.atNarrowChar_iff he ha]
    rcases Nat.lt_or_eq_of_le (hordered.offset_le_lineEnd ha) with hlt | heq
    · -- inside the line, where a character begins
      have hwidth : a < Text.width text.toList :=
        Nat.lt_of_lt_of_le hlt (hordered.lineEnd_le_size d.range.start.line)
      rw [Nat.min_eq_left hlt, Text.isBoundary_add_one_iff hboundary hwidth,
        or_iff_right (Nat.ne_of_lt hlt)]
    · rw [← heq, Nat.min_eq_right (Nat.le_succ a)]
      exact iff_of_true hboundary (Or.inl rfl)

end Finding

/-! ### All findings -/

/-- **What is painted can be taken out of the text, or not.** Findings whose columns are at boundaries
of their lines, or past the ends, are painted from boundaries on. So what is painted can be taken out
of the text if it stops at a boundary. All of it does if and only if every finding that is drawn has
an end, does not start in the text, or is at the end of its line or at a character of one byte. -/
theorem painted_on_boundaries_iff (m : Arithmetic) (l : Layers) (text : String)
    (htext : Text.IsStorable text) (ds : List Diagnostic) (hfits : ∀ d ∈ ds, d.EndFits text)
    (hstart : ∀ d ∈ ds, d.range.start.OnBoundary text)
    (hstop : ∀ d ∈ ds, ∀ e, d.range.stop = some e → e.OnBoundary text) :
    ∃ l', l.applyInWords? m text ds = some l' ∧
      (∀ x ∈ l'.annotations, Text.isBoundary text.toList x.span.start = true) ∧
      (∀ x ∈ l'.annotations, (Text.slice? text.toList x.span.start x.span.stop).isSome = true ↔
        Text.isBoundary text.toList x.span.stop = true) ∧
      ((∀ x ∈ l'.annotations, Text.isBoundary text.toList x.span.stop = true) ↔
        ∀ d ∈ ds, d.isRendered = true → d.AtNarrowChar text) := by
  -- what is painted is painted for one of the findings, and starts at a boundary
  have hfrom : ∀ x ∈ paint text ds, ∃ d ∈ ds,
      annotationOf? text.toList (.ofText text) d = some x := by
    intro x hx
    obtain ⟨d, hd, hdx⟩ := List.mem_filterMap.mp hx
    exact ⟨d, hd, hdx⟩
  have hboundary : ∀ x ∈ paint text ds,
      Text.isBoundary text.toList x.span.start = true ∧ x.span.start ≤ x.span.stop := by
    intro x hx
    obtain ⟨d, hd, hdx⟩ := hfrom x hx
    obtain ⟨a, lineStart, ha, -, -, hpaintedFrom⟩ := (paintedAs_annotationOf? text d).start x hdx
    exact ⟨hpaintedFrom.isBoundary (isBoundary_offset (hstart d hd) ha), hpaintedFrom.le_stop⟩
  refine ⟨l.apply text ds, l.applyInWords?_eq htext hfits, ?_, ?_, ?_⟩
  · intro x hx
    exact (hboundary x hx).1
  · intro x hx
    obtain ⟨hxstart, hle⟩ := hboundary x hx
    rw [Text.isSome_slice?_iff]
    exact ⟨fun h => h.2.2, fun h => ⟨hle, hxstart, h⟩⟩
  · constructor
    · intro hall d hd hr hnone a ha
      -- without an end the finding is painted
      have hend : ∀ e, d.range.stop = some e → d.range.start ≤ e := by
        intro e he
        rw [hnone] at he
        cases he
      obtain ⟨x, hx⟩ :=
        Option.isSome_iff_exists.mp ((paintedAs_annotationOf? text d).shown hr a ha hend)
      have hxstop := hall x (List.mem_filterMap.mpr ⟨d, hd, hx⟩)
      exact (isBoundary_stop_iff hx (hstart d hd) (hstop d hd)).mp hxstop hnone a ha
    · intro hall x hx
      obtain ⟨d, hd, hdx⟩ := hfrom x hx
      have hr := (annotationOf?_eq_some.mp hdx).1
      exact (isBoundary_stop_iff hdx (hstart d hd) (hstop d hd)).mpr (hall d hd hr)

/-- A finding about a character of two bytes, with its end. -/
def accentedName : Diagnostic :=
  ⟨.error, ⟨⟨1, 0⟩, some ⟨1, 2⟩⟩, "E0602", "Undefined variable", none⟩

/-- A finding at the end of the first line, after six bytes. -/
def afterSix : Diagnostic := ⟨.error, ⟨⟨1, 6⟩, none⟩, "E0001", "Invalid syntax", none⟩

/-- A wide character that is painted as a whole, and the last character of its line. -/
theorem painted_on_boundaries_iff_accented :
    Text.IsStorable "é = 1\n" ∧ ∃ l', ({} : Layers).applyInWords? .checked "é = 1\n"
        [accentedName, afterSix] = some l' ∧
      ∀ x ∈ l'.annotations,
        (Text.slice? "é = 1\n".toList x.span.start x.span.stop).isSome = true := by
  have htext : Text.IsStorable "é = 1\n" := by decide
  have hplace (column : Nat) (hcolumn : Text.isBoundary "é = 1".toList column = true) :
      Position.OnBoundary "é = 1\n" ⟨1, column⟩ := by
    intro line hline _
    have hfirst : (LineIndex.ofText "é = 1\n").lineText? "é = 1\n" 1 = some "é = 1" := by
      decide
    obtain rfl := Option.some.inj (hline.symm.trans hfirst)
    exact hcolumn
  have hstop : ∀ d ∈ [accentedName, afterSix], ∀ e, d.range.stop = some e → e = ⟨1, 2⟩ := by
    intro d hd e he
    simp only [List.mem_cons, List.not_mem_nil, or_false] at hd
    rcases hd with rfl | rfl
    · exact (Option.some.inj he).symm
    · cases he
  have hfits : ∀ d ∈ [accentedName, afterSix], d.EndFits "é = 1\n" := by
    intro d hd
    refine endFits_of_le fun e he => ?_
    obtain rfl := hstop d hd e he
    decide
  obtain ⟨l', happly, -, hslice, hall⟩ :=
    painted_on_boundaries_iff .checked {} "é = 1\n" htext _ hfits
      (List.forall_mem_cons.mpr ⟨hplace 0 (by decide),
        List.forall_mem_singleton.mpr (hplace 6 (by decide))⟩)
      (fun d hd e he => hstop d hd e he ▸ hplace 2 (by decide))
  refine ⟨htext, l', happly, fun x hx => (hslice x hx).mpr (hall.mpr ?_ x hx)⟩
  intro d hd _ hnone a ha
  simp only [List.mem_cons, List.not_mem_nil, or_false] at hd
  rcases hd with rfl | rfl
  · cases hnone
  · -- the sixth byte is the end of the line
    have hsix : (LineIndex.ofText "é = 1\n").offset? afterSix.range.start = .ok 6 := rfl
    obtain rfl := Except.ok.inj (hsix.symm.trans ha)
    exact Or.inl (by decide)

/-- A finding at the first character of a text, without an end. -/
def atStart : Diagnostic := { accentedName with range := .point ⟨1, 0⟩ }

/-- A finding without an end is painted over the first half of a character of two bytes. -/
theorem painted_inside_character :
    ¬ ∀ (m : Arithmetic) (l : Layers) (text : String) (ds : List Diagnostic),
      Text.IsStorable text → (∀ d ∈ ds, d.EndFits text) →
      (∀ d ∈ ds, d.range.start.OnBoundary text) →
      (∀ d ∈ ds, ∀ e, d.range.stop = some e → e.OnBoundary text) →
      ∀ l', l.applyInWords? m text ds = some l' → ∀ x ∈ l'.annotations,
        Text.isBoundary text.toList x.span.start = true ∧
          Text.isBoundary text.toList x.span.stop = true := by
  intro h
  have hfits : ∀ d ∈ [atStart], d.EndFits "é = 1\n" :=
    List.forall_mem_singleton.mpr (endFits_of_le nofun)
  have hstart : ∀ d ∈ [atStart], d.range.start.OnBoundary "é = 1\n" :=
    List.forall_mem_singleton.mpr fun line _ _ => Text.isBoundary_width [] line.toList
  have htext : Text.IsStorable "é = 1\n" := by decide
  have hstop := h .checked {} "é = 1\n" [atStart] htext hfits hstart
    (List.forall_mem_singleton.mpr nofun) _ (Layers.applyInWords?_eq {} htext hfits)
    ⟨⟨0, 1⟩, .hard, "E0602", "Undefined variable"⟩ (by decide)
  -- the end is one byte behind the start, in the middle of the first character
  have hinside : Text.isBoundary "é = 1\n".toList 1 = false := by decide
  exact Bool.false_ne_true (hinside.symm.trans hstop.2)

end EditorInsight
