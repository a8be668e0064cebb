import EditorInsight.Proofs.Painting.Boundaries

/-!
# Findings at a single place

A finding without an end is painted over one byte, and at the end of its line over the character
before. This is meant to show at least one byte of the text of the line. A carriage return at the end
of a line is not in the text of the line, but a finding may start at it or behind it. Then the
carriage return is all that is painted.

* `Span.Shows` says of a stretch that it has a byte of the text of a line.
* `point_shows_iff` is the exact condition for a finding at a single place, and
  `point_before_return_hidden` a finding for which it fails.
-/

namespace EditorInsight

/-- Whether a stretch has a byte of the text of a line that starts at the given offset. -/
def Span.Shows (span : Span) (start : Nat) (line : String) : Prop :=
  ∃ n, span.start ≤ n ∧ n < span.stop ∧ start ≤ n ∧ n < start + Text.byteLength line

/-- A stretch that is not empty shows its first byte. -/
theorem Span.shows_of_start {span : Span} {start : Nat} {line : String}
    (hne : span.start < span.stop) (hle : start ≤ span.start)
    (hlt : span.start < start + Text.byteLength line) : span.Shows start line :=
  ⟨span.start, Nat.le_refl _, hne, hle, hlt⟩

/-- A stretch behind the text of a line shows nothing of it. -/
theorem Span.not_shows {span : Span} {start : Nat} {line : String}
    (hle : start + Text.byteLength line ≤ span.start) : ¬ span.Shows start line := by
  rintro ⟨n, hfrom, -, -, hline⟩
  omega

section Point

variable {text line : String}

/-- Behind the text of a line there is a carriage return. -/
theorem charAt_return {before after : List Char}
    (hcs : text.toList = before ++ (line.toList ++ ['\r']) ++ after) :
    Text.CharAt text.toList (Text.width before + Text.byteLength line)
      (Text.width before + Text.byteLength line + 1) := by
  refine ⟨before ++ line.toList, '\r', after, ?_, Text.width_append _ _, rfl⟩
  rw [hcs]
  simp

/-- The stretch of a finding at a single place either shows its line, or it is a carriage return behind
the text of the line. -/
theorem shows_or_eq_return {before rest after : List Char} {column n stop : Nat}
    (hcs : text.toList = before ++ (line.toList ++ rest) ++ after)
    (hreturn : rest = [] ∨ rest = ['\r']) (hne : line ≠ "")
    (hstop : stop = min (Text.width before + column + 1)
      (Text.width before + Text.byteLength line + Text.width rest))
    (hfrom : PaintedFrom text.toList (Text.width before) (Text.width before + column) stop n) :
    (Span.Shows ⟨n, stop⟩ (Text.width before) line ∧
        (column < Text.byteLength line ∨ rest = [])) ∨
      (Text.byteLength line ≤ column ∧ rest = ['\r'] ∧
        n = Text.width before + Text.byteLength line ∧ stop = n + 1) := by
  have hchars : line.toList ≠ [] := fun h => hne (String.toList_eq_nil_iff.mp h)
  have hpos : 0 < Text.byteLength line := Text.width_pos hchars
  have hempty : rest = [] → Text.width rest = 0 := fun h => h ▸ rfl
  have hone : rest = ['\r'] → Text.width rest = 1 := fun h => h ▸ rfl
  rcases hfrom with something | ⟨nothing, onLine, char⟩ | ⟨nothing, first⟩
  · -- the byte behind the place
    rcases Nat.lt_or_ge column (Text.byteLength line) with hlt | hge
    · -- the place is in the text of the line
      have hinside := Nat.add_lt_add_left hlt (Text.width before)
      exact .inl ⟨Span.shows_of_start something (Nat.le_add_right _ _) hinside, .inl hlt⟩
    · -- the place is behind the text, and only a carriage return is still there
      rcases hreturn with hrest | hrest
      · have hwidth := hempty hrest
        omega
      · have hwidth := hone hrest
        exact .inr ⟨hge, hrest, by omega, by omega⟩
  · -- the character before the end of the line
    have hlonger := char.start_lt_stop
    rcases hreturn with hrest | hrest
    · -- that is the last one of the text
      have hwidth := hempty hrest
      have hinside : n < Text.width before + Text.byteLength line := by omega
      exact .inl ⟨Span.shows_of_start (nothing ▸ hlonger) onLine hinside, .inr hrest⟩
    · -- that is the carriage return, and a character that ends there starts in one place
      have hwidth := hone hrest
      have hplace : Text.width before + column = Text.width before + Text.byteLength line + 1 := by
        omega
      subst hrest
      have hstart := char.start_unique (hplace ▸ charAt_return hcs)
      exact .inr ⟨by omega, rfl, hstart, by omega⟩
  · -- the line is not empty, so a character ends where it ends
    have hpart : line.toList ++ rest ≠ [] := List.append_ne_nil_of_left_ne_nil hchars rest
    obtain ⟨n, hle, hchar⟩ := Text.exists_charAt_end hcs hpart
    have hend : Text.width before + Text.width (line.toList ++ rest)
        = Text.width before + column := by
      rw [Text.width_append, ← Text.byteLength]
      omega
    rw [hend] at hchar
    exact absurd hchar (first n hle)

end Point

/-- **Which findings at a single place show.** A finding that is drawn, has no end and starts in a
line with some text is painted, whatever is painted before and after it. What is painted shows the
line if and only if the finding starts in the text of the line or no carriage return follows the
text. Otherwise that carriage return is what is painted. -/
theorem point_shows_iff (m : Arithmetic) (l : Layers) (text : String) (htext : Text.IsStorable text)
    (before after : List Diagnostic) (hfits : ∀ d' ∈ before ++ after, d'.EndFits text)
    (d : Diagnostic) (hr : d.isRendered = true) (hpoint : d.range.stop = none) {a : Nat}
    (ha : (LineIndex.ofText text).offset? d.range.start = .ok a) {line : String}
    (hline : (LineIndex.ofText text).lineText? text d.range.start.line = some line)
    (hne : line ≠ "") :
    ∃ l' x start, l.applyInWords? m text (before ++ d :: after) = some l' ∧
      l'.annotations = paint text before ++ x :: paint text after ∧
      (x.style = d.style ∧ x.code = d.code ∧ x.message = d.message) ∧
      (LineIndex.ofText text).lineStart? d.range.start.line = some start ∧
      (x.span.Shows start line ↔ d.range.start.column < Text.byteLength line ∨
        (LineIndex.ofText text).lineEnd d.range.start.line = start + Text.byteLength line) ∧
      (¬ x.span.Shows start line →
        Text.slice? text.toList x.span.start x.span.stop = some ['\r']) := by
  have hpainted := paintedAs_annotationOf? text d
  have hnoEnd : ∀ e, d.range.stop ≠ some e := fun e he => nomatch hpoint.symm.trans he
  -- the finding is painted
  obtain ⟨x, hx⟩ := Option.isSome_iff_exists.mp
    (hpainted.shown hr a ha fun e he => absurd he (hnoEnd e))
  have hall : ∀ d' ∈ before ++ d :: after, d'.EndFits text := by
    intro d' hd'
    rcases List.mem_append.mp hd' with hbefore | hrest
    · exact hfits d' (List.mem_append_left _ hbefore)
    · rcases List.mem_cons.mp hrest with rfl | hafter
      · exact endFits_of_le fun e he => absurd he (hnoEnd e)
      · exact hfits d' (List.mem_append_right _ hafter)
  -- where its line stands, and what is painted of it
  obtain ⟨a', start, ha', hs, -, hfrom⟩ := hpainted.start x hx
  obtain rfl := Except.ok.inj (ha.symm.trans ha')
  obtain ⟨start', hs', rfl, -⟩ := LineIndex.offset?_eq_ok ha
  obtain rfl := Option.some.inj (hs.symm.trans hs')
  obtain ⟨upTo, own, rest, behind, hcs, hreturn, hown, rfl, hend⟩ :=
    LineIndex.exists_lineText_ofText hs
  obtain rfl := Option.some.inj (hline.symm.trans hown)
  have hstop : x.span.stop = min (Text.width upTo + d.range.start.column + 1)
      (Text.width upTo + Text.byteLength line + Text.width rest) := by
    rw [hpainted.stop x hx, Range.resolvedEnd, hpoint, Option.getD_none, clampedOffset_behind ha,
      hend]
  have hnoReturn : rest = [] ↔ (LineIndex.ofText text).lineEnd d.range.start.line
      = Text.width upTo + Text.byteLength line := by
    rw [hend, Nat.add_eq_left]
    exact ⟨fun h => h ▸ rfl, width_eq_zero⟩
  refine ⟨l.apply text (before ++ d :: after), x, Text.width upTo, l.applyInWords?_eq htext hall,
    paint_append_cons hx before after, hpainted.look x hx, hs, ?_⟩
  rw [← hnoReturn]
  rcases shows_or_eq_return hcs hreturn hne hstop hfrom with
    ⟨hshows, hwhere⟩ | ⟨hcolumn, hrest, hn, hlast⟩
  · exact ⟨iff_of_true hshows hwhere, fun h => absurd hshows h⟩
  · constructor
    · refine iff_of_false (Span.not_shows (Nat.le_of_eq hn.symm)) ?_
      rintro (hlt | rfl)
      · omega
      · cases hrest
    · intro
      subst hrest
      rw [hlast, hn]
      refine Text.slice?_eq_some_iff.mpr ⟨upTo ++ line.toList, behind, ?_, Text.width_append _ _, rfl⟩
      rw [hcs]
      simp

/-- A finding at the end of the third line, which is the last one and ends in a character of two
bytes. -/
def afterLast : Diagnostic := ⟨.error, ⟨⟨3, 6⟩, none⟩, "E0001", "Invalid syntax", none⟩

/-- The last line has no carriage return, so a finding at its end shows. -/
theorem point_shows_iff_last :
    ∃ l' x, ({} : Layers).applyInWords? .wrapping "x\r\n\r\nx = é" [afterLast] = some l' ∧
      l'.annotations = [x] ∧ x.span.Shows 5 "x = é" := by
  have ha : (LineIndex.ofText "x\r\n\r\nx = é").offset? afterLast.range.start = .ok 11 := rfl
  have hline : (LineIndex.ofText "x\r\n\r\nx = é").lineText? "x\r\n\r\nx = é" 3 = some "x = é" := by
    decide
  have hstart : (LineIndex.ofText "x\r\n\r\nx = é").lineStart? 3 = some 5 := by decide
  obtain ⟨l', x, start, happly, hannotations, -, hs, hshows, -⟩ :=
    point_shows_iff .wrapping {} "x\r\n\r\nx = é" (by decide) [] [] nofun afterLast rfl rfl
      ha hline (by decide)
  obtain rfl := Option.some.inj (hs.symm.trans hstart)
  exact ⟨l', x, happly, hannotations, hshows.mpr (.inr (by decide))⟩

/-- A finding behind the only character of the first line. -/
def afterOne : Diagnostic := { afterLast with range := .point ⟨1, 1⟩ }

/-- Of a finding at the end of the text of its line, only the carriage return behind it is painted. -/
theorem point_before_return_hidden :
    ¬ ∀ (m : Arithmetic) (l : Layers) (text : String) (ds : List Diagnostic),
      Text.IsStorable text → (∀ d ∈ ds, d.EndFits text) →
      ∀ d ∈ ds, d.isRendered = true → d.range.stop = none →
        ∀ a, (LineIndex.ofText text).offset? d.range.start = .ok a →
        ∀ line, (LineIndex.ofText text).lineText? text d.range.start.line = some line → line ≠ "" →
        ∀ start, (LineIndex.ofText text).lineStart? d.range.start.line = some start →
        ∀ l', l.applyInWords? m text ds = some l' →
          ∃ x ∈ l'.annotations, x.code = d.code ∧ x.message = d.message ∧
            x.span.Shows start line := by
  intro h
  have htext : Text.IsStorable "x\r\n" := by decide
  have hfits : ∀ d ∈ [afterOne], d.EndFits "x\r\n" :=
    List.forall_mem_singleton.mpr (endFits_of_le nofun)
  obtain ⟨x, hx, -, -, hshows⟩ := h .checked {} "x\r\n" [afterOne] htext hfits afterOne
    (List.mem_singleton_self afterOne) rfl rfl 1 rfl "x" (by decide) (by decide) 0 rfl _
    (Layers.applyInWords?_eq {} htext hfits)
  have hpaint : paint "x\r\n" [afterOne] = [⟨⟨1, 2⟩, .hard, "E0001", "Invalid syntax"⟩] := by
    decide
  change x ∈ paint "x\r\n" [afterOne] at hx
  rw [hpaint] at hx
  obtain rfl := List.mem_singleton.mp hx
  exact Span.not_shows (Nat.le_refl 1) hshows

end EditorInsight
