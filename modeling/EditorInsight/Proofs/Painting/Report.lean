import EditorInsight.Proofs.Lint.Report
import EditorInsight.Proofs.Painting.Findings

/-!
# Painting what the linter reports

Lines and columns of a report may be any machine words. A column past the end of a line is meant to be
taken back to that end, but the column of the end of a finding is added to the offset of its line
first. So there are findings for which the sum is too large, and they are the only ones for which
painting goes wrong.

* `Diagnostic.RunsOff` says of a finding that it runs past the end of the line it starts on.
* `report_painted_iff` says when a report is painted without a sum that is too large, and what becomes
  of the findings that run past the end of a line.
* `farColumn_not_painted` is a report for which painting goes wrong.
-/

namespace EditorInsight

open Json (wordSize)

/-- Whether a finding ends on the line it starts on, at a column past the end of that line. -/
def Diagnostic.RunsOff (text : String) (d : Diagnostic) : Prop :=
  ∃ column start, d.range.stop = some ⟨d.range.start.line, column⟩ ∧
    (LineIndex.ofText text).lineStart? d.range.start.line = some start ∧
    (LineIndex.ofText text).lineEnd d.range.start.line < start + column

section RunsOff

variable {text : String} {d : Diagnostic}

/-- A finding that runs past the end of its line does not end before its start. -/
theorem Diagnostic.RunsOff.start_le (h : d.RunsOff text) {a : Nat}
    (ha : (LineIndex.ofText text).offset? d.range.start = .ok a) {e : Position}
    (he : d.range.stop = some e) : d.range.start ≤ e := by
  have hle := (LineIndex.ordered_ofText text).offset_le_lineEnd ha
  obtain ⟨column, start, hstop, hs, hpast⟩ := h
  obtain rfl := Option.some.inj (he.symm.trans hstop)
  obtain ⟨start', hs', rfl, -⟩ := LineIndex.offset?_eq_ok ha
  obtain rfl := Option.some.inj (hs.symm.trans hs')
  have hcolumn : d.range.start.column ≤ column := by omega
  exact Or.inr ⟨rfl, hcolumn⟩

/-- Its end is taken back to the end of the line. -/
theorem Diagnostic.RunsOff.clampedOffset_eq (h : d.RunsOff text) :
    (LineIndex.ofText text).clampedOffset d.range.resolvedEnd
      = (LineIndex.ofText text).lineEnd d.range.start.line := by
  obtain ⟨column, start, hstop, hs, hpast⟩ := h
  calc (LineIndex.ofText text).clampedOffset d.range.resolvedEnd
    _ = (LineIndex.ofText text).clampedOffset ⟨d.range.start.line, column⟩ := by
      rw [Range.resolvedEnd, hstop, Option.getD_some]
    _ = min (start + column) ((LineIndex.ofText text).lineEnd d.range.start.line) :=
      LineIndex.clampedOffset_eq_min hs
    _ = (LineIndex.ofText text).lineEnd d.range.start.line :=
      Nat.min_eq_right (Nat.le_of_lt hpast)

end RunsOff

/-- **Painting a report.** With checks, painting comes to its end if and only if every sum for the end
of a finding is a word. Then, in every build, a finding that is drawn, starts in the text and runs past
the end of its line is painted up to that end. Without checks, such a finding is lost if its sum is too
large: the others are painted as if it were not in the report. -/
theorem report_painted_iff (l : Layers) (text : String) (htext : Text.IsStorable text)
    {output : String} {ds : List Diagnostic} (hds : Lint.parseReport output = .ok ds) :
    ((∃ l', l.applyInWords? .checked text ds = some l') ↔ ∀ d ∈ ds, d.EndFits text) ∧
    ∀ before d after, ds = before ++ d :: after → d.isRendered = true →
      (∃ a, (LineIndex.ofText text).offset? d.range.start = .ok a) → d.RunsOff text →
      ((∀ d' ∈ ds, d'.EndFits text) → ∀ m, ∃ l' x, l.applyInWords? m text ds = some l' ∧
        l'.annotations = paint text before ++ x :: paint text after ∧
        (x.style = d.style ∧ x.code = d.code ∧ x.message = d.message) ∧
        x.span.stop = (LineIndex.ofText text).lineEnd d.range.start.line) ∧
      (¬ d.EndFits text → l.applyInWords? .wrapping text ds
        = l.applyInWords? .wrapping text (before ++ after)) := by
  refine ⟨⟨?_, fun hfits => ⟨_, l.applyInWords?_eq htext hfits⟩⟩, ?_⟩
  · -- one sum that is too large, and there is no result
    rintro ⟨l', hl'⟩ d hd
    refine Classical.byContradiction fun hnot => ?_
    rw [Layers.applyInWords?, Layers.applyBy, paintInWords?_eq_none htext hd hnot] at hl'
    cases hl'
  · rintro before d after rfl hr ⟨a, ha⟩ hruns
    constructor
    · -- painted as without words, and an end past the line is not before the start
      intro hfits m
      have hpainted := paintedAs_annotationOf? text d
      obtain ⟨x, hx⟩ := Option.isSome_iff_exists.mp
        (hpainted.shown hr a ha fun e he => hruns.start_le ha he)
      refine ⟨_, x, l.applyInWords?_eq htext hfits, paint_append_cons hx before after,
        hpainted.look x hx, ?_⟩
      rw [hpainted.stop x hx, hruns.clampedOffset_eq]
    · -- the report has words for columns, so what is left of the sum lies before the line
      intro hnot
      have hwords := Lint.inWords_of_parseReport hds d (List.mem_append_right _ List.mem_cons_self)
      have hlost := annotationInWords?_eq_some_none htext hnot fun e he => by
        obtain ⟨column, -, hstop, -⟩ := hruns
        obtain rfl := Option.some.inj (he.symm.trans hstop)
        exact ⟨rfl, (hwords.stop _ hstop).2⟩
      have hsame : paintInWords? .wrapping text (before ++ d :: after)
          = paintInWords? .wrapping text (before ++ after) := by
        rw [paintInWords?_eq_filterMapM htext, paintInWords?_eq_filterMapM htext,
          filterMapM_append_cons hlost]
      rw [Layers.applyInWords?, Layers.applyBy, hsame]
      rfl

/-- A finding on the second line that ends at the given column of that line. -/
def upToColumn (column : Nat) : Diagnostic :=
  ⟨.warning, ⟨⟨2, 0⟩, some ⟨2, column⟩⟩, "W0611", "Unused import os", some "unused-import"⟩

/-- What the linter reports of findings. -/
def reportOf (ds : List Diagnostic) : String :=
  Json.render (.array (ds.map fun d => .object (Lint.record d)))

theorem parseReport_upToColumn {column : Nat} (h : column < wordSize) :
    Lint.parseReport (reportOf [upToColumn column]) = .ok [upToColumn column] := by
  have hline : 2 < wordSize := by decide
  have hwords : Lint.InWords (upToColumn column) := by
    refine ⟨hline, Nat.zero_lt_of_lt hline, fun p hp => ?_⟩
    obtain rfl := Option.some.inj hp
    exact ⟨hline, h⟩
  exact Lint.parseReport_render (List.forall_mem_singleton.mpr hwords)

/-- A column of ordinary size is taken back to the end of the line. -/
theorem report_painted_iff_ordinary :
    Lint.parseReport (reportOf [upToColumn 80]) = .ok [upToColumn 80] ∧
    ∃ l' x, ({} : Layers).applyInWords? .checked "x = 1\nimport os\n" [upToColumn 80] = some l' ∧
      l'.annotations = [x] ∧ x.span.stop = 15 := by
  have hread : Lint.parseReport (reportOf [upToColumn 80]) = .ok [upToColumn 80] :=
    parseReport_upToColumn (by decide)
  have hfits : ∀ d ∈ [upToColumn 80], d.EndFits "x = 1\nimport os\n" := by
    refine List.forall_mem_singleton.mpr (endFits_of_le fun e he => ?_)
    obtain rfl := Option.some.inj he
    decide
  have hend : (LineIndex.ofText "x = 1\nimport os\n").lineEnd 2 = 15 := by decide
  have hruns : (upToColumn 80).RunsOff "x = 1\nimport os\n" :=
    ⟨80, 6, rfl, by decide, by decide⟩
  obtain ⟨-, hall⟩ :=
    report_painted_iff {} "x = 1\nimport os\n" (by decide) hread
  obtain ⟨l', x, happly, hannotations, -, hstop⟩ :=
    (hall [] (upToColumn 80) [] rfl rfl ⟨6, rfl⟩ hruns).1 hfits .checked
  exact ⟨hread, l', x, happly, hannotations, hstop.trans hend⟩

/-- Of a report whose only finding runs past the end of its line as far as can be, nothing is painted:
with checks there is no result, and without them there is one without annotations. -/
theorem farColumn_not_painted :
    Lint.parseReport (reportOf [upToColumn (wordSize - 1)]) = .ok [upToColumn (wordSize - 1)] ∧
    (upToColumn (wordSize - 1)).isRendered = true ∧
    (LineIndex.ofText "x = 1\nimport os\n").offset? (upToColumn (wordSize - 1)).range.start = .ok 6 ∧
    (upToColumn (wordSize - 1)).RunsOff "x = 1\nimport os\n" ∧
    ({} : Layers).applyInWords? .checked "x = 1\nimport os\n" [upToColumn (wordSize - 1)] = none ∧
    ({} : Layers).applyInWords? .wrapping "x = 1\nimport os\n" [upToColumn (wordSize - 1)]
      = some { revision := 1 } := by
  refine ⟨parseReport_upToColumn (by decide), rfl, rfl, ?_, ?_, ?_⟩
  · exact ⟨wordSize - 1, 6, rfl, by decide, by decide⟩
  · decide
  · decide

end EditorInsight
