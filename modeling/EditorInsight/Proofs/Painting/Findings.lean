import EditorInsight.Proofs.Painting.Words

/-!
# Painting a list of findings

Every finding is painted on its own, and in the order of the list. So nothing that can be painted is
lost and nothing is painted that no finding asks for.

* `endFits_of_le`: the sums of findings with columns of an ordinary size are words.
* `findings_painted_in_order` is the main result.
-/

namespace EditorInsight

open Json (wordSize)

/-- Nothing depends on the other findings. -/
theorem paint_append_cons {text : String} {d : Diagnostic} {x : Annotation}
    (hx : annotationOf? text.toList (.ofText text) d = some x) (before after : List Diagnostic) :
    paint text (before ++ d :: after) = paint text before ++ x :: paint text after := by
  change List.filterMap (annotationOf? text.toList (.ofText text)) (before ++ d :: after) = _
  rw [List.filterMap_append, List.filterMap_cons, hx]
  rfl

/-- No line starts past the end of the text. -/
theorem endFits_of_le {text : String} {d : Diagnostic}
    (h : ∀ e, d.range.stop = some e → Text.byteLength text + e.column < wordSize) :
    d.EndFits text := by
  intro _ a _ e he start hstart
  have hordered := LineIndex.ordered_ofText text
  calc start + e.column
    _ ≤ (LineIndex.ofText text).lineEnd e.line + e.column :=
      Nat.add_le_add_right (hordered.lineStart_le_lineEnd hstart) _
    _ ≤ Text.byteLength text + e.column :=
      Nat.add_le_add_right (hordered.lineEnd_le_size e.line) _
    _ < wordSize := h e he

/-- **No finding is lost or invented.** Over a text that can be held in memory, findings whose sums
are words are painted by every build, each on its own and in their order, and each is painted, or not,
as `PaintedAs` says. -/
theorem findings_painted_in_order (m : Arithmetic) (l : Layers) (text : String)
    (htext : Text.IsStorable text) (ds : List Diagnostic) (hfits : ∀ d ∈ ds, d.EndFits text) :
    ∃ (l' : Layers) (painted : Diagnostic → Option Annotation),
      l.applyInWords? m text ds = some l' ∧ l'.annotations = ds.filterMap painted ∧
        ∀ d, PaintedAs text d (painted d) := by
  refine ⟨l.apply text ds, annotationOf? text.toList (.ofText text), ?_, rfl, ?_⟩
  · exact l.applyInWords?_eq htext hfits
  · exact paintedAs_annotationOf? text

/-- A finding that starts at the end of the second line and ends on a line that a text of three lines
does not have. -/
def farBelow : Diagnostic := ⟨.error, ⟨⟨2, 1⟩, some ⟨9, 40⟩⟩, "E0602", "Undefined variable", none⟩

/-- One finding that is not drawn, one that is, and one that starts on a line that does not exist. -/
theorem findings_painted_in_order_mixed :
    Text.IsStorable "a = 1\nb\n" ∧
    ∃ l' x, ({} : Layers).applyInWords? .checked "a = 1\nb\n"
        [{ farBelow with severity := .convention }, farBelow,
          { farBelow with range := ⟨⟨9, 0⟩, none⟩ }] = some l' ∧
      l'.annotations = [x] ∧ x.code = "E0602" ∧ 6 ≤ x.span.start ∧ x.span.stop = 8 := by
  have htext : Text.IsStorable "a = 1\nb\n" := by decide +kernel
  have hfits : ∀ d ∈ [{ farBelow with severity := .convention }, farBelow,
      { farBelow with range := ⟨⟨9, 0⟩, none⟩ }], d.EndFits "a = 1\nb\n" := by
    intro d hd
    refine endFits_of_le fun e he => ?_
    have hcolumn : e.column ≤ 40 := by
      simp only [List.mem_cons, List.not_mem_nil, or_false] at hd
      rcases hd with rfl | rfl | rfl
      · obtain rfl := Option.some.inj he
        exact Nat.le_refl 40
      · obtain rfl := Option.some.inj he
        exact Nat.le_refl 40
      · cases he
    have hsmall : Text.byteLength "a = 1\nb\n" + 40 < wordSize := by decide +kernel
    omega
  obtain ⟨l', painted, happly, hannotations, hpainted⟩ :=
    findings_painted_in_order .checked {} "a = 1\nb\n" htext _ hfits
  -- two of the findings are not painted
  have hconvention := (hpainted { farBelow with severity := .convention }).hidden rfl
  have hnoLine := (hpainted { farBelow with range := ⟨⟨9, 0⟩, none⟩ }).refused
    (.lineOutOfRange 9 3) rfl
  have hstart : (LineIndex.ofText "a = 1\nb\n").offset? farBelow.range.start = .ok 7 := rfl
  have hle : ∀ e, farBelow.range.stop = some e → farBelow.range.start ≤ e := by
    intro e he
    obtain rfl := Option.some.inj he
    decide
  -- the third one is, from its own line up to the end of the text
  obtain ⟨x, hx⟩ := Option.isSome_iff_exists.mp ((hpainted farBelow).shown rfl 7 hstart hle)
  obtain ⟨a, lineStart, ha, hline, honLine, -⟩ := (hpainted farBelow).start x hx
  have hlineStart : (LineIndex.ofText "a = 1\nb\n").lineStart? farBelow.range.start.line = some 6 := by
    decide +kernel
  obtain rfl := Option.some.inj (hline.symm.trans hlineStart)
  have hclamped : (LineIndex.ofText "a = 1\nb\n").clampedOffset farBelow.range.resolvedEnd = 8 := by
    decide +kernel
  refine ⟨htext, l', x, happly, ?_, ((hpainted farBelow).look x hx).2.1, honLine,
    ((hpainted farBelow).stop x hx).trans hclamped⟩
  rw [hannotations, List.filterMap_cons, hconvention, List.filterMap_cons, hx, List.filterMap_cons,
    hnoLine, List.filterMap_nil]

end EditorInsight
