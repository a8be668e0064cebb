import EditorInsight.Proofs.Painting.Findings

/-!
# What the builds paint

A build that stops at a sum that is too large has painted nothing. Every other build gives
`paintInWords`, so whatever holds of these annotations holds of all that is ever painted: a sum that was
cut may lose a finding, but it never leads out of the text.

* `eq_paintInWords` and `paintInWords?_eq_none_iff`: what a build gives, and when it stops.
* `mem_paintInWords_bounds`: what is painted lies in its text, over any text and with any columns.
* `exists_mem_paintInWords`: a finding whose sum is a word is painted, whatever the other sums are.
-/

namespace EditorInsight

variable {m : Arithmetic} {text : String} {ds : List Diagnostic} {x : Annotation}

/-! ### Builds -/

theorem paintInWords?_wrapping (text : String) (ds : List Diagnostic) :
    paintInWords? .wrapping text ds = some (paintInWords text ds) :=
  (Option.some_get _).symm

theorem eq_paintInWords {xs : List Annotation} (h : paintInWords? m text ds = some xs) :
    xs = paintInWords text ds := by
  have hwrapping := (settled_paintInWords? text ds).wrapping_eq h
  exact Option.some.inj (hwrapping.symm.trans (paintInWords?_wrapping text ds))

/-- A build stops only if it checks its sums and one of them is too large. -/
theorem paintInWords?_eq_none_iff (htext : Text.IsStorable text) :
    paintInWords? m text ds = none ↔ m = .checked ∧ ∃ d ∈ ds, ¬ d.EndFits text := by
  constructor
  · intro hnone
    cases m with
    | wrapping =>
      rw [paintInWords?_wrapping] at hnone
      cases hnone
    | checked =>
      refine ⟨rfl, Classical.byContradiction fun hnot => ?_⟩
      have hall : ∀ d ∈ ds, d.EndFits text := fun d hd =>
        Classical.byContradiction fun hfits => hnot ⟨d, hd, hfits⟩
      rw [paintInWords?_eq htext hall] at hnone
      cases hnone
  · rintro ⟨rfl, d, hd, hfits⟩
    exact paintInWords?_eq_none htext hd hfits

/-! ### In the text -/

section Bounds

variable {ix : LineIndex} {cs : List Char} {r : Range}

namespace LineIndex

/-- The end of a line is in the text, also where offsets were cut. -/
theorem lineEndInWords?_le_size (hix : ofCharsInWords? m cs = some ix) {line stop : Nat}
    (hline : line ≠ 0) (h : ix.lineEndInWords? m line = some stop) : stop ≤ ix.size := by
  obtain ⟨behind, hbehind, hix⟩ := Option.bind_eq_some_iff.mp hix
  obtain rfl := Option.some.inj hix
  obtain ⟨i, rfl⟩ := Nat.exists_eq_succ_of_ne_zero hline
  unfold lineEndInWords? at h
  rw [List.getElem?_cons_succ] at h
  split at h
  · next next hnext =>
    -- the line ends at a newline, and the newline is in the text
    obtain ⟨n, hn, hadd⟩ := mem_of_mapM hbehind (List.mem_of_getElem? hnext)
    have hmem : n + 1 ∈ offsetsBehindNewlines 0 cs := by
      rw [offsetsBehindNewlines_eq_map]
      exact List.mem_map_of_mem hn
    calc stop
      _ ≤ n := Arithmetic.le_of_add?_of_sub? hadd h
      _ ≤ n + 1 := Nat.le_succ n
      _ ≤ Text.width cs := by
        have hle := (mem_offsetsBehindNewlines hmem).2
        omega
  · exact Nat.le_of_eq (Option.some.inj h).symm

theorem clampedOffsetInWords?_le_size (hix : ofCharsInWords? m cs = some ix) {p : Position} {n : Nat}
    (h : ix.clampedOffsetInWords? m p = some n) : n ≤ ix.size := by
  unfold clampedOffsetInWords? at h
  split at h
  · obtain rfl := Option.some.inj h
    exact Nat.zero_le _
  · next hline =>
    split at h
    · obtain ⟨offset, -, h⟩ := Option.bind_eq_some_iff.mp h
      obtain ⟨stop, hstop, h⟩ := Option.bind_eq_some_iff.mp h
      obtain rfl := Option.some.inj h
      exact Nat.le_trans (Nat.min_le_right _ _) (lineEndInWords?_le_size hix hline hstop)
    · exact Nat.le_of_eq (Option.some.inj h).symm

end LineIndex

theorem paintedRangeInWords?_bounds (hix : LineIndex.ofCharsInWords? m cs = some ix) {span : Span}
    (h : paintedRangeInWords? m cs ix r = some (some span)) :
    span.start ≤ span.stop ∧ span.stop ≤ ix.size := by
  obtain ⟨start?, -, h⟩ := Option.bind_eq_some_iff.mp h
  cases start? with
  | error e => cases h
  | ok start =>
    obtain ⟨e, -, h⟩ := Option.bind_eq_some_iff.mp h
    obtain ⟨stop, hstop, h⟩ := Option.bind_eq_some_iff.mp h
    have hsize : stop ≤ ix.size := LineIndex.clampedOffsetInWords?_le_size hix hstop
    split at h
    · cases h
    · next hle =>
      split at h
      · next hempty =>
        dsimp only at h
        split at h
        · next c hlast =>
          -- the character is not wider than the text up to its end
          have hwide : c.utf8Size ≤ start := (charAt_of_lastCharBetween? hlast).2.1
          rw [Arithmetic.sub?_eq hwide] at h
          obtain rfl := Option.some.inj (Option.some.inj h)
          exact ⟨Nat.le_trans (Nat.sub_le _ _) (Nat.le_of_eq hempty), hsize⟩
        · obtain rfl := Option.some.inj (Option.some.inj h)
          exact ⟨Nat.le_of_eq hempty, hsize⟩
      · obtain rfl := Option.some.inj (Option.some.inj h)
        exact ⟨Nat.le_of_not_lt hle, hsize⟩

end Bounds

/-- Each annotation is that of one of the findings. -/
theorem mem_paintInWords_iff : x ∈ paintInWords text ds ↔
    ∃ ix, LineIndex.ofCharsInWords? .wrapping text.toList = some ix ∧
      ∃ d ∈ ds, annotationInWords? .wrapping text.toList ix d = some (some x) := by
  obtain ⟨ix, hix, hpaint⟩ := Option.bind_eq_some_iff.mp (paintInWords?_wrapping text ds)
  rw [mem_filterMapM hpaint]
  constructor
  · exact fun h => ⟨ix, hix, h⟩
  · rintro ⟨ix', hix', h⟩
    obtain rfl := Option.some.inj (hix.symm.trans hix')
    exact h

theorem paintInWords_nil (text : String) : paintInWords text [] = [] := by
  refine List.eq_nil_iff_forall_not_mem.mpr fun x hx => ?_
  obtain ⟨ix, -, d, hd, -⟩ := mem_paintInWords_iff.mp hx
  cases hd

/-- **What is painted lies in the text** that it is painted over. -/
theorem mem_paintInWords_bounds (hx : x ∈ paintInWords text ds) :
    x.span.start ≤ x.span.stop ∧ x.span.stop ≤ Text.byteLength text := by
  obtain ⟨ix, hix, d, -, hd⟩ := mem_paintInWords_iff.mp hx
  have hsize : ix.size = Text.byteLength text := by
    obtain ⟨behind, -, hix⟩ := Option.bind_eq_some_iff.mp hix
    obtain rfl := Option.some.inj hix
    rfl
  unfold annotationInWords? at hd
  split at hd
  · obtain ⟨span?, hspan, hd⟩ := Option.bind_eq_some_iff.mp hd
    obtain ⟨span, rfl, rfl⟩ := Option.map_eq_some_iff.mp (Option.some.inj hd)
    rw [← hsize]
    exact paintedRangeInWords?_bounds hix hspan
  · cases hd

/-- A finding that is drawn, starts in the text and does not end before its start is painted, if the sum
for its end is a word. -/
theorem exists_mem_paintInWords (htext : Text.IsStorable text) {d : Diagnostic} (hd : d ∈ ds)
    (hfits : d.EndFits text) (hr : d.isRendered = true) {a : Nat}
    (ha : (LineIndex.ofText text).offset? d.range.start = .ok a)
    (hend : ∀ e, d.range.stop = some e → d.range.start ≤ e) :
    ∃ x ∈ paintInWords text ds, x.style = d.style ∧ x.code = d.code ∧ x.message = d.message := by
  have hpainted := paintedAs_annotationOf? text d
  obtain ⟨x, hx⟩ := Option.isSome_iff_exists.mp (hpainted.shown hr a ha hend)
  refine ⟨x, mem_paintInWords_iff.mpr ⟨.ofText text, ?_, d, hd, ?_⟩, hpainted.look x hx⟩
  · exact LineIndex.ofCharsInWords?_eq htext.width_lt
  · rw [annotationInWords?_eq htext hfits, hx]

end EditorInsight
