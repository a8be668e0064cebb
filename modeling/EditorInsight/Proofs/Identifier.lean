import EditorInsight.Annotation
import EditorInsight.Identifier

/-!
# Words of a text

The run of characters that touches an offset is a part of the text with characters before and after
it. So it starts and stops where characters do, whatever the widths of the characters are.

* `Text.isBoundary_iff`: the boundaries of a text are the ways to write it as two parts.
* `Span.IsWord` says that a stretch covers whole characters of a text, at least one;
  `Span.IsWord.bounds` is what this means in bytes.
* `isWord_of_identifierAt?`: the identifier at an offset is such a stretch.
-/

namespace EditorInsight

/-- Whether a stretch covers whole characters of a text, and at least one. -/
def Span.IsWord (span : Span) (cs : List Char) : Prop :=
  ∃ before word after, cs = before ++ word ++ after ∧ word ≠ [] ∧
    span = ⟨Text.width before, Text.width (before ++ word)⟩

namespace Text

/-- The boundaries of a text are the ways to write it as two parts. -/
theorem isBoundary_iff {cs : List Char} {offset : Nat} :
    isBoundary cs offset = true ↔
      ∃ before after, cutAt? cs offset = some (before, after) ∧ cs = before ++ after ∧
        width before = offset := by
  unfold isBoundary
  constructor
  · intro h
    obtain ⟨⟨before, after⟩, hcut⟩ := Option.isSome_iff_exists.mp h
    exact ⟨before, after, hcut, eq_append_of_cutAt? hcut⟩
  · rintro ⟨before, after, hcut, -⟩
    rw [hcut]
    rfl

theorem isBoundary_width (before after : List Char) :
    isBoundary (before ++ after) (width before) = true := by
  unfold isBoundary
  rw [cutAt?_append]
  rfl

theorem width_pos {cs : List Char} (h : cs ≠ []) : 0 < width cs := by
  cases cs with
  | nil => exact absurd rfl h
  | cons c cs =>
    have hc := c.utf8Size_pos
    rw [width_cons]
    omega

end Text

/-- A word is not empty, lies in its text, and starts and stops where characters do. -/
theorem Span.IsWord.bounds {span : Span} {cs : List Char} (h : span.IsWord cs) :
    span.start < span.stop ∧ span.stop ≤ Text.width cs ∧
      Text.isBoundary cs span.start = true ∧ Text.isBoundary cs span.stop = true := by
  obtain ⟨before, word, after, rfl, hne, rfl⟩ := h
  have hword := Text.width_pos hne
  have hstop : Text.width (before ++ word) = Text.width before + Text.width word :=
    Text.width_append before word
  refine ⟨?_, ?_, ?_, Text.isBoundary_width (before ++ word) after⟩
  · change Text.width before < Text.width (before ++ word)
    omega
  · rw [Text.width_append (before ++ word)]
    exact Nat.le_add_right _ _
  · rw [List.append_assoc]
    exact Text.isBoundary_width before (word ++ after)

/-- The characters at the end of a text that belong to a class are its last part. -/
theorem exists_append_trailingRun (member : Char → Bool) (cs : List Char) :
    ∃ rest, rest ++ trailingRun member cs = cs := by
  refine ⟨(cs.reverse.dropWhile member).reverse, ?_⟩
  unfold trailingRun
  rw [← List.reverse_append, List.takeWhile_append_dropWhile, List.reverse_reverse]

/-- The run that touches an offset is a word. -/
theorem isWord_of_runAt? {member : Char → Bool} {cs : List Char} {offset start stop : Nat}
    (h : runAt? member cs offset = some (start, stop)) : (Span.mk start stop).IsWord cs := by
  unfold runAt? at h
  obtain ⟨⟨before, after⟩, hcut, h⟩ := Option.bind_eq_some_iff.mp h
  obtain ⟨hcs, hoffset⟩ := Text.eq_append_of_cutAt? hcut
  -- the run is the end of what is before the offset and the beginning of what is after it
  obtain ⟨rest, hrest⟩ := exists_append_trailingRun member before
  have hafter : after.takeWhile member ++ after.dropWhile member = after :=
    List.takeWhile_append_dropWhile
  have hwidth : Text.width rest + Text.width (trailingRun member before) = offset := by
    rw [← Text.width_append, hrest, hoffset]
  dsimp only at h
  split at h
  · next hlt =>
    obtain ⟨rfl, rfl⟩ := Prod.mk.inj (Option.some.inj h)
    refine ⟨rest, trailingRun member before ++ after.takeWhile member, after.dropWhile member,
      ?_, ?_, ?_⟩
    · rw [List.append_assoc, List.append_assoc, hafter, ← List.append_assoc, hrest, hcs]
    · -- without characters it would start where it stops
      intro hempty
      obtain ⟨hrun, hnext⟩ := List.append_eq_nil_iff.mp hempty
      rw [hrun, hnext] at hlt
      exact absurd hlt (Nat.lt_irrefl _)
    · rw [Text.width_append, Text.width_append, Span.mk.injEq]
      omega
  · cases h

theorem isWord_of_identifierAt? {text : String} {offset start stop : Nat}
    (h : identifierAt? text offset = some (start, stop)) :
    (Span.mk start stop).IsWord text.toList :=
  isWord_of_runAt? h

end EditorInsight
