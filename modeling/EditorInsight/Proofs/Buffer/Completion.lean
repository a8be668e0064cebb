import EditorInsight.Buffer
import EditorInsight.Proofs.Character.Encoding
import EditorInsight.Proofs.Identifier.Runs

/-!
# Accepting a completion

A completion takes the place of the partial word before the caret: the longest run of identifier
characters that ends there. The scan that finds it also looks behind the caret, but what it finds
there does not matter. With a label that is itself an identifier, the partial word before the new
caret is the label, so that accepting it once more changes nothing.

* `Buffer.wordStart_eq`: where the partial word begins.
* `Buffer.apply_complete`: the label in its place.
* `Buffer.complete_idempotent`: what a completion does, and that doing it again changes nothing.
-/

namespace EditorInsight.Buffer

open Text

variable {b : Buffer} {before word after : String}

/-! ### The partial word -/

/-- **The partial word** begins behind the last character that belongs to no identifier. -/
theorem wordStart_eq (htext : b.text = before ++ word ++ after)
    (hword : Within isIdentifierChar word.toList)
    (hbefore : EndsOutside isIdentifierChar before.toList) :
    b.wordStart (byteLength (before ++ word)) = byteLength before := by
  obtain ⟨right, rest, hafter, hright, hrest⟩ := exists_leading_run isIdentifierChar after.toList
  have hchars : b.text.toList = before.toList ++ word.toList ++ (right ++ rest) := by
    rw [htext, String.toList_append, String.toList_append, hafter]
  have hoffset : byteLength (before ++ word) = width (before.toList ++ word.toList) := by
    rw [byteLength, String.toList_append]
  have hrun : identifierAt? b.text (byteLength (before ++ word)) = if word.toList ++ right = []
      then none else some (byteLength before, width (before.toList ++ (word.toList ++ right))) := by
    rw [identifierAt?, hchars, hoffset]
    exact runAt?_append hbefore hword hright hrest
  rw [wordStart, hrun]
  by_cases hempty : word.toList ++ right = []
  · -- without a word the caret is where it would begin
    rw [if_pos hempty, hoffset, (List.append_eq_nil_iff.mp hempty).1, List.append_nil]
    rfl
  · rw [if_neg hempty, byteLength_append]
    exact Nat.min_eq_left (Nat.le_add_right _ _)

/-- At every boundary there is a partial word, which may be empty. -/
theorem exists_partialWord {offset : Nat} (h : isBoundary b.chars offset = true) :
    ∃ before word after : String, b.text = before ++ word ++ after ∧
      byteLength (before ++ word) = offset ∧ Within isIdentifierChar word.toList ∧
      EndsOutside isIdentifierChar before.toList := by
  -- the text is cut at the caret, and again where the scan backwards stops
  obtain ⟨upTo, after, hcut, rfl⟩ := isBoundary_iff_exists_string.mp h
  obtain ⟨front, run, hupTo, hfront, hrun⟩ := exists_trailing_run isIdentifierChar upTo.toList
  obtain rfl : upTo = String.ofList front ++ String.ofList run := by
    rw [← String.ofList_append, ← hupTo, String.ofList_toList]
  refine ⟨_, _, after, hcut, rfl, ?_, ?_⟩
  · rw [String.toList_ofList]
    exact hrun
  · rw [String.toList_ofList]
    exact hfront

/-! ### The label in its place -/

theorem withChars_toList (b : Buffer) (text : String) :
    b.withChars text.toList = { b with text := text, generation := b.generation + 1 } := by
  rw [withChars, String.ofList_toList]

/-- A part of the text is replaced by another text. -/
theorem splice_append (htext : b.text = before ++ word ++ after) (new : String) :
    b.splice (byteLength before) (byteLength (before ++ word)) new.toList
      = .ok { b with text := before ++ new ++ after, generation := b.generation + 1 } := by
  have hcut : splice? b.chars (byteLength before) (byteLength (before ++ word)) new.toList
      = some (before ++ new ++ after).toList := by
    rw [chars, htext]
    simp only [byteLength, String.toList_append]
    exact splice?_append _ _ _ _
  rw [splice, hcut]
  exact congrArg Except.ok (b.withChars_toList _)

/-- The label takes the place of the partial word, and the caret is put behind it. -/
theorem apply_complete (hwritable : b.isReadOnly = false) (htext : b.text = before ++ word ++ after)
    (hword : Within isIdentifierChar word.toList)
    (hbefore : EndsOutside isIdentifierChar before.toList) (label : String) :
    b.apply (.complete (byteLength (before ++ word)) label)
      = .ok ({ b with text := before ++ label ++ after, generation := b.generation + 1 },
        some (byteLength (before ++ label))) := by
  have hboundary : isBoundary b.chars (byteLength (before ++ word)) = true :=
    isBoundary_iff_exists_string.mpr ⟨before ++ word, after, htext, rfl⟩
  unfold apply
  simp only [ensureWritable, hwritable, checkOffset, hboundary, wordStart_eq htext hword hbefore,
    splice_append htext, byteLength_append before label]
  rfl

/-- **Accepting a completion** replaces the longest run of identifier characters that ends at the
caret by the label, keeps all text before that run and from the caret on, and puts the caret behind
the label. If the label consists of identifier characters, accepting it once more there leaves text
and caret as they are. -/
theorem complete_idempotent (b : Buffer) (hwritable : b.isReadOnly = false) {offset : Nat}
    (hoffset : isBoundary b.chars offset = true) (label : String) :
    ∃ before word after : String, b.text = before ++ word ++ after ∧
      byteLength (before ++ word) = offset ∧
      Within isIdentifierChar word.toList ∧ EndsOutside isIdentifierChar before.toList ∧
      ∃ b', b.apply (.complete offset label) = .ok (b', some (byteLength (before ++ label))) ∧
        b'.text = before ++ label ++ after ∧
        (Within isIdentifierChar label.toList →
          ∃ b'', b'.apply (.complete (byteLength (before ++ label)) label)
              = .ok (b'', some (byteLength (before ++ label))) ∧ b''.text = b'.text) := by
  obtain ⟨before, word, after, htext, rfl, hword, hbefore⟩ := exists_partialWord hoffset
  refine ⟨before, word, after, htext, rfl, hword, hbefore,
    { b with text := before ++ label ++ after, generation := b.generation + 1 },
    apply_complete hwritable htext hword hbefore label, rfl, fun hlabel => ?_⟩
  -- what is before the label still ends outside, so the label is the partial word now
  have hagain := apply_complete
    (b := { b with text := before ++ label ++ after, generation := b.generation + 1 })
    hwritable rfl hlabel hbefore label
  exact ⟨_, hagain, rfl⟩

/-- In the middle of a word, with characters of two bytes on the way. -/
theorem complete_idempotent_inside :
    let b : Buffer := { path := ⟨"a.py"⟩, text := "x = naïtail" }
    (b.isReadOnly = false ∧ isBoundary b.chars 8 = true) ∧
    ∃ b', b.apply (.complete 8 "naïve") = .ok (b', some 10) ∧ b'.text = "x = naïvetail" ∧
      ∃ b'', b'.apply (.complete 10 "naïve") = .ok (b'', some 10) ∧ b''.text = b'.text := by
  intro b
  have hwritable : b.isReadOnly = false := by decide +kernel
  have hoffset : isBoundary b.chars 8 = true := by decide +kernel
  have hlabel : Within isIdentifierChar "naïve".toList := List.all_eq_true.mp (by decide +kernel)
  have hdone : (b.apply (.complete 8 "naïve")).toOption
      = some ({ b with text := "x = naïvetail", generation := 1 }, some 10) := by
    decide +kernel
  obtain ⟨before, word, after, -, -, -, -, b', hb', htext, hagain⟩ :=
    complete_idempotent b hwritable hoffset "naïve"
  rw [hb'] at hdone
  obtain ⟨hb, hcaret⟩ := Prod.mk.inj (Option.some.inj hdone)
  have hagain := hagain hlabel
  rw [Option.some.inj hcaret] at hb' hagain
  exact ⟨⟨hwritable, hoffset⟩, b', hb', congrArg Buffer.text hb, hagain⟩

end EditorInsight.Buffer
