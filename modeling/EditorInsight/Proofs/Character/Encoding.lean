import EditorInsight.Proofs.Character
import EditorInsight.Proofs.LineIndex.Bytes

/-!
# Offsets in the UTF-8 form

A text is held as the bytes of its UTF-8 form, and an offset counts these bytes. Where a text can be
cut as a sequence of characters, its bytes can be cut into two texts, and nowhere else.

* `Text.isBoundary_iff_isValid`: the boundaries of a text are the valid positions of its UTF-8 form,
  which are the end and the first bytes of characters.
* `Text.IsSplice` says that a stretch of bytes has been replaced; `Text.isSplice_append` is a part of
  a text that is replaced by another text.
-/

namespace EditorInsight.Text

theorem byteLength_append (s t : String) : byteLength (s ++ t) = byteLength s + byteLength t := by
  rw [byteLength, String.toList_append]
  exact width_append s.toList t.toList

theorem byteLength_ofList (cs : List Char) : byteLength (String.ofList cs) = width cs := by
  rw [byteLength, String.toList_ofList]

theorem length_bytes (text : String) : (bytes text).length = byteLength text := by
  rw [bytes_eq]
  exact (width_eq_length text.toList).symm

theorem bytes_append (s t : String) : bytes (s ++ t) = bytes s ++ bytes t := by
  rw [bytes_eq, bytes_eq, bytes_eq, String.toList_append, List.flatMap_append]

theorem isValidUTF8_bytes (text : String) : (bytes text).toByteArray.IsValidUTF8 := by
  have h : (bytes text).toByteArray = text.toByteArray :=
    ByteArray.ext (Array.toList_inj.mp List.toList_data_toByteArray)
  rw [h]
  exact text.isValidUTF8

/-- The parts of a text are texts. -/
theorem isBoundary_iff_exists_string {text : String} {n : Nat} :
    isBoundary text.toList n = true ↔
      ∃ before after : String, text = before ++ after ∧ byteLength before = n := by
  rw [isBoundary_iff_exists_append]
  constructor
  · rintro ⟨before, after, htext, rfl⟩
    refine ⟨String.ofList before, String.ofList after, ?_, ?_⟩
    · rw [← String.ofList_append, ← htext, String.ofList_toList]
    · exact byteLength_ofList before
  · rintro ⟨before, after, rfl, rfl⟩
    exact ⟨before.toList, after.toList, String.toList_append, rfl⟩

/-- **Boundaries are the valid positions** of the UTF-8 form. -/
theorem isBoundary_iff_isValid {text : String} {n : Nat} :
    isBoundary text.toList n = true ↔ (String.Pos.Raw.mk n).IsValid text := by
  rw [isBoundary_iff_exists_string, String.Pos.Raw.isValid_iff_exists_append]
  have hend (s : String) : s.rawEndPos = ⟨byteLength s⟩ := by
    rw [← length_bytes]
    rfl
  constructor
  · rintro ⟨before, after, htext, rfl⟩
    exact ⟨before, after, htext, (hend before).symm⟩
  · rintro ⟨before, after, htext, hn⟩
    rw [hend, String.Pos.Raw.mk.injEq] at hn
    exact ⟨before, after, htext, hn.symm⟩

/-- Whether one text is the other with the bytes between two offsets replaced by those of a third. -/
structure IsSplice (text : String) (start stop : Nat) (new text' : String) : Prop where
  start_le_stop : start ≤ stop
  stop_le_byteLength : stop ≤ byteLength text
  bytes_eq : bytes text' = (bytes text).take start ++ bytes new ++ (bytes text).drop stop
  isValidUTF8 :
    ((bytes text).take start ++ bytes new ++ (bytes text).drop stop).toByteArray.IsValidUTF8

theorem isSplice_append (before old after new : String) :
    IsSplice (before ++ old ++ after) (byteLength before) (byteLength (before ++ old)) new
      (before ++ new ++ after) := by
  have htake : (bytes (before ++ old ++ after)).take (byteLength before) = bytes before := by
    rw [bytes_append, bytes_append, List.append_assoc, ← length_bytes, List.take_left]
  have hdrop : (bytes (before ++ old ++ after)).drop (byteLength (before ++ old)) = bytes after := by
    rw [bytes_append, ← length_bytes, List.drop_left]
  have hbytes : bytes (before ++ new ++ after)
      = (bytes (before ++ old ++ after)).take (byteLength before) ++ bytes new
        ++ (bytes (before ++ old ++ after)).drop (byteLength (before ++ old)) := by
    rw [htake, hdrop, bytes_append, bytes_append]
  exact {
    start_le_stop := by
      rw [byteLength_append]
      exact Nat.le_add_right _ _
    stop_le_byteLength := by
      rw [byteLength_append (before ++ old)]
      exact Nat.le_add_right _ _
    bytes_eq := hbytes
    isValidUTF8 := hbytes ▸ isValidUTF8_bytes _ }

end EditorInsight.Text
