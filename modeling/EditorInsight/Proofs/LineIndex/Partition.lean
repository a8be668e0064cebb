import EditorInsight.Proofs.Character.Encoding
import EditorInsight.Proofs.LineIndex.Lines
import EditorInsight.Proofs.LineIndex.Positions
import EditorInsight.Proofs.Painting.Words

/-!
# A text and its lines

A line is found by two entries of the index: where it starts, and where the next one starts or else
the text ends. Taken together these stretches leave out the newlines and nothing else, so the text can
be put together from them. An index may also be asked for a line of another text, which need not have
a part that starts and ends there.

* `Text.IsPart` says that a text is the part of another one between two offsets.
* `LineIndex.lineBytes?` are the bytes from the start of a line to its end.
* `LineIndex.lineText?_eq_some_iff` says what is read of a line, whatever text the index is of.
* `LineIndex.exists_slices_ofText`: the lines of a text, as parts of it.
* `LineIndex.lineTextInWords?` finds the end of a line with a sum and differences in words;
  `LineIndex.lineTextInWords?_eq` says that none of them is refused.
* `LineIndex.lines_partition` puts everything together.
-/

namespace EditorInsight

open Json (wordSize)

/-! ### Parts of a text -/

namespace Text

variable {text slice : String} {start stop : Nat}

/-- Whether a text is the part of another one between two offsets. -/
def IsPart (text : String) (start stop : Nat) (slice : String) : Prop :=
  ∃ before after : String, text = before ++ slice ++ after ∧ byteLength before = start ∧
    start + byteLength slice = stop

theorem isPart_ofList {before part after : List Char} (h : text.toList = before ++ part ++ after) :
    IsPart text (width before) (width before + width part) (String.ofList part) := by
  refine ⟨String.ofList before, String.ofList after, ?_, byteLength_ofList before, ?_⟩
  · rw [← String.ofList_append, ← String.ofList_append, ← h, String.ofList_toList]
  · rw [byteLength_ofList]

/-- What can be taken out of a text are its parts. -/
theorem slice?_eq_some_toList_iff :
    slice? text.toList start stop = some slice.toList ↔ IsPart text start stop slice := by
  rw [slice?_eq_some_iff]
  constructor
  · rintro ⟨before, after, htext, rfl, rfl⟩
    have hpart := isPart_ofList htext
    rwa [String.ofList_toList] at hpart
  · rintro ⟨before, after, rfl, rfl, rfl⟩
    exact ⟨before.toList, after.toList, by rw [String.toList_append, String.toList_append], rfl, rfl⟩

/-- The bytes between two offsets, if these are in order and not past the end. -/
def byteSlice? (bs : List UInt8) (start stop : Nat) : Option (List UInt8) :=
  if start ≤ stop ∧ stop ≤ bs.length then some (bs.extract start stop) else none

theorem IsPart.byteSlice?_eq (h : IsPart text start stop slice) :
    byteSlice? (bytes text) start stop = some (bytes slice) := by
  obtain ⟨before, after, rfl, rfl, rfl⟩ := h
  have hle : byteLength before + byteLength slice ≤ (bytes (before ++ slice ++ after)).length := by
    rw [length_bytes, byteLength_append, byteLength_append]
    exact Nat.le_add_right _ _
  rw [byteSlice?, if_pos ⟨Nat.le_add_right _ _, hle⟩, List.extract_eq_take_drop,
    Nat.add_sub_cancel_left, bytes_append, bytes_append, List.append_assoc, ← length_bytes before,
    List.drop_left, ← length_bytes slice, List.take_left]

end Text

/-- No part between cuts has a cut in it. -/
theorem not_mem_of_mem_splitOn {α : Type} [BEq α] [LawfulBEq α] {a : α} {xs part : List α}
    (h : part ∈ xs.splitOn a) : a ∉ part := by
  induction xs generalizing part with
  | nil =>
    rw [List.splitOn_nil, List.mem_singleton] at h
    exact h ▸ List.not_mem_nil
  | cons x xs ih =>
    rw [List.splitOn_cons_eq_if_modifyHead] at h
    split at h
    · rcases List.mem_cons.mp h with rfl | h
      · exact List.not_mem_nil
      · exact ih h
    · next hx =>
      obtain ⟨first, parts, hparts⟩ := List.exists_cons_of_ne_nil (List.splitOn_ne_nil a xs)
      rw [hparts, List.modifyHead_cons] at h
      rw [hparts] at ih
      rcases List.mem_cons.mp h with rfl | h
      · -- the first part is longer by what is no cut
        rw [List.mem_cons, not_or]
        exact ⟨fun heq => hx (beq_iff_eq.mpr heq.symm), ih List.mem_cons_self⟩
      · exact ih (List.mem_cons_of_mem _ h)

theorem not_mem_withoutReturn {c : Char} {part : List Char} (h : c ∉ part) :
    c ∉ withoutReturn part := by
  obtain ⟨rest, hrest, -⟩ := exists_withoutReturn_append part
  intro hmem
  rw [hrest] at h
  exact h (List.mem_append_left rest hmem)

namespace LineIndex

variable {ix : LineIndex} {line : Nat} {m : Arithmetic}

/-- The bytes of a text from the start of a line to its end. -/
def lineBytes? (ix : LineIndex) (text : String) (line : Nat) : Option (List UInt8) := do
  let start ← ix.lineStart? line
  Text.byteSlice? (Text.bytes text) start (ix.lineEnd line)

/-! ### Lines of any text -/

theorem lineText?_eq_bind (ix : LineIndex) (text : String) (line : Nat) :
    ix.lineText? text line = (ix.lineStart? line).bind fun start =>
      (Text.slice? text.toList start (ix.lineEnd line)).map fun cs =>
        String.ofList (withoutReturn cs) := by
  rw [lineText?, lineChars?]
  cases ix.lineStart? line with
  | none => rfl
  | some start =>
    rw [Option.bind_eq_bind, Option.bind_some, Option.bind_some]
    cases Text.slice? text.toList start (ix.lineEnd line) <;> rfl

/-- **What is read of a line** is the part of a text from the start of the line to its end, without a
carriage return. The text may be any, and nothing is read if it has no such part. -/
theorem lineText?_eq_some_iff {text own : String} :
    ix.lineText? text line = some own ↔
      ∃ start slice, ix.lineStart? line = some start ∧
        Text.IsPart text start (ix.lineEnd line) slice ∧
        own.toList = withoutReturn slice.toList := by
  rw [lineText?_eq_bind, Option.bind_eq_some_iff]
  refine exists_congr fun start => ?_
  constructor
  · rintro ⟨hstart, h⟩
    obtain ⟨cs, hslice, rfl⟩ := Option.map_eq_some_iff.mp h
    refine ⟨String.ofList cs, hstart, Text.slice?_eq_some_toList_iff.mp ?_, ?_⟩
    · rw [String.toList_ofList]
      exact hslice
    · rw [String.toList_ofList, String.toList_ofList]
  · rintro ⟨slice, hstart, hpart, hown⟩
    refine ⟨hstart, Option.map_eq_some_iff.mpr ⟨slice.toList, ?_, ?_⟩⟩
    · exact Text.slice?_eq_some_toList_iff.mpr hpart
    · rw [← hown, String.ofList_toList]

/-! ### Lines of the own text -/

/-- **Lines are parts of the text**, from which newlines put it together. What is read of a line is its
part without a carriage return, and there is no newline in it. -/
theorem exists_slices_ofText (text : String) :
    ∃ slices : List String, slices.length = (ofText text).lineCount ∧
      "\n".intercalate slices = text ∧
      ∀ i slice, slices[i]? = some slice →
        (ofText text).lineBytes? text (i + 1) = some (Text.bytes slice) ∧
        ∃ own : String, (ofText text).lineText? text (i + 1) = some own ∧
          own.toList = withoutReturn slice.toList ∧ '\n' ∉ own.toList := by
  refine ⟨(text.toList.splitOn '\n').map String.ofList, ?_, ?_, fun i slice hslice => ?_⟩
  · rw [List.length_map]
    exact (lineCount_ofChars text.toList).symm
  · -- joining is the inverse of splitting, on lists of characters
    have hparts : ((text.toList.splitOn '\n').map String.ofList).map String.toList
        = text.toList.splitOn '\n' := by
      rw [List.map_map]
      exact (List.map_congr_left fun part _ => String.toList_ofList).trans (List.map_id _)
    rw [← String.toList_inj, String.toList_intercalate, hparts]
    exact List.intercalate_splitOn '\n'
  · rw [List.getElem?_map, Option.map_eq_some_iff] at hslice
    obtain ⟨part, hpart, rfl⟩ := hslice
    -- the part stands between what is before it and what is behind it, where the line is
    obtain ⟨before, after, htext, hstart, hend⟩ := exists_place_ofChars (Nat.succ_pos i) hpart
    have hplace : Text.IsPart text (Text.width before) ((ofText text).lineEnd (i + 1))
        (String.ofList part) :=
      hend.symm ▸ Text.isPart_ofList htext
    refine ⟨?_, String.ofList (withoutReturn part), ?_, ?_, ?_⟩
    · rw [lineBytes?, show (ofText text).lineStart? (i + 1) = _ from hstart]
      exact hplace.byteSlice?_eq
    · refine lineText?_eq_some_iff.mpr ⟨_, _, hstart, hplace, ?_⟩
      rw [String.toList_ofList, String.toList_ofList]
    · rw [String.toList_ofList, String.toList_ofList]
    · rw [String.toList_ofList]
      exact not_mem_withoutReturn (not_mem_of_mem_splitOn (List.mem_of_getElem? hpart))

/-! ### Sums and differences in words -/

/-- The text of a line, of which the end is found with a sum and differences in words. The stretch is
taken out with a check, so it does not matter whether the text is that of the index. -/
def lineTextInWords? (m : Arithmetic) (ix : LineIndex) (text : String) (line : Nat) :
    Option (Option String) :=
  match ix.lineStart? line with
  | none => some none
  | some start => do
    let i ← m.sub? line 1
    let stop ← ix.lineEndInWords? m (← m.add? i 1)
    return (Text.slice? text.toList start stop).map fun cs => String.ofList (withoutReturn cs)

/-- Each line starts at least one byte behind the one before. -/
theorem Ordered.le_of_getElem? (h : ix.Ordered) {i start : Nat} (hs : ix.starts[i]? = some start) :
    i ≤ start := by
  induction i generalizing start with
  | zero => exact Nat.zero_le _
  | succ i ih =>
    have hlt : i < ix.starts.length := Nat.lt_of_succ_lt (List.getElem?_eq_some_iff.mp hs).1
    have hprevious := List.getElem?_eq_getElem hlt
    exact Nat.lt_of_le_of_lt (ih hprevious) (h.getElem?_lt (Nat.lt_succ_self i) hprevious hs)

theorem lineTextInWords?_eq (h : ix.Ordered) (hsize : ix.size + 1 < wordSize) (text : String)
    (line : Nat) : ix.lineTextInWords? m text line = some (ix.lineText? text line) := by
  rw [lineTextInWords?, lineText?_eq_bind]
  cases hs : ix.lineStart? line with
  | none => rfl
  | some start =>
    obtain ⟨hpos, hget⟩ := lineStart?_eq_some hs
    -- there are at most as many lines before this one as bytes
    have hline : line - 1 ≤ ix.size :=
      Nat.le_trans (h.le_of_getElem? hget) (h.le_size start (List.mem_of_getElem? hget))
    have hsum : line - 1 + 1 < wordSize := by omega
    simp only [Arithmetic.sub?_eq (Nat.succ_le_of_lt hpos), Option.bind_eq_bind, Option.bind_some,
      Arithmetic.add?_eq hsum, Nat.sub_add_cancel hpos, lineEndInWords?_eq h hs]
    rfl

/-! ### All of it -/

/-- **Lines partition the text.** A text is put together by newlines from as many parts as its index
has lines. The part of a line are the bytes from its start to its end, and what is read of the line is
the part without a carriage return at its end, with no newline in it; no other line is read. Of any
text, also one that the index is not of, what is read of a line is the part that starts and ends where
the line does, without a carriage return, and nothing if there is no such part. No sum or difference on
the way is refused if the text of the index can be held in memory. -/
theorem lines_partition (text : String) :
    (∃ slices : List String, slices.length = (ofText text).lineCount ∧
      "\n".intercalate slices = text ∧
      ∀ i slice, slices[i]? = some slice →
        (ofText text).lineBytes? text (i + 1) = some (Text.bytes slice) ∧
        ∃ own : String, (ofText text).lineText? text (i + 1) = some own ∧
          own.toList = withoutReturn slice.toList ∧ '\n' ∉ own.toList) ∧
    (∀ other line, line = 0 ∨ (ofText text).lineCount < line →
      (ofText text).lineText? other line = none) ∧
    (∀ other line own, (ofText text).lineText? other line = some own ↔
      ∃ start slice, (ofText text).lineStart? line = some start ∧
        Text.IsPart other start ((ofText text).lineEnd line) slice ∧
        own.toList = withoutReturn slice.toList) ∧
    (Text.IsStorable text → ∀ m, ofCharsInWords? m text.toList = some (ofText text) ∧
      ∀ other line,
        (ofText text).lineTextInWords? m other line = some ((ofText text).lineText? other line)) := by
  refine ⟨exists_slices_ofText text, fun other line hline => ?_, fun other line own =>
    lineText?_eq_some_iff, fun htext m => ?_⟩
  · rw [lineText?_eq_bind, (lineStart?_eq_none_iff line).mpr hline]
    rfl
  · have hsize : (ofText text).size + 1 < wordSize := by
      have hlength : 2 * (ofText text).size < wordSize := htext
      have hword : 1 < wordSize := by decide
      omega
    exact ⟨ofCharsInWords?_eq (Nat.lt_of_succ_lt hsize),
      lineTextInWords?_eq (ordered_ofText text) hsize⟩

/-- A line that ends with a carriage return, an empty one, and one without a newline. Another text has
the first one as a part, but the third one would start inside a character of it. -/
theorem lines_partition_other :
    Text.IsStorable "é\r\n\nx" ∧
      (∃ slice, (ofText "é\r\n\nx").lineBytes? "é\r\n\nx" 2 = some (Text.bytes slice)) ∧
      (ofText "é\r\n\nx").lineText? "é\r\n\nx" 1 = some "é" ∧
      (ofText "é\r\n\nx").lineText? "é\r\n\nx" 4 = none ∧
      (ofText "é\r\n\nx").lineText? "ab\rcé" 1 = some "ab" ∧
      (ofText "é\r\n\nx").lineTextInWords? .checked "ab\rcé" 3 = some none := by
  have htext : Text.IsStorable "é\r\n\nx" := by decide
  obtain ⟨⟨slices, hlength, -, hlines⟩, hnone, hread, hwords⟩ := lines_partition "é\r\n\nx"
  have hcount : slices.length = 3 := hlength.trans (by decide)
  refine ⟨htext, ⟨_, (hlines 1 slices[1] (List.getElem?_eq_getElem _)).1⟩, ?_, ?_, ?_, ?_⟩
  · exact (hread _ _ _).mpr ⟨0, "é\r", by decide, ⟨"", "\n\nx", by decide⟩, by decide⟩
  · exact hnone _ _ (.inr (by decide))
  · exact (hread _ _ _).mpr ⟨0, "ab\r", by decide, ⟨"", "cé", by decide⟩, by decide⟩
  · rw [(hwords htext .checked).2]
    decide

end LineIndex

end EditorInsight
