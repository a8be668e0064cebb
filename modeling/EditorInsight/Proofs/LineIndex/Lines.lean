import EditorInsight.Proofs.Character
import EditorInsight.Proofs.LineIndex

/-!
# Lines as parts of a text

The lines of a text are its parts between the newline characters, without a carriage return at their
end.

* `exists_line` finds a part in the text, and its start and its end in the index;
  `LineIndex.exists_place_ofChars` says the same of the lines of the index, and
  `LineIndex.exists_part_ofChars` that each of them is a part.
* `LineIndex.lineChars?_ofChars`: the line that the index takes out of its text is the part.
* `LineIndex.exists_lineChars_ofChars`: where the text of a line stands in the whole text.
-/

namespace EditorInsight

/-- A line without a carriage return at its end. -/
def withoutReturn (part : List Char) : List Char :=
  if part.getLast? = some '\r' then part.dropLast else part

/-- What a line has besides is at most one carriage return. -/
theorem exists_withoutReturn_append (part : List Char) :
    ∃ rest, part = withoutReturn part ++ rest ∧ (rest = [] ∨ rest = ['\r']) := by
  unfold withoutReturn
  split
  · next hlast =>
    obtain ⟨front, rfl⟩ := List.getLast?_eq_some_iff.mp hlast
    exact ⟨['\r'], by rw [List.dropLast_concat], .inr rfl⟩
  · exact ⟨[], (List.append_nil part).symm, .inl rfl⟩

theorem width_eq_zero {cs : List Char} (h : Text.width cs = 0) : cs = [] := by
  cases cs with
  | nil => rfl
  | cons c cs =>
    have hc := c.utf8Size_pos
    rw [Text.width_cons] at h
    omega

/-- Each part between newlines stands somewhere in the text. If the text begins at the given offset,
that is where the line of the index starts and ends. -/
theorem exists_line (k : Nat) {cs : List Char} {i : Nat} {part : List Char}
    (h : (cs.splitOn '\n')[i]? = some part) :
    ∃ before after, cs = before ++ part ++ after ∧
      (k :: offsetsBehindNewlines k cs)[i]? = some (k + Text.width before) ∧
      ((k :: offsetsBehindNewlines k cs)[i + 1]?.map (· - 1)).getD (k + Text.width cs)
        = k + Text.width before + Text.width part := by
  -- on the text, whose offset moves on with each character that is taken off
  induction cs generalizing k i part with
  | nil =>
    rw [List.splitOn_nil] at h
    obtain ⟨rfl, rfl⟩ : i = 0 ∧ part = [] := by
      cases i with
      | zero => exact ⟨rfl, (Option.some.inj h).symm⟩
      | succ i => cases h
    exact ⟨[], [], rfl, rfl, rfl⟩
  | cons c cs ih =>
    rw [List.splitOn_cons_eq_if_modifyHead] at h
    rw [offsetsBehindNewlines]
    by_cases hc : c = '\n'
    · -- the first part is empty, and the others are those of the rest
      subst hc
      rw [if_pos (beq_self_eq_true '\n')] at h
      rw [if_pos rfl]
      cases i with
      | zero =>
        obtain rfl := Option.some.inj h
        exact ⟨[], '\n' :: cs, rfl, rfl, rfl⟩
      | succ i =>
        obtain ⟨before, after, rfl, hstart, hend⟩ := ih (k + '\n'.utf8Size) h
        refine ⟨'\n' :: before, after, rfl, ?_, ?_⟩
        · rw [Text.width_cons, ← Nat.add_assoc]
          exact hstart
        · rw [Text.width_cons, Text.width_cons, ← Nat.add_assoc, ← Nat.add_assoc]
          exact hend
    · -- the first part is one character longer than that of the rest
      rw [if_neg (by simpa using hc)] at h
      rw [if_neg hc]
      obtain ⟨first, parts, hparts⟩ := List.exists_cons_of_ne_nil (List.splitOn_ne_nil '\n' cs)
      rw [hparts, List.modifyHead_cons] at h
      cases i with
      | zero =>
        obtain rfl := Option.some.inj h
        have hfirst : (cs.splitOn '\n')[0]? = some first := by rw [hparts]; rfl
        obtain ⟨before, after, rfl, hstart, hend⟩ := ih (k + c.utf8Size) hfirst
        have hzero : k + c.utf8Size = k + c.utf8Size + Text.width before := Option.some.inj hstart
        obtain rfl : before = [] := width_eq_zero (by omega)
        refine ⟨[], after, rfl, rfl, ?_⟩
        rw [Text.width_cons, Text.width_nil, Nat.add_zero, Text.width_cons, ← Nat.add_assoc,
          ← Nat.add_assoc]
        exact hend
      | succ i =>
        have hpart : (cs.splitOn '\n')[i + 1]? = some part := by rw [hparts]; exact h
        obtain ⟨before, after, rfl, hstart, hend⟩ := ih (k + c.utf8Size) hpart
        refine ⟨c :: before, after, rfl, ?_, ?_⟩
        · rw [Text.width_cons, ← Nat.add_assoc]
          exact hstart
        · rw [Text.width_cons, Text.width_cons, ← Nat.add_assoc, ← Nat.add_assoc]
          exact hend

namespace LineIndex

variable {cs part : List Char} {line start : Nat}

/-- Where the part of a line stands in the text, and where the line starts and ends. -/
theorem exists_place_ofChars (hpos : 0 < line) (h : (cs.splitOn '\n')[line - 1]? = some part) :
    ∃ before after, cs = before ++ part ++ after ∧
      (ofChars cs).lineStart? line = some (Text.width before) ∧
      (ofChars cs).lineEnd line = Text.width before + Text.width part := by
  obtain ⟨before, after, hcs, hstart, hend⟩ := exists_line 0 h
  rw [Nat.zero_add] at hstart
  rw [Nat.sub_add_cancel hpos, Nat.zero_add, Nat.zero_add] at hend
  refine ⟨before, after, hcs, ?_, ?_⟩
  · rw [lineStart?, if_neg (by omega)]
    exact hstart
  · have hnext : (ofChars cs).lineEnd line
        = ((ofChars cs).starts[line]?.map (· - 1)).getD (Text.width cs) := by
      unfold lineEnd
      cases (ofChars cs).starts[line]? <;> rfl
    rw [hnext, ← hend]
    rfl

/-- There are as many lines as parts. -/
theorem lineCount_ofChars (cs : List Char) :
    (ofChars cs).lineCount = (cs.splitOn '\n').length := by
  rw [lineCount, ofChars, List.length_cons, length_offsetsBehindNewlines, length_splitOn, Nat.add_comm]

/-- Every line of the index is a part. -/
theorem exists_part_ofChars (h : (ofChars cs).lineStart? line = some start) :
    0 < line ∧ ∃ part, (cs.splitOn '\n')[line - 1]? = some part := by
  rw [lineStart?] at h
  split at h
  · cases h
  · next hline =>
    have hlt : line - 1 < (ofChars cs).lineCount := (List.getElem?_eq_some_iff.mp h).1
    rw [lineCount_ofChars] at hlt
    exact ⟨Nat.pos_of_ne_zero hline, _, List.getElem?_eq_getElem hlt⟩

/-- **Lines are the parts between newlines**, with lines counted from one. -/
theorem lineChars?_ofChars (hpos : 0 < line) (h : (cs.splitOn '\n')[line - 1]? = some part) :
    (ofChars cs).lineChars? cs line = some (withoutReturn part) := by
  obtain ⟨before, after, hcs, hlineStart, hlineEnd⟩ := exists_place_ofChars hpos h
  have hslice : Text.slice? cs (Text.width before) (Text.width before + Text.width part)
      = some part :=
    Text.slice?_eq_some_iff.mpr ⟨before, after, hcs, rfl, rfl⟩
  rw [lineChars?, hlineStart]
  change (Text.slice? cs _ ((ofChars cs).lineEnd line)).bind _ = _
  rw [hlineEnd, hslice]
  rfl

/-- The text of a line stands in the whole text, and what comes behind it up to the end of the line is
at most a carriage return. -/
theorem exists_lineChars_ofChars (h : (ofChars cs).lineStart? line = some start) :
    ∃ before chars rest after, cs = before ++ (chars ++ rest) ++ after ∧
      (rest = [] ∨ rest = ['\r']) ∧ (ofChars cs).lineChars? cs line = some chars ∧
      start = Text.width before ∧
      (ofChars cs).lineEnd line = start + Text.width chars + Text.width rest := by
  obtain ⟨hpos, part, hpart⟩ := exists_part_ofChars h
  obtain ⟨before, after, hcs, hbefore, hend⟩ := exists_place_ofChars hpos hpart
  obtain rfl := Option.some.inj (h.symm.trans hbefore)
  obtain ⟨rest, hrest, hreturn⟩ := exists_withoutReturn_append part
  refine ⟨before, withoutReturn part, rest, after, ?_, hreturn, lineChars?_ofChars hpos hpart, rfl, ?_⟩
  · rw [← hrest]
    exact hcs
  · calc (ofChars cs).lineEnd line
      _ = Text.width before + Text.width part := hend
      _ = Text.width before + (Text.width (withoutReturn part) + Text.width rest) := by
        rw [← Text.width_append (withoutReturn part) rest, ← hrest]
      _ = Text.width before + Text.width (withoutReturn part) + Text.width rest :=
        (Nat.add_assoc _ _ _).symm

/-- The same of a text that is a string. -/
theorem exists_lineText_ofText {text : String}
    (h : (ofText text).lineStart? line = some start) :
    ∃ before own rest after, text.toList = before ++ (own.toList ++ rest) ++ after ∧
      (rest = [] ∨ rest = ['\r']) ∧ (ofText text).lineText? text line = some own ∧
      start = Text.width before ∧
      (ofText text).lineEnd line = start + Text.byteLength own + Text.width rest := by
  obtain ⟨before, chars, rest, after, hcs, hreturn, hchars, hstart, hend⟩ :=
    exists_lineChars_ofChars h
  refine ⟨before, String.ofList chars, rest, after, ?_, hreturn,
    congrArg (Option.map String.ofList) hchars, hstart, ?_⟩
  · rw [String.toList_ofList]
    exact hcs
  · rw [Text.byteLength, String.toList_ofList]
    exact hend

end LineIndex

end EditorInsight
