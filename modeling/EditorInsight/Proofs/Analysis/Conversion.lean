import EditorInsight.Analysis.Conversion
import EditorInsight.Proofs.Analysis.Columns
import EditorInsight.Proofs.Painting.Words
import EditorInsight.Proofs.Serial.Engine

/-!
# When the columns of the helper stay in words

A caret becomes no further by counting characters instead of bytes, so a request is never too large
for words. The other direction makes a column larger: by as much as the line is longer in bytes than
in characters. So a column that the helper reports past the end of its line, and closer than that to
the largest word, has no column in bytes.

* `charColumn_le`: the character column is not past the byte column.
* `EngineLocation.ColumnFits` says of a reported place that its column in bytes is a word.
* `toByteColumnsInWords?_eq`: if all columns fit, they are converted as without words;
  `toByteColumnsInWords?_eq_none` and `wrapping_toByteColumnsInWords?` say what happens otherwise.
* `columns_in_words_iff` is the exact condition, and `farColumn_not_converted` a place that does not
  meet it.
-/

namespace EditorInsight

open Json (wordSize)

/-! ### Widths and counts -/

theorem length_le_width (cs : List Char) : cs.length ≤ Text.width cs := by
  induction cs with
  | nil => exact Nat.le_refl 0
  | cons c cs ih =>
    have hc := c.utf8Size_pos
    rw [List.length_cons, Text.width_cons]
    omega

/-- What is left of a text after characters were dropped is not wider than the text. -/
theorem width_le_of_sublist {cs ds : List Char} (h : cs.Sublist ds) :
    Text.width cs ≤ Text.width ds := by
  induction h with
  | slnil => exact Nat.le_refl 0
  | cons c _ ih => exact Nat.le_trans ih (Nat.le_add_left _ _)
  | cons_cons c _ ih => exact Nat.add_le_add_left ih _

theorem charsBefore_le_length (cs : List Char) (column : Nat) :
    charsBefore cs column ≤ cs.length := by
  induction cs generalizing column with
  | nil => exact Nat.le_refl 0
  | cons c cs ih =>
    cases column with
    | zero => exact Nat.zero_le _
    | succ column =>
      have hrest := ih (column + 1 - c.utf8Size)
      rw [charsBefore, List.length_cons]
      omega

/-- Each character that begins before a column takes up at least one byte of it. -/
theorem charsBefore_le (cs : List Char) (column : Nat) : charsBefore cs column ≤ column := by
  induction cs generalizing column with
  | nil => exact Nat.zero_le _
  | cons c cs ih =>
    cases column with
    | zero => exact Nat.le_refl 0
    | succ column =>
      have hc := c.utf8Size_pos
      have hrest := ih (column + 1 - c.utf8Size)
      rw [charsBefore]
      omega

/-- **A caret becomes no further** by counting characters. -/
theorem charColumn_le (line : List Char) (column : Nat) : charColumn line column ≤ column := by
  have hbefore := charsBefore_le line column
  have hlength := charsBefore_le_length line column
  have hwidth := length_le_width line
  unfold charColumn
  omega

/-! ### Columns -/

section Columns

variable {m : Arithmetic} {line : List Char} {column : Nat}

theorem charColumnInWords?_eq (h : column < wordSize) :
    charColumnInWords? m line column = some (charColumn line column) :=
  Arithmetic.add?_eq (Nat.lt_of_le_of_lt (charColumn_le line column) h)

theorem byteColumn_of_lt (h : column < line.length) :
    byteColumn line column = Text.width (line.take column) := by
  rw [byteColumn, Nat.sub_eq_zero_of_le (Nat.le_of_lt h), Nat.add_zero]

theorem byteColumn_of_le (h : line.length ≤ column) :
    byteColumn line column = Text.width line + (column - line.length) := by
  rw [byteColumn, List.take_of_length_le h]

theorem byteColumnInWords?_eq (h : Text.width line + (column - line.length) < wordSize) :
    byteColumnInWords? m line column = some (byteColumn line column) := by
  unfold byteColumnInWords?
  split
  · next hlt => rw [byteColumn_of_lt hlt]
  · next hge => rw [byteColumn_of_le (Nat.le_of_not_lt hge), Arithmetic.add?_eq h]

/-- Of a sum that is too large, the column is past the end of a line that can be held in memory. -/
theorem length_le_of_wordSize_le (hline : Text.width line < wordSize)
    (h : wordSize ≤ Text.width line + (column - line.length)) : line.length ≤ column := by
  omega

theorem byteColumnInWords?_eq_none (hline : Text.width line < wordSize)
    (h : wordSize ≤ Text.width line + (column - line.length)) :
    byteColumnInWords? .checked line column = none := by
  have hle := length_le_of_wordSize_le hline h
  rw [byteColumnInWords?, if_neg (Nat.not_lt.mpr hle), Arithmetic.checked_add?_eq_none h]

/-- Without checks, the column is what is left of the sum in a word. -/
theorem wrapping_byteColumnInWords? (hline : Text.width line < wordSize) (h : column < wordSize) :
    byteColumnInWords? .wrapping line column = some (byteColumn line column % wordSize) := by
  rcases Nat.lt_or_ge (Text.width line + (column - line.length)) wordSize with hfits | hlarge
  · -- no part of a word is cut off
    have hle : byteColumn line column < wordSize := by
      rcases Nat.lt_or_ge column line.length with hlt | hge
      · rw [byteColumn_of_lt hlt]
        have hwidth := width_le_of_sublist (List.take_sublist column line)
        omega
      · rw [byteColumn_of_le hge]
        exact hfits
    rw [byteColumnInWords?_eq hfits, Nat.mod_eq_of_lt hle]
  · have hle := length_le_of_wordSize_le hline hlarge
    have hsmall : Text.width line + (column - line.length) - wordSize < wordSize := by omega
    rw [byteColumnInWords?, if_neg (Nat.not_lt.mpr hle), Arithmetic.wrapping_add?_eq hlarge,
      byteColumn_of_le hle, Nat.mod_eq_sub_mod hlarge, Nat.mod_eq_of_lt hsmall]

end Columns

/-! ### Lines -/

/-- One item that stops the program, and there is no list. -/
theorem mapM_eq_none {α β : Type} {f : α → Option β} {xs : List α} {x : α} (hx : x ∈ xs)
    (h : f x = none) : xs.mapM f = none := by
  induction xs with
  | nil => cases hx
  | cons y ys ih =>
    rw [List.mapM_cons]
    rcases List.mem_cons.mp hx with rfl | hx
    · rw [h]
      rfl
    · rw [ih hx]
      cases f y <;> rfl

theorem LineIndex.lineCharsInWords?_eq {m : Arithmetic} {ix : LineIndex} (h : ix.Ordered)
    (text : List Char) (line : Nat) :
    ix.lineCharsInWords? m text line = some (ix.lineChars? text line) := by
  unfold lineCharsInWords? lineChars?
  cases hs : ix.lineStart? line with
  | none => rfl
  | some start =>
    simp only [lineEndInWords?_eq h hs, Option.bind_eq_bind, Option.bind_some]
    cases Text.slice? text start (ix.lineEnd line) <;> rfl

/-- The characters of a line are some of the text. -/
theorem LineIndex.sublist_of_lineChars? {ix : LineIndex} {text chars : List Char} {line : Nat}
    (h : ix.lineChars? text line = some chars) : chars.Sublist text := by
  obtain ⟨start, -, h⟩ := Option.bind_eq_some_iff.mp h
  obtain ⟨cs, hslice, hchars⟩ := Option.bind_eq_some_iff.mp h
  have hpart : cs.Sublist text := by
    obtain ⟨before, after, rfl, -, -⟩ := Text.slice?_eq_some_iff.mp hslice
    exact (List.sublist_append_right before cs).trans (List.sublist_append_left _ after)
  rw [← Option.some.inj hchars]
  split
  · exact (List.dropLast_sublist cs).trans hpart
  · exact hpart

theorem Text.trimEndChars_sublist (drop : Char → Bool) (cs : List Char) :
    (Text.trimEndChars drop cs).Sublist cs := by
  have h := (List.dropWhile_sublist (l := cs.reverse) drop).reverse
  rwa [List.reverse_reverse] at h

namespace Analysis

variable {m : Arithmetic} {q : Query} {l : EngineLocation} {ls : List EngineLocation}

/-! ### Requests -/

theorem ofCharsInWords?_source (hq : Text.IsStorable q.source) :
    LineIndex.ofCharsInWords? m q.source.toList = some (.ofText q.source) := by
  have hlength : 2 * Text.width q.source.toList < wordSize := hq
  exact LineIndex.ofCharsInWords?_eq (by omega)

/-- **A request is never too large.** -/
theorem HelperRequest.ofInWords?_eq (hq : Text.IsStorable q.source)
    (hcaret : q.position.column < wordSize) (op : HelperOp) :
    HelperRequest.ofInWords? m op q = some (.of op q) := by
  have hline := LineIndex.lineCharsInWords?_eq (m := m) (LineIndex.ordered_ofText q.source)
    q.source.toList q.position.line
  unfold HelperRequest.ofInWords? HelperRequest.of
  simp only [ofCharsInWords?_source hq, hline, Option.bind_eq_bind, Option.bind_some]
  rw [LineIndex.ofText]
  cases (LineIndex.ofChars q.source.toList).lineChars? q.source.toList q.position.line with
  | none => rfl
  | some text =>
    dsimp only
    rw [charColumnInWords?_eq hcaret]
    rfl

theorem HelperRequest.column_le (op : HelperOp) (q : Query) :
    (HelperRequest.of op q).column ≤ q.position.column := by
  unfold HelperRequest.of
  dsimp only
  split
  · exact charColumn_le _ _
  · exact Nat.le_refl _

/-! ### Reported places -/

/-- Whether an answer of the helper can carry the place: its numbers are words, and its text can be
held in memory. -/
structure EngineLocation.IsCarried (l : EngineLocation) : Prop where
  fits : l.Fits
  code : ∀ code, l.code = some code → Text.IsStorable code

/-- Whether the column of the place in bytes is a word. Past the end of its line it is a sum. -/
def EngineLocation.ColumnFits (q : Query) (l : EngineLocation) : Prop :=
  ∀ text, lineOf? q l = some text → Text.width text + (l.column - text.length) < wordSize

/-- The place with what is left of its column in a word. -/
def EngineLocation.wrapped (l : EngineLocation) : EngineLocation :=
  { l with column := l.column % wordSize }

theorem lineOfInWords?_eq (l : EngineLocation) :
    lineOfInWords? m q (.ofText q.source) l = some (lineOf? q l) := by
  unfold lineOfInWords? lineOf?
  cases l.code with
  | some code => rfl
  | none =>
    cases l.line with
    | none => rfl
    | some line =>
      cases l.modulePath with
      | none => rfl
      | some path =>
        dsimp only
        split
        · exact LineIndex.lineCharsInWords?_eq (LineIndex.ordered_ofText q.source) _ _
        · rfl

/-- The line of a place is a part of a text that can be held in memory. -/
theorem width_lt_of_lineOf? (hq : Text.IsStorable q.source) (hl : l.IsCarried) {text : List Char}
    (h : lineOf? q l = some text) : Text.width text < wordSize := by
  -- the text of a line is a part of the code that came with the place, or of the buffer
  obtain ⟨whole, hstorable, hsub⟩ : ∃ whole, Text.IsStorable whole ∧ text.Sublist whole.toList := by
    unfold lineOf? at h
    cases hcode : l.code with
    | some code =>
      rw [hcode] at h
      obtain rfl := Option.some.inj h
      exact ⟨code, hl.code code hcode, Text.trimEndChars_sublist _ _⟩
    | none =>
      rw [hcode] at h
      dsimp only at h
      split at h
      · split at h
        · exact ⟨q.source, hq, LineIndex.sublist_of_lineChars? h⟩
        · cases h
      · cases h
  have hlength : 2 * Text.width whole.toList < wordSize := hstorable
  have hwidth := width_le_of_sublist hsub
  omega

theorem EngineLocation.toByteColumnInWords?_eq (h : l.ColumnFits q) :
    l.toByteColumnInWords? m q (.ofText q.source) = some (l.toByteColumn q) := by
  unfold toByteColumnInWords? toByteColumn
  simp only [lineOfInWords?_eq, Option.bind_eq_bind, Option.bind_some]
  cases hline : lineOf? q l with
  | none => rfl
  | some text =>
    dsimp only
    rw [byteColumnInWords?_eq (h text hline)]
    rfl

section Places

variable (hq : Text.IsStorable q.source)

include hq

theorem toByteColumnsInWords?_eq_mapM :
    toByteColumnsInWords? m q ls = ls.mapM (·.toByteColumnInWords? m q (.ofText q.source)) := by
  rw [toByteColumnsInWords?, ofCharsInWords?_source hq]
  rfl

/-- The line of a place whose column does not fit. -/
theorem EngineLocation.exists_of_not_columnFits (hl : l.IsCarried) (h : ¬ l.ColumnFits q) :
    ∃ text, lineOf? q l = some text ∧ Text.width text < wordSize ∧
      wordSize ≤ Text.width text + (l.column - text.length) := by
  simp only [ColumnFits, Classical.not_forall, Nat.not_lt] at h
  obtain ⟨text, hline, hlarge⟩ := h
  exact ⟨text, hline, width_lt_of_lineOf? hq hl hline, hlarge⟩

theorem EngineLocation.toByteColumnInWords?_eq_none (hl : l.IsCarried) (h : ¬ l.ColumnFits q) :
    l.toByteColumnInWords? .checked q (.ofText q.source) = none := by
  obtain ⟨text, hline, hwidth, hlarge⟩ := exists_of_not_columnFits hq hl h
  unfold toByteColumnInWords?
  simp only [lineOfInWords?_eq, hline, Option.bind_eq_bind, Option.bind_some]
  rw [byteColumnInWords?_eq_none hwidth hlarge]
  rfl

theorem EngineLocation.wrapping_toByteColumnInWords? (hl : l.IsCarried) :
    l.toByteColumnInWords? .wrapping q (.ofText q.source) = some (l.toByteColumn q).wrapped := by
  unfold toByteColumnInWords? toByteColumn wrapped
  simp only [lineOfInWords?_eq, Option.bind_eq_bind, Option.bind_some]
  cases hline : lineOf? q l with
  | none =>
    dsimp only
    rw [Nat.mod_eq_of_lt hl.fits.column]
    rfl
  | some text =>
    dsimp only
    rw [wrapping_byteColumnInWords? (width_lt_of_lineOf? hq hl hline) hl.fits.column]
    rfl

/-- If all columns fit, they are converted as without words. -/
theorem toByteColumnsInWords?_eq (h : ∀ l ∈ ls, l.ColumnFits q) :
    toByteColumnsInWords? m q ls = some (toByteColumns q ls) := by
  rw [toByteColumnsInWords?_eq_mapM hq]
  exact mapM_eq_some_map fun l hl => l.toByteColumnInWords?_eq (h l hl)

/-- One column that does not fit, and a program with checks stops. -/
theorem toByteColumnsInWords?_eq_none (hl : l ∈ ls) (hcarried : l.IsCarried)
    (h : ¬ l.ColumnFits q) : toByteColumnsInWords? .checked q ls = none := by
  rw [toByteColumnsInWords?_eq_mapM hq]
  exact mapM_eq_none hl (EngineLocation.toByteColumnInWords?_eq_none hq hcarried h)

/-- A program without checks goes on with what is left of each column. -/
theorem wrapping_toByteColumnsInWords? (h : ∀ l ∈ ls, l.IsCarried) :
    toByteColumnsInWords? .wrapping q ls
      = some ((toByteColumns q ls).map EngineLocation.wrapped) := by
  rw [toByteColumnsInWords?_eq_mapM hq, toByteColumns, List.map_map]
  exact mapM_eq_some_map fun l hl => EngineLocation.wrapping_toByteColumnInWords? hq (h l hl)

/-- What is left of a column that does not fit lies in the line, although the column is past its
end. -/
theorem EngineLocation.wrapped_column_lt (hl : l.IsCarried) (h : ¬ l.ColumnFits q) :
    ∃ text, lineOf? q l = some text ∧ text.length ≤ l.column ∧
      (l.toByteColumn q).wrapped.column < Text.width text := by
  obtain ⟨text, hline, hwidth, hlarge⟩ := exists_of_not_columnFits hq hl h
  have hle := length_le_of_wordSize_le hwidth hlarge
  have hcolumn := hl.fits.column
  have hsmall : Text.width text + (l.column - text.length) - wordSize < Text.width text := by omega
  refine ⟨text, hline, hle, ?_⟩
  rw [toByteColumn, hline]
  change byteColumn text l.column % wordSize < Text.width text
  rw [byteColumn_of_le hle, Nat.mod_eq_sub_mod hlarge,
    Nat.mod_eq_of_lt (Nat.lt_trans hsmall hwidth)]
  exact hsmall

end Places

/-- **Converting columns in words.** A request is that of the program without words, and its column
is not past the caret. Of an answer, a program with checks converts the columns if and only if all of
them fit, and then every program converts them as without words. A program without checks is left
with a column inside the line for each place that is past the end of its line and does not fit. -/
theorem columns_in_words_iff (q : Query) (hq : Text.IsStorable q.source)
    (hcaret : q.position.column < wordSize) :
    (∀ m op, HelperRequest.ofInWords? m op q = some (.of op q) ∧
      (HelperRequest.of op q).column ≤ q.position.column) ∧
    ∀ ls : List EngineLocation, (∀ l ∈ ls, l.IsCarried) →
      ((∃ ls', toByteColumnsInWords? .checked q ls = some ls') ↔ ∀ l ∈ ls, l.ColumnFits q) ∧
      ((∀ l ∈ ls, l.ColumnFits q) →
        ∀ m, toByteColumnsInWords? m q ls = some (toByteColumns q ls)) ∧
      toByteColumnsInWords? .wrapping q ls
        = some ((toByteColumns q ls).map EngineLocation.wrapped) ∧
      ∀ l ∈ ls, ¬ l.ColumnFits q → ∃ text, lineOf? q l = some text ∧ text.length ≤ l.column ∧
        (l.toByteColumn q).wrapped.column < Text.width text := by
  refine ⟨fun m op => ⟨HelperRequest.ofInWords?_eq hq hcaret op, HelperRequest.column_le op q⟩, ?_⟩
  intro ls hls
  refine ⟨⟨?_, fun hfits => ⟨_, toByteColumnsInWords?_eq hq hfits⟩⟩,
    fun hfits m => toByteColumnsInWords?_eq hq hfits, wrapping_toByteColumnsInWords? hq hls,
    fun l hl => EngineLocation.wrapped_column_lt hq (hls l hl)⟩
  rintro ⟨ls', hls'⟩ l hl
  -- one column that does not fit stops a build with checks
  refine Classical.byContradiction fun hnot => ?_
  rw [toByteColumnsInWords?_eq_none hq hl (hls l hl) hnot] at hls'
  cases hls'

/-- A place on a line with a character of two bytes, reported with the text of the line. -/
def reportedAt (column : Nat) : EngineLocation := ⟨none, none, column, some "é = 1\n"⟩

theorem isCarried_reportedAt {column : Nat} (h : column < wordSize) :
    (reportedAt column).IsCarried where
  fits := { line := nofun, column := h }
  code := by
    rintro code hcode
    obtain rfl := Option.some.inj hcode
    decide +kernel

/-- Past the end of the line, and as far as can be converted. -/
theorem columns_in_words_iff_far :
    (Text.IsStorable accented.source ∧ accented.position.column < wordSize) ∧
    (∀ l ∈ [reportedAt 9, reportedAt (wordSize - 2)], l.IsCarried ∧ l.ColumnFits accented) ∧
    toByteColumnsInWords? .checked accented [reportedAt 9, reportedAt (wordSize - 2)]
      = some [reportedAt 10, reportedAt (wordSize - 1)] := by
  have hsource : Text.IsStorable accented.source := by decide +kernel
  have hcaret : accented.position.column < wordSize := by decide
  have hnear : (reportedAt 9).ColumnFits accented := by
    rintro text hline
    obtain rfl := Option.some.inj hline
    decide +kernel
  have hfar : (reportedAt (wordSize - 2)).ColumnFits accented := by
    rintro text hline
    obtain rfl := Option.some.inj hline
    decide +kernel
  have hls : ∀ l ∈ [reportedAt 9, reportedAt (wordSize - 2)],
      l.IsCarried ∧ l.ColumnFits accented :=
    List.forall_mem_cons.mpr ⟨⟨isCarried_reportedAt (by decide), hnear⟩,
      List.forall_mem_singleton.mpr ⟨isCarried_reportedAt (by decide), hfar⟩⟩
  obtain ⟨-, hplaces⟩ := columns_in_words_iff accented hsource hcaret
  obtain ⟨-, hconverted, -⟩ := hplaces _ fun l hl => (hls l hl).1
  refine ⟨⟨hsource, hcaret⟩, hls, (hconverted (fun l hl => (hls l hl).2) .checked).trans ?_⟩
  decide +kernel

/-- The largest word as a column, past the end of a line with a character of two bytes, is what a
helper may report. With checks it is not converted, and without them it becomes the start of the
line. -/
theorem farColumn_not_converted :
    EngineLocation.ofJson? (reportedAt (wordSize - 1)).toJson = some (reportedAt (wordSize - 1)) ∧
    (reportedAt (wordSize - 1)).IsCarried ∧ Text.IsStorable accented.source ∧
    toByteColumnsInWords? .checked accented [reportedAt (wordSize - 1)] = none ∧
    toByteColumnsInWords? .wrapping accented [reportedAt (wordSize - 1)] = some [reportedAt 0] := by
  have hcarried : (reportedAt (wordSize - 1)).IsCarried := isCarried_reportedAt (by decide)
  refine ⟨?_, hcarried, ?_, ?_, ?_⟩
  · exact EngineLocation.codec.ofJson?_of_writes hcarried.fits
      (EngineLocation.codec.writes_toJson _)
  · decide +kernel
  · decide +kernel
  · decide +kernel

end Analysis

end EditorInsight
