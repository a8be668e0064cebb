import EditorInsight.Analysis.Helper
import EditorInsight.Proofs.Column
import EditorInsight.Proofs.LineIndex.Lines

/-!
# Columns of the helper

The helper counts columns in characters. The column of a place that it reports is turned into a byte
column, and when the caret is put there and another question is asked, back into the column that was
reported.

* `Reports` says how a place on a line of the buffer may be reported: with the text of the line or
  without.
* `toByteColumns_there_and_back` is the round trip.
-/

namespace EditorInsight.Analysis

/-- The characters that end a line. -/
def isTerminator (c : Char) : Bool := c == '\r' || c == '\n'

theorem utf8Size_of_isTerminator {c : Char} (h : isTerminator c = true) : c.utf8Size = 1 := by
  have hc : c = '\r' ∨ c = '\n' := by simpa [isTerminator] using h
  rcases hc with rfl | rfl <;> rfl

/-- A carriage return at the end of a line does not count. -/
theorem byteColumn_withoutReturn (part : List Char) (column : Nat) :
    byteColumn (withoutReturn part) column = byteColumn part column := by
  unfold withoutReturn
  split
  · next hlast =>
    obtain ⟨front, hfront⟩ := List.getLast?_eq_some_iff.mp hlast
    have hnarrow : Narrow ['\r'] := List.forall_mem_singleton.mpr rfl
    rw [hfront, List.dropLast_concat, byteColumn_append front hnarrow]
  · rfl

/-- A report of a place on a line of the buffer, of which `part` is the text up to the newline. The
text of the line, with whatever ends it, may be reported too. -/
structure Reports (q : Query) (line : Nat) (part : List Char) (column : Nat) (l : EngineLocation) :
    Prop where
  file : ∃ path, l.modulePath = some path ∧ path.same q.path = true
  line : l.line = some line
  column : l.column = column
  code : l.code = none ∨
    ∃ stop, (∀ c ∈ stop, isTerminator c = true) ∧ l.code = some (String.ofList (part ++ stop))

section Lines

variable {q : Query} {line : Nat} {part : List Char} (hpos : 0 < line)
  (hpart : (q.source.toList.splitOn '\n')[line - 1]? = some part)

include hpos hpart

/-- Both texts of a line give the same byte column. -/
theorem Reports.toByteColumn {column : Nat} {l : EngineLocation} (h : Reports q line part column l) :
    l.toByteColumn q = { l with column := byteColumn (withoutReturn part) column } := by
  obtain ⟨⟨path, hpath, hsame⟩, hline, hcolumn, hcode⟩ := h
  rcases hcode with hnone | ⟨stop, hstop, hsome⟩
  · have htext : lineOf? q l = some (withoutReturn part) := by
      rw [lineOf?, hnone, hline, hpath]
      simp only [hsame, if_true]
      exact LineIndex.lineChars?_ofChars hpos hpart
    rw [EngineLocation.toByteColumn, htext, hcolumn]
  · have htext : lineOf? q l = some (Text.trimEndChars isTerminator (part ++ stop)) := by
      rw [lineOf?, hsome]
      dsimp only
      rw [String.toList_ofList]
      rfl
    -- terminators take one byte each, so it does not matter how many of them are cut off
    have hnarrow : Narrow stop := fun c hc => utf8Size_of_isTerminator (hstop c hc)
    rw [EngineLocation.toByteColumn, htext, hcolumn]
    dsimp only
    rw [byteColumn_trimEndChars fun c => utf8Size_of_isTerminator, byteColumn_append part hnarrow,
      byteColumn_withoutReturn]

/-- A question at a byte column asks for the character column. -/
theorem HelperRequest.of_byteColumn (op : HelperOp) (column : Nat) :
    HelperRequest.of op ⟨q.source, q.path, ⟨line, byteColumn (withoutReturn part) column⟩⟩
      = ⟨op, q.source, q.path, line, column⟩ := by
  simp only [HelperRequest.of, LineIndex.lineChars?_ofChars hpos hpart, charColumn_byteColumn]

end Lines

/-- **There and back.** Every column of every line of the buffer, also past the end of the line, has
a byte column, which is what the column becomes wherever it is reported, with the text of the line or
without, and which is asked about as that column. A place without the text of its line that is not
in the buffer's file keeps its column. -/
theorem toByteColumns_there_and_back (q : Query) :
    (∀ (line : Nat) (part : List Char), 0 < line →
      (q.source.toList.splitOn '\n')[line - 1]? = some part →
      ∀ column : Nat, ∃ b, b ≤ Text.width (withoutReturn part) + column ∧
        (∀ op, HelperRequest.of op ⟨q.source, q.path, ⟨line, b⟩⟩
          = ⟨op, q.source, q.path, line, column⟩) ∧
        ∀ (ls : List EngineLocation) (i : Nat) (l : EngineLocation), ls[i]? = some l →
          Reports q line part column l → (toByteColumns q ls)[i]? = some { l with column := b }) ∧
    ∀ (ls : List EngineLocation) (i : Nat) (l : EngineLocation), ls[i]? = some l → l.code = none →
      (∀ path, l.modulePath = some path → path.same q.path = false) →
      (toByteColumns q ls)[i]? = some l := by
  have hmap (ls : List EngineLocation) (i : Nat) {l : EngineLocation} (hl : ls[i]? = some l) :
      (toByteColumns q ls)[i]? = some (l.toByteColumn q) := by
    rw [toByteColumns, List.getElem?_map, hl]
    rfl
  constructor
  · intro line part hpos hpart column
    refine ⟨byteColumn (withoutReturn part) column, byteColumn_le _ column, ?_, ?_⟩
    · exact fun op => HelperRequest.of_byteColumn hpos hpart op column
    · intro ls i l hl hreports
      rw [hmap ls i hl, hreports.toByteColumn hpos hpart]
  · -- without the text of its line a place is converted only by the text of the buffer
    intro ls i l hl hcode hother
    have hnone : lineOf? q l = none := by
      rw [lineOf?, hcode]
      cases hline : l.line with
      | none => rfl
      | some line =>
        cases hpath : l.modulePath with
        | none => rfl
        | some path => simp only [hother path hpath, Bool.false_eq_true, if_false]
    rw [hmap ls i hl, EngineLocation.toByteColumn, hnone]

/-- A question about a line with a character of two bytes, ended by a carriage return and a
newline. -/
def accented : Query := ⟨"é = 1\r\n", ⟨"a.py"⟩, ⟨1, 0⟩⟩

/-- Past the end of the line, reported with the text of the line, and a place in another file. -/
theorem toByteColumns_there_and_back_accented :
    let l : EngineLocation := ⟨some ⟨"a.py"⟩, some 1, 9, some "é = 1\r\n"⟩
    let other : EngineLocation := ⟨some ⟨"b.py"⟩, some 1, 9, none⟩
    Reports accented 1 "é = 1\r".toList 9 l ∧
      (∃ b, HelperRequest.of .goto ⟨accented.source, accented.path, ⟨1, b⟩⟩
          = ⟨.goto, accented.source, accented.path, 1, 9⟩ ∧
        (toByteColumns accented [l, other])[0]? = some { l with column := b }) ∧
      (toByteColumns accented [l, other])[1]? = some other := by
  intro l other
  have hreports : Reports accented 1 "é = 1\r".toList 9 l :=
    ⟨⟨⟨"a.py"⟩, rfl, by decide +kernel⟩, rfl, rfl,
      .inr ⟨['\n'], List.forall_mem_singleton.mpr rfl, by decide +kernel⟩⟩
  have hother : ∀ path, other.modulePath = some path → path.same accented.path = false := by
    rintro path hpath
    obtain rfl := Option.some.inj hpath
    decide +kernel
  obtain ⟨hlines, hkept⟩ := toByteColumns_there_and_back accented
  obtain ⟨b, -, hrequest, hreported⟩ :=
    hlines 1 "é = 1\r".toList (by decide) (by decide +kernel) 9
  exact ⟨hreports, ⟨b, hrequest .goto, hreported [l, other] 0 l rfl hreports⟩,
    hkept [l, other] 1 other rfl rfl hother⟩

end EditorInsight.Analysis
