import EditorInsight.Column
import EditorInsight.Text.Blank

/-!
# Columns there and back

A character column is turned into a byte column and back without loss, also past the end of the line.
What a line ends in does not count, as long as it is one byte wide: past the end of the line a column
goes on byte by byte.

* `charColumn_byteColumn`: there and back.
* `byteColumn_append` and `byteColumn_trimEndChars`: what a line ends in does not count.
* `byteColumn_le`: no sum on the way is larger than the line and the column together.
-/

namespace EditorInsight

variable {line : List Char}

/-! ### There and back -/

theorem charsBefore_zero (cs : List Char) : charsBefore cs 0 = 0 := by
  cases cs <;> rfl

theorem charsBefore_cons {c : Char} (cs : List Char) {column : Nat} (h : 0 < column) :
    charsBefore (c :: cs) column = 1 + charsBefore cs (column - c.utf8Size) := by
  obtain ⟨k, rfl⟩ : ∃ k, column = k + 1 := ⟨column - 1, by omega⟩
  rfl

/-- As many characters begin before the end of the first part as it has. -/
theorem charsBefore_append (before after : List Char) :
    charsBefore (before ++ after) (Text.width before) = before.length := by
  induction before with
  | nil => exact charsBefore_zero after
  | cons c cs ih =>
    have hc := c.utf8Size_pos
    rw [List.cons_append, Text.width_cons, charsBefore_cons _ (by omega), Nat.add_sub_cancel_left, ih,
      List.length_cons, Nat.add_comm]

/-- All characters begin before the end of the line. -/
theorem charsBefore_of_width_le {column : Nat} (h : Text.width line ≤ column) :
    charsBefore line column = line.length := by
  induction line generalizing column with
  | nil => rfl
  | cons c cs ih =>
    have hc := c.utf8Size_pos
    rw [Text.width_cons] at h
    rw [charsBefore_cons _ (by omega), ih (by omega), List.length_cons, Nat.add_comm]

/-- **There and back.** -/
theorem charColumn_byteColumn (line : List Char) (column : Nat) :
    charColumn line (byteColumn line column) = column := by
  unfold charColumn byteColumn
  rcases Nat.le_total column line.length with hle | hge
  · -- within the line, the byte column is a cut
    have hsplit := charsBefore_append (line.take column) (line.drop column)
    have hwidth : Text.width line =
        Text.width (line.take column) + Text.width (line.drop column) := by
      rw [← Text.width_append, List.take_append_drop]
    rw [List.take_append_drop, List.length_take, Nat.min_eq_left hle] at hsplit
    rw [Nat.sub_eq_zero_of_le hle, Nat.add_zero, hsplit]
    omega
  · rw [List.take_of_length_le hge, charsBefore_of_width_le (Nat.le_add_right _ _)]
    omega

/-! ### What a line ends in -/

/-- Characters that are one byte wide. -/
def Narrow (cs : List Char) : Prop := ∀ c ∈ cs, c.utf8Size = 1

theorem Narrow.width_eq {cs : List Char} (h : Narrow cs) : Text.width cs = cs.length := by
  induction cs with
  | nil => rfl
  | cons c cs ih =>
    obtain ⟨hc, hcs⟩ := List.forall_mem_cons.mp h
    rw [Text.width_cons, hc, ih hcs, List.length_cons, Nat.add_comm]

theorem Narrow.take {cs : List Char} (h : Narrow cs) (n : Nat) : Narrow (cs.take n) :=
  fun c hc => h c (List.mem_of_mem_take hc)

theorem byteColumn_append (line : List Char) {stop : List Char} (h : Narrow stop) (column : Nat) :
    byteColumn (line ++ stop) column = byteColumn line column := by
  unfold byteColumn
  rw [List.take_append, Text.width_append, (h.take _).width_eq, List.length_take,
    List.length_append]
  omega

/-- Narrow characters at the end may be dropped. -/
theorem byteColumn_trimEndChars {drop : Char → Bool} (narrow : ∀ c, drop c = true → c.utf8Size = 1)
    (line : List Char) (column : Nat) :
    byteColumn (Text.trimEndChars drop line) column = byteColumn line column := by
  have hsplit : line =
      Text.trimEndChars drop line ++ (line.reverse.takeWhile drop).reverse := by
    rw [Text.trimEndChars, ← List.reverse_append, List.takeWhile_append_dropWhile,
      List.reverse_reverse]
  have hdropped : Narrow (line.reverse.takeWhile drop).reverse := by
    intro c hc
    have hall := List.all_eq_true.mp (List.all_takeWhile (p := drop) (l := line.reverse))
    exact narrow c (hall c (List.mem_reverse.mp hc))
  conv => rhs; rw [hsplit]
  exact (byteColumn_append _ hdropped column).symm

theorem byteColumn_le (line : List Char) (column : Nat) :
    byteColumn line column ≤ Text.width line + column := by
  have hwidth : Text.width line =
      Text.width (line.take column) + Text.width (line.drop column) := by
    rw [← Text.width_append, List.take_append_drop]
  unfold byteColumn
  omega

end EditorInsight
