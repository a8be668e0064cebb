import Mathlib.Order.GaloisConnection.Defs
import EditorInsight.Proofs.Analysis.Conversion

/-!
# Columns between characters

The character column of a byte column counts the characters that begin before it, so it is the least
column of characters whose byte column is not before the given one. This says all about the two
directions: they are adjoint, and from that alone they are ordered and lose nothing but the place
inside a character.

* `gc_columns`: a character column is not past another if and only if the byte column is not past that
  of the other.
* `byteColumn_charColumn`: boundaries and what is past the end are kept;
  `byteColumn_charColumn_of_inside`: a place inside a character becomes the end of the character.
* `columns_exact` puts everything together, for machine words.
-/

namespace EditorInsight

open Json (wordSize)

variable {line : List Char} {b n : Nat}

/-! ### The two directions -/

theorem charColumn_zero (line : List Char) : charColumn line 0 = 0 := by
  rw [charColumn, charsBefore_zero, Nat.zero_sub]

theorem charColumn_cons (c : Char) (cs : List Char) (hb : 0 < b) :
    charColumn (c :: cs) b = 1 + charColumn cs (b - c.utf8Size) := by
  rw [charColumn, charColumn, charsBefore_cons cs hb, Text.width_cons, Nat.sub_add_eq, Nat.add_assoc]

theorem byteColumn_zero (line : List Char) : byteColumn line 0 = 0 := by
  rw [byteColumn, List.take_zero, Text.width_nil, Nat.zero_sub]

theorem byteColumn_cons_succ (c : Char) (cs : List Char) (n : Nat) :
    byteColumn (c :: cs) (n + 1) = c.utf8Size + byteColumn cs n := by
  rw [byteColumn, byteColumn, List.take_succ_cons, Text.width_cons, List.length_cons,
    Nat.add_sub_add_right, Nat.add_assoc]

/-- **The two directions are adjoint.** -/
theorem gc_columns (line : List Char) : GaloisConnection (charColumn line) (byteColumn line) := by
  intro b n
  induction line generalizing b n with
  | nil =>
    rw [charColumn, byteColumn, List.take_nil]
    show 0 + (b - 0) ≤ n ↔ b ≤ 0 + (n - 0)
    omega
  | cons c cs ih =>
    rcases Nat.eq_zero_or_pos b with rfl | hb
    · rw [charColumn_zero]
      exact iff_of_true (Nat.zero_le n) (Nat.zero_le _)
    · rw [charColumn_cons c cs hb]
      cases n with
      | zero =>
        rw [byteColumn_zero]
        exact iff_of_false (by omega) (by omega)
      | succ n =>
        calc 1 + charColumn cs (b - c.utf8Size) ≤ n + 1
          _ ↔ charColumn cs (b - c.utf8Size) ≤ n := by omega
          _ ↔ b - c.utf8Size ≤ byteColumn cs n := ih _ _
          _ ↔ b ≤ byteColumn (c :: cs) (n + 1) := by rw [byteColumn_cons_succ]; omega

/-! ### Boundaries -/

/-- The byte columns of character columns are the boundaries of the line, and what is past its end. -/
theorem byteColumn_length_append (before after : List Char) :
    byteColumn (before ++ after) before.length = Text.width before := by
  rw [byteColumn, List.take_left, List.length_append, Nat.sub_eq_zero_of_le (Nat.le_add_right _ _),
    Nat.add_zero]

theorem exists_byteColumn_eq (h : Text.isBoundary line b = true ∨ Text.width line ≤ b) :
    ∃ n, byteColumn line n = b := by
  rcases h with hboundary | hpast
  · obtain ⟨before, after, rfl, rfl⟩ := Text.isBoundary_iff_exists_append.mp hboundary
    exact ⟨before.length, byteColumn_length_append before after⟩
  · refine ⟨line.length + (b - Text.width line), ?_⟩
    rw [byteColumn_of_le (Nat.le_add_right _ _)]
    omega

/-- **Nothing is lost** at boundaries and past the end. -/
theorem byteColumn_charColumn (h : Text.isBoundary line b = true ∨ Text.width line ≤ b) :
    byteColumn line (charColumn line b) = b := by
  obtain ⟨n, rfl⟩ := exists_byteColumn_eq h
  exact (gc_columns line).u_l_u_eq_u n

/-- **Inside a character**, the character counts as begun, so its end is what is left. -/
theorem byteColumn_charColumn_of_inside {start stop : Nat} (h : Text.CharAt line start stop)
    (hstart : start < b) (hstop : b ≤ stop) : byteColumn line (charColumn line b) = stop := by
  obtain ⟨before, c, after, rfl, rfl, rfl⟩ := h
  have hfirst : byteColumn (before ++ c :: after) before.length = Text.width before :=
    byteColumn_length_append before (c :: after)
  have hnext : byteColumn (before ++ c :: after) (before.length + 1)
      = Text.width before + c.utf8Size := by
    have hsplit := byteColumn_length_append (before ++ [c]) after
    rwa [List.append_assoc, List.length_append, Text.width_append] at hsplit
  -- more characters begin before the column than before the character, but only one more
  have hmore : before.length < charColumn (before ++ c :: after) b := by
    rw [(gc_columns _).lt_iff_lt, hfirst]
    exact hstart
  have hless : charColumn (before ++ c :: after) b ≤ before.length + 1 := by
    rw [(gc_columns _).le_iff_le, hnext]
    exact hstop
  rw [← hnext, Nat.le_antisymm hless hmore]

/-- Where a character ends, another one begins, or the line ends. -/
theorem Text.CharAt.stop_cases {start stop : Nat} (h : Text.CharAt line start stop) :
    stop = Text.width line ∨ ∃ next, Text.CharAt line stop next := by
  rcases Nat.eq_or_lt_of_le (Text.le_width_of_isBoundary h.isBoundary_stop) with heq | hlt
  · exact Or.inl heq
  · exact Or.inr (Text.exists_charAt_of_lt h.isBoundary_stop hlt)

/-- Past the end, the distance from the end is kept. -/
theorem charColumn_width_add (line : List Char) (k : Nat) :
    charColumn line (Text.width line + k) = line.length + k := by
  rw [charColumn, charsBefore_of_width_le (Nat.le_add_right _ _), Nat.add_sub_cancel_left]

theorem byteColumn_length_add (line : List Char) (k : Nat) :
    byteColumn line (line.length + k) = Text.width line + k := by
  rw [byteColumn_of_le (Nat.le_add_right _ _), Nat.add_sub_cancel_left]

/-- **Columns convert without loss.** On every line, for all columns that with the length of the line
add up to a word, both directions are computed in words as without them, also one behind the other. A
character column turned into a byte column and back is itself. A byte column turned into a character
column and back is itself at a boundary and past the end of the line; inside a character, which is the
only other place, it becomes the end of the character, where the next one begins or the line ends.
Both directions keep the order, and past the end both keep the distance from the end. -/
theorem columns_exact (line : List Char) :
    (∀ m column, Text.width line + column < wordSize →
      byteColumnInWords? m line column = some (byteColumn line column) ∧
      charColumnInWords? m line (byteColumn line column) = some column ∧
      charColumnInWords? m line column = some (charColumn line column) ∧
      byteColumnInWords? m line (charColumn line column)
        = some (byteColumn line (charColumn line column))) ∧
    (∀ b, Text.isBoundary line b = true ∨ Text.width line < b →
      byteColumn line (charColumn line b) = b) ∧
    (∀ b, Text.isBoundary line b = false → b ≤ Text.width line →
      ∃ start stop, Text.CharAt line start stop ∧ start < b ∧ b < stop ∧
        byteColumn line (charColumn line b) = stop ∧
        (stop = Text.width line ∨ ∃ next, Text.CharAt line stop next)) ∧
    Monotone (charColumn line) ∧ Monotone (byteColumn line) ∧
    ∀ k, charColumn line (Text.width line + k) = line.length + k ∧
      byteColumn line (line.length + k) = Text.width line + k := by
  refine ⟨fun m column hfits => ?_, fun b hb => ?_, fun b hb hle => ?_, (gc_columns line).monotone_l,
    (gc_columns line).monotone_u, fun k => ⟨charColumn_width_add line k, byteColumn_length_add line k⟩⟩
  · -- a column grows by no more than the length of the line in either direction
    have hbyte := byteColumn_le line column
    have hchar := charColumn_le line column
    refine ⟨byteColumnInWords?_eq (by omega), ?_, charColumnInWords?_eq (by omega),
      byteColumnInWords?_eq (by omega)⟩
    rw [charColumnInWords?_eq (by omega), charColumn_byteColumn]
  · exact byteColumn_charColumn (hb.imp id Nat.le_of_lt)
  · rcases Text.isBoundary_eq_false_iff.mp hb with hpast | ⟨start, stop, hchar, hstart, hstop⟩
    · exact absurd hle (Nat.not_le.mpr hpast)
    · exact ⟨start, stop, hchar, hstart, hstop,
        byteColumn_charColumn_of_inside hchar hstart (Nat.le_of_lt hstop), hchar.stop_cases⟩

/-- A line with a character of two bytes: as far past its end as words reach, and inside the
character. -/
theorem columns_exact_accented :
    (Text.width "é = 1".toList + (wordSize - 7) < wordSize ∧
      byteColumnInWords? .checked "é = 1".toList (wordSize - 7) = some (wordSize - 6) ∧
      charColumnInWords? .checked "é = 1".toList (wordSize - 6) = some (wordSize - 7)) ∧
    (Text.isBoundary "é = 1".toList 1 = false ∧ 1 ≤ Text.width "é = 1".toList ∧
      byteColumn "é = 1".toList (charColumn "é = 1".toList 1) = 2) := by
  have hfits : Text.width "é = 1".toList + (wordSize - 7) < wordSize := by decide +kernel
  have hinside : Text.isBoundary "é = 1".toList 1 = false := by decide +kernel
  have hwidth : 1 ≤ Text.width "é = 1".toList := by decide +kernel
  have hbyte : byteColumn "é = 1".toList (wordSize - 7) = wordSize - 6 := by decide +kernel
  obtain ⟨hwords, -, hin, -⟩ := columns_exact "é = 1".toList
  obtain ⟨hto, hback, -⟩ := hwords .checked _ hfits
  obtain ⟨start, stop, hchar, hstart, hstop, heq, -⟩ := hin 1 hinside hwidth
  -- the character stops no later than the next boundary
  have hle : stop ≤ 2 := hchar.stop_le_of_isBoundary (by decide +kernel) (by omega)
  rw [hbyte] at hto hback
  exact ⟨⟨hfits, hto, hback⟩, hinside, hwidth, heq.trans (by omega)⟩

end EditorInsight
