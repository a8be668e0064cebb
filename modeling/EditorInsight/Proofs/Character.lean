import EditorInsight.Proofs.Identifier

/-!
# Where the characters of a text stand

Each character of a text takes up some bytes in a row. An offset is a boundary if a character begins
there or the text ends there, and there is no boundary inside a character. So a character is found by
where it begins as well as by where it ends.

* `Text.CharAt` says that a character takes up the bytes between two offsets; `CharAt.start_unique`
  and `CharAt.stop_le_of_isBoundary`.
* `Text.isBoundary_eq_false_iff`: what is no boundary is past the end or inside a character.
* `Text.slice?_eq_some_iff` says which stretches of a text can be taken out.
* `lastCharBetween?_eq_some_iff` says which character is the last one of a stretch.
-/

namespace EditorInsight

namespace Text

/-- Whether a character of a text takes up the bytes between two offsets. -/
def CharAt (cs : List Char) (start stop : Nat) : Prop :=
  ∃ before c after, cs = before ++ c :: after ∧ width before = start ∧ start + c.utf8Size = stop

variable {cs : List Char} {start stop n : Nat}

/-! ### Two ways to cut a text -/

/-- Of two first parts of a text, the one that is not wider is the first part of the other. -/
theorem exists_eq_append_of_width_le {before after before' after' : List Char}
    (h : before ++ after = before' ++ after') (hle : width before ≤ width before') :
    ∃ between, before' = before ++ between ∧ after = between ++ after' := by
  rcases List.append_eq_append_iff.mp h with hfirst | ⟨rest, rfl, rfl⟩
  · exact hfirst
  · -- the first one is the longer one, but no wider
    have hrest : rest = [] := by
      refine Decidable.byContradiction fun hne => ?_
      have hpos := width_pos hne
      rw [width_append] at hle
      omega
    subst hrest
    exact ⟨[], by rw [List.append_nil, List.append_nil], rfl⟩

/-- The boundaries of a text are the widths of its first parts. -/
theorem isBoundary_iff_exists_append :
    isBoundary cs n = true ↔ ∃ before after, cs = before ++ after ∧ width before = n := by
  rw [isBoundary_iff]
  constructor
  · rintro ⟨before, after, -, hcs, hn⟩
    exact ⟨before, after, hcs, hn⟩
  · rintro ⟨before, after, rfl, rfl⟩
    exact ⟨before, after, cutAt?_append before after, rfl, rfl⟩

/-! ### Characters -/

theorem CharAt.start_lt_stop (h : CharAt cs start stop) : start < stop := by
  obtain ⟨before, c, after, -, -, rfl⟩ := h
  exact Nat.lt_add_of_pos_right c.utf8Size_pos

theorem CharAt.isBoundary_start (h : CharAt cs start stop) : isBoundary cs start = true := by
  obtain ⟨before, c, after, rfl, rfl, -⟩ := h
  exact isBoundary_width before (c :: after)

theorem CharAt.isBoundary_stop (h : CharAt cs start stop) : isBoundary cs stop = true := by
  obtain ⟨before, c, after, rfl, rfl, rfl⟩ := h
  refine isBoundary_iff_exists_append.mpr ⟨before ++ [c], after, by simp, ?_⟩
  rw [width_append, width_cons, width_nil, Nat.add_zero]

/-- At every boundary before the end there is a character. -/
theorem exists_charAt_of_lt (h : isBoundary cs start = true) (hlt : start < width cs) :
    ∃ stop, CharAt cs start stop := by
  obtain ⟨before, after, rfl, rfl⟩ := isBoundary_iff_exists_append.mp h
  cases after with
  | nil =>
    rw [List.append_nil] at hlt
    exact absurd hlt (Nat.lt_irrefl _)
  | cons c after => exact ⟨_, before, c, after, rfl, rfl, rfl⟩

/-- Where a part of a text ends, a character of it ends. -/
theorem exists_charAt_end {before part after : List Char} (hcs : cs = before ++ part ++ after)
    (hne : part ≠ []) :
    ∃ n, width before ≤ n ∧ CharAt cs n (width before + width part) := by
  rcases List.eq_nil_or_concat part with hnil | ⟨front, c, rfl⟩
  · exact absurd hnil hne
  · refine ⟨width (before ++ front), ?_, before ++ front, c, after, ?_, rfl, ?_⟩
    · rw [width_append]
      exact Nat.le_add_right _ _
    · rw [hcs]
      simp
    · simp only [List.concat_eq_append, width_append, width_cons, width_nil, Nat.add_zero,
        Nat.add_assoc]

/-- There is no boundary inside a character. -/
theorem CharAt.stop_le_of_isBoundary (h : CharAt cs start stop) (hn : isBoundary cs n = true)
    (hlt : start < n) : stop ≤ n := by
  obtain ⟨before, c, after, rfl, rfl, rfl⟩ := h
  obtain ⟨before', after', hcs, rfl⟩ := isBoundary_iff_exists_append.mp hn
  obtain ⟨between, rfl, hafter⟩ := exists_eq_append_of_width_le hcs (Nat.le_of_lt hlt)
  -- what is between the two offsets begins with the character
  cases between with
  | nil =>
    rw [List.append_nil] at hlt
    exact absurd hlt (Nat.lt_irrefl _)
  | cons c' between =>
    obtain ⟨rfl, -⟩ := List.cons_eq_cons.mp hafter
    rw [width_append, width_cons]
    omega

/-- One byte behind a boundary there is another one only if a character of one byte is between. -/
theorem isBoundary_add_one_iff (h : isBoundary cs start = true) (hlt : start < width cs) :
    isBoundary cs (start + 1) = true ↔ CharAt cs start (start + 1) := by
  constructor
  · intro hnext
    obtain ⟨stop, hchar⟩ := exists_charAt_of_lt h hlt
    have hle := hchar.stop_le_of_isBoundary hnext (Nat.lt_succ_self start)
    have hlonger := hchar.start_lt_stop
    obtain rfl : stop = start + 1 := by omega
    exact hchar
  · exact CharAt.isBoundary_stop

/-- Characters that end at one offset begin at one offset. -/
theorem CharAt.start_unique {start' : Nat} (h : CharAt cs start stop)
    (h' : CharAt cs start' stop) : start = start' := by
  rcases Nat.lt_trichotomy start start' with hlt | heq | hgt
  · -- the one that begins first would end before the other begins
    have hle := h.stop_le_of_isBoundary h'.isBoundary_start hlt
    exact absurd h'.start_lt_stop (Nat.not_lt.mpr hle)
  · exact heq
  · have hle := h'.stop_le_of_isBoundary h.isBoundary_start hgt
    exact absurd h.start_lt_stop (Nat.not_lt.mpr hle)

/-! ### Between the boundaries -/

/-- Whether an offset is inside a character. -/
def IsInside (cs : List Char) (n : Nat) : Prop :=
  ∃ start stop, CharAt cs start stop ∧ start < n ∧ n < stop

theorem IsInside.cons (c : Char) (h : IsInside cs n) : IsInside (c :: cs) (c.utf8Size + n) := by
  obtain ⟨start, stop, ⟨before, d, after, rfl, rfl, rfl⟩, hstart, hstop⟩ := h
  refine ⟨_, _, ⟨c :: before, d, after, rfl, rfl, rfl⟩, ?_, ?_⟩
  · rw [width_cons]
    omega
  · rw [width_cons]
    omega

theorem isBoundary_cons (c : Char) (h : isBoundary cs n = true) :
    isBoundary (c :: cs) (c.utf8Size + n) = true := by
  obtain ⟨before, after, rfl, rfl⟩ := isBoundary_iff_exists_append.mp h
  exact isBoundary_width (c :: before) after

theorem le_width_of_isBoundary (h : isBoundary cs n = true) : n ≤ width cs := by
  obtain ⟨before, after, rfl, rfl⟩ := isBoundary_iff_exists_append.mp h
  rw [width_append]
  exact Nat.le_add_right _ _

/-- **What is no boundary** is past the end of the text or inside a character of it. -/
theorem isBoundary_eq_false_iff : isBoundary cs n = false ↔ width cs < n ∨ IsInside cs n := by
  constructor
  · intro h
    induction cs generalizing n with
    | nil =>
      cases n with
      | zero => cases h
      | succ n => exact Or.inl (Nat.succ_pos n)
    | cons c cs ih =>
      rcases Nat.eq_zero_or_pos n with rfl | hpos
      · cases h
      · rcases Nat.lt_or_ge n c.utf8Size with hlt | hge
        · -- inside the first character
          exact Or.inr ⟨0, c.utf8Size, ⟨[], c, cs, rfl, rfl, Nat.zero_add _⟩, hpos, hlt⟩
        · obtain ⟨k, rfl⟩ := Nat.exists_eq_add_of_le hge
          have hrest : isBoundary cs k = false :=
            Bool.eq_false_iff.mpr fun hk => Bool.eq_false_iff.mp h (isBoundary_cons c hk)
          rcases ih hrest with hpast | hinside
          · rw [width_cons]
            exact Or.inl (Nat.add_lt_add_left hpast _)
          · exact Or.inr (hinside.cons c)
  · rintro (hpast | ⟨start, stop, hchar, hstart, hstop⟩)
    · exact Bool.eq_false_iff.mpr fun hn =>
        absurd (le_width_of_isBoundary hn) (Nat.not_le.mpr hpast)
    · exact Bool.eq_false_iff.mpr fun hn =>
        absurd (hchar.stop_le_of_isBoundary hn hstart) (Nat.not_le.mpr hstop)

/-- Two ways to cut a text at one offset are the same. -/
theorem append_eq_append_of_width_eq {before after before' after' : List Char}
    (h : before ++ after = before' ++ after') (hwidth : width before = width before') :
    before = before' ∧ after = after' := by
  have hcut := cutAt?_append before after
  rw [h, hwidth, cutAt?_append] at hcut
  exact (Prod.mk.inj (Option.some.inj hcut)).imp Eq.symm Eq.symm

/-! ### Stretches -/

/-- What can be taken out of a text between two offsets are the parts of the text that stand there. -/
theorem slice?_eq_some_iff {between : List Char} :
    slice? cs start stop = some between ↔
      ∃ before after, cs = before ++ between ++ after ∧ width before = start ∧
        start + width between = stop := by
  unfold slice?
  constructor
  · intro h
    obtain ⟨⟨upTo, after⟩, hstop, h⟩ := Option.bind_eq_some_iff.mp h
    obtain ⟨⟨before, between'⟩, hstart, h⟩ := Option.bind_eq_some_iff.mp h
    obtain rfl : between' = between := Option.some.inj h
    -- the end is cut off first, and then the front
    obtain ⟨rfl, rfl⟩ := eq_append_of_cutAt? hstop
    obtain ⟨rfl, rfl⟩ := eq_append_of_cutAt? hstart
    exact ⟨before, after, rfl, rfl, (width_append before between').symm⟩
  · rintro ⟨before, after, rfl, rfl, rfl⟩
    rw [← width_append, cutAt?_append]
    change (cutAt? (before ++ between) (width before)).bind _ = _
    rw [cutAt?_append]
    rfl

/-- A part of a text is replaced where it stands. -/
theorem splice?_append (before old after new : List Char) :
    splice? (before ++ old ++ after) (width before) (width (before ++ old)) new
      = some (before ++ new ++ after) := by
  rw [splice?, cutAt?_append]
  change (cutAt? (before ++ old) (width before)).bind _ = _
  rw [cutAt?_append]
  rfl

/-- A stretch can be taken out if and only if it starts and stops at boundaries, in this order. -/
theorem isSome_slice?_iff :
    (slice? cs start stop).isSome = true ↔
      start ≤ stop ∧ isBoundary cs start = true ∧ isBoundary cs stop = true := by
  rw [Option.isSome_iff_exists]
  constructor
  · rintro ⟨between, h⟩
    obtain ⟨before, after, rfl, rfl, rfl⟩ := slice?_eq_some_iff.mp h
    refine ⟨Nat.le_add_right _ _, ?_, ?_⟩
    · rw [List.append_assoc]
      exact isBoundary_width before (between ++ after)
    · rw [← width_append]
      exact isBoundary_width (before ++ between) after
  · rintro ⟨hle, hstart, hstop⟩
    -- the text is cut at both boundaries, and the nearer cut is a part of the farther one
    obtain ⟨before, after, rfl, rfl⟩ := isBoundary_iff_exists_append.mp hstart
    obtain ⟨before', after', hcs, rfl⟩ := isBoundary_iff_exists_append.mp hstop
    obtain ⟨between, rfl, rfl⟩ := exists_eq_append_of_width_le hcs hle
    refine ⟨between, slice?_eq_some_iff.mpr ⟨before, after', ?_, rfl, ?_⟩⟩
    · rw [List.append_assoc]
    · rw [width_append]

end Text

/-! ### The last character of a stretch -/

section LastChar

open Text

variable {cs : List Char} {start stop n : Nat}

theorem lastCharBetween?_eq_some_iff {c : Char} :
    lastCharBetween? cs start stop = some c ↔
      ∃ before front after, cs = before ++ front ++ c :: after ∧ width before = start ∧
        start + width front + c.utf8Size = stop := by
  have hwidth (front : List Char) : width (front ++ [c]) = width front + c.utf8Size := by
    rw [width_append, width_cons, width_nil, Nat.add_zero]
  unfold lastCharBetween?
  rw [Option.bind_eq_some_iff]
  constructor
  · rintro ⟨between, hslice, hlast⟩
    obtain ⟨front, rfl⟩ := List.getLast?_eq_some_iff.mp hlast
    obtain ⟨before, after, rfl, rfl, rfl⟩ := slice?_eq_some_iff.mp hslice
    refine ⟨before, front, after, by simp, rfl, ?_⟩
    rw [hwidth, Nat.add_assoc]
  · rintro ⟨before, front, after, rfl, rfl, rfl⟩
    refine ⟨front ++ [c], slice?_eq_some_iff.mpr ⟨before, after, by simp, rfl, ?_⟩, ?_⟩
    · rw [hwidth, Nat.add_assoc]
    · exact List.getLast?_eq_some_iff.mpr ⟨front, rfl⟩

/-- The last character of a stretch takes up its last bytes. -/
theorem charAt_of_lastCharBetween? {c : Char} (h : lastCharBetween? cs start stop = some c) :
    start ≤ stop - c.utf8Size ∧ c.utf8Size ≤ stop ∧ CharAt cs (stop - c.utf8Size) stop := by
  obtain ⟨before, front, after, hcs, rfl, rfl⟩ := lastCharBetween?_eq_some_iff.mp h
  rw [Nat.add_sub_cancel]
  refine ⟨Nat.le_add_right _ _, Nat.le_add_left _ _, before ++ front, c, after, hcs, ?_, rfl⟩
  rw [width_append]

/-- A character that ends where a stretch ends, and does not begin before it, is its last one. -/
theorem exists_lastCharBetween? (hstart : isBoundary cs start = true) (h : CharAt cs n stop)
    (hle : start ≤ n) : ∃ c, lastCharBetween? cs start stop = some c ∧ stop - c.utf8Size = n := by
  obtain ⟨before, c, after, rfl, rfl, rfl⟩ := h
  obtain ⟨first, rest, hcs, rfl⟩ := isBoundary_iff_exists_append.mp hstart
  obtain ⟨front, rfl, -⟩ := exists_eq_append_of_width_le hcs.symm hle
  refine ⟨c, lastCharBetween?_eq_some_iff.mpr ⟨first, front, after, rfl, rfl, ?_⟩, ?_⟩
  · rw [width_append]
  · exact Nat.add_sub_cancel _ _

end LastChar

end EditorInsight
