import EditorInsight.Proofs.LineIndex
import EditorInsight.Proofs.LineIndex.Bytes

/-!
# Positions and offsets

The offsets of a text, its end included, and the positions that have an offset are the same thing in
two notations: going from one to the other and back changes nothing, and both are ordered alike. All
of it follows from where the lines start: the first line at zero, each line behind the one before, no
line past the end.

* `LineIndex.Anchored` is this invariant, `LineIndex.anchored_ofBytes` says that every index has it.
* `LineIndex.OnLine` says which line an offset is on; `LineIndex.OnLine.position_eq` is the position
  of the offset then, and `LineIndex.Anchored.onLine_search` finds the line by halving.
* `LineIndex.positionChecked?` and `LineIndex.offsetChecked?` compute with differences that are
  refused if they are negative, and with the search by halving. They never refuse, and agree with
  `LineIndex.position` and `LineIndex.offset?`.
* `LineIndex.ofText_orderIso` puts everything together for texts.
-/

namespace EditorInsight

/-! ### Searching an ascending list -/

/-- A search by halving among the places from `lo` to `hi`. It gives the place of the value, or as an
error the place that the value would have to be put at. -/
def searchBetween (xs : List Nat) (x lo hi : Nat) (h : hi ≤ xs.length) : Except Nat Nat :=
  if hlt : lo < hi then
    have : (lo + hi) / 2 < xs.length := by omega
    if xs[(lo + hi) / 2] = x then .ok ((lo + hi) / 2)
    else if xs[(lo + hi) / 2] < x then searchBetween xs x ((lo + hi) / 2 + 1) hi h
    else searchBetween xs x lo ((lo + hi) / 2) (by omega)
  else .error lo
termination_by hi - lo

/-- A search by halving in a whole list. -/
def search (xs : List Nat) (x : Nat) : Except Nat Nat :=
  searchBetween xs x 0 xs.length (Nat.le_refl _)

/-- What a search has to come to. -/
inductive Found (xs : List Nat) (x : Nat) : Except Nat Nat → Prop where
  | here {i : Nat} (eq : xs[i]? = some x) : Found xs x (.ok i)
  | between {i : Nat} (le : i ≤ xs.length) (less : ∀ j y, j < i → xs[j]? = some y → y < x)
      (more : ∀ j y, i ≤ j → xs[j]? = some y → x < y) : Found xs x (.error i)

theorem found_searchBetween {xs : List Nat} {x lo hi : Nat} (hasc : xs.Pairwise (· < ·))
    (h : hi ≤ xs.length) (hle : lo ≤ hi) (less : ∀ j y, j < lo → xs[j]? = some y → y < x)
    (more : ∀ j y, hi ≤ j → xs[j]? = some y → x < y) :
    Found xs x (searchBetween xs x lo hi h) := by
  -- what is left of the interval is known to be less, what is right of it to be more
  fun_induction searchBetween xs x lo hi h with
  | case1 lo hi h hlt hmid heq =>
    exact .here (List.getElem?_eq_some_iff.mpr ⟨hmid, heq⟩)
  | case2 lo hi h hlt hmid hne hless ih =>
    have hget : xs[(lo + hi) / 2]? = some xs[(lo + hi) / 2] := List.getElem?_eq_getElem hmid
    refine ih (by omega) (fun j y hj hy => ?_) more
    rcases Nat.lt_or_eq_of_le (Nat.le_of_lt_succ hj) with hj | rfl
    · exact Nat.lt_trans (lt_of_ascending hasc hj hy hget) hless
    · rw [← Option.some.inj (hget.symm.trans hy)]
      exact hless
  | case3 lo hi h hlt hmid hne hnotless ih =>
    have hget : xs[(lo + hi) / 2]? = some xs[(lo + hi) / 2] := List.getElem?_eq_getElem hmid
    have hmore : x < xs[(lo + hi) / 2] := by omega
    refine ih (by omega) less fun j y hj hy => ?_
    rcases Nat.lt_or_eq_of_le hj with hj | rfl
    · exact Nat.lt_trans hmore (lt_of_ascending hasc hj hget hy)
    · rw [← Option.some.inj (hget.symm.trans hy)]
      exact hmore
  | case4 lo hi h hge =>
    exact .between (Nat.le_trans hle h) less fun j y hj hy => more j y (by omega) hy

theorem found_search {xs : List Nat} (hasc : xs.Pairwise (· < ·)) (x : Nat) :
    Found xs x (search xs x) := by
  refine found_searchBetween hasc _ (Nat.zero_le _) (fun j y hj => absurd hj (Nat.not_lt_zero j)) ?_
  intro j y hj hy
  rw [List.getElem?_eq_none hj] at hy
  cases hy

/-- A difference, unless it would be negative. -/
def sub? (a b : Nat) : Option Nat := if b ≤ a then some (a - b) else none

theorem sub?_eq_some {a b : Nat} (h : b ≤ a) : sub? a b = some (a - b) := if_pos h

namespace LineIndex

/-! ### The line of an offset -/

/-- An index of a text, of which also the first line starts where it has to. -/
structure Anchored (ix : LineIndex) : Prop extends Ordered ix where
  first : ix.starts[0]? = some 0

theorem anchored_ofText (text : String) : (ofText text).Anchored where
  toOrdered := ordered_ofChars text.toList
  first := rfl

/-- An offset is on a line, counted from zero, that starts at the given offset. -/
structure OnLine (ix : LineIndex) (i start a : Nat) : Prop where
  starts : ix.starts[i]? = some start
  start_le : start ≤ a
  lt_next : ∀ next, ix.starts[i + 1]? = some next → a < next

variable {ix : LineIndex} {i start a b : Nat}

/-- The elements of an ascending list that do not exceed a bound, by the place of the last one. -/
theorem takeWhile_le {xs : List Nat} (hasc : xs.Pairwise (· < ·)) (hi : xs[i]? = some start)
    (hle : start ≤ a) (hnext : ∀ next, xs[i + 1]? = some next → a < next) (d : Nat) :
    (xs.takeWhile (· ≤ a)).length = i + 1 ∧ (xs.takeWhile (· ≤ a)).getLastD d = start := by
  induction xs generalizing i d with
  | nil => cases hi
  | cons x xs ih =>
    rw [List.pairwise_cons] at hasc
    cases i with
    | zero =>
      obtain rfl : x = start := Option.some.inj hi
      -- the next one is too large already
      have hrest : xs.takeWhile (· ≤ a) = [] := by
        cases xs with
        | nil => rfl
        | cons y ys =>
          have hlt : a < y := hnext y rfl
          rw [List.takeWhile_cons, if_neg (by simpa using hlt)]
      rw [List.takeWhile_cons, if_pos (decide_eq_true hle), hrest]
      exact ⟨rfl, rfl⟩
    | succ i =>
      have hx : x < start := hasc.1 start (List.mem_of_getElem? hi)
      obtain ⟨hlength, hlast⟩ := ih hasc.2 hi hnext x
      rw [List.takeWhile_cons, if_pos (decide_eq_true (by omega)), List.length_cons, hlength,
        List.getLastD_cons, hlast]
      exact ⟨rfl, rfl⟩

theorem OnLine.position_eq (hl : ix.OnLine i start a) (h : ix.Ordered) (ha : a ≤ ix.size) :
    ix.position a = ⟨i + 1, a - start⟩ := by
  obtain ⟨hlength, hlast⟩ := takeWhile_le h.ascending hl.starts hl.start_le hl.lt_next 0
  simp only [position, Nat.min_eq_left ha, hlength, hlast]

/-- The line that a search comes to, counted from zero: the one that starts at the offset, or else
the one before the place at which it would have to start. -/
def lineOfSearch : Except Nat Nat → Nat
  | .ok i => i
  | .error i => i - 1

/-- A search finds the line of an offset. -/
theorem Anchored.onLine_search (h : ix.Anchored) (a : Nat) :
    ∃ start, ix.OnLine (lineOfSearch (search ix.starts a)) start a := by
  cases hs : search ix.starts a with
  | ok i =>
    have hfound := found_search h.ascending a
    rw [hs] at hfound
    cases hfound with
    | here eq =>
      exact ⟨a, eq, Nat.le_refl a, fun next hnext => h.getElem?_lt (Nat.lt_succ_self i) eq hnext⟩
  | error i =>
    have hfound := found_search h.ascending a
    rw [hs] at hfound
    cases hfound with
    | between le less more =>
      cases i with
      | zero =>
        -- zero is not behind any offset
        exact absurd (more 0 0 (Nat.le_refl 0) h.first) (Nat.not_lt_zero a)
      | succ i =>
        obtain ⟨start, hstart⟩ : ∃ start, ix.starts[i]? = some start :=
          ⟨_, List.getElem?_eq_getElem le⟩
        exact ⟨start, hstart, Nat.le_of_lt (less i start (Nat.lt_succ_self i) hstart),
          fun next hnext => more (i + 1) next (Nat.le_refl _) hnext⟩

theorem Anchored.exists_onLine (h : ix.Anchored) (a : Nat) : ∃ i start, ix.OnLine i start a :=
  ⟨_, h.onLine_search a⟩

/-! ### There and back -/

/-- Every offset up to the end has a position, and the position has that offset. -/
theorem Anchored.offset?_position (h : ix.Anchored) (ha : a ≤ ix.size) :
    ix.offset? (ix.position a) = .ok a := by
  obtain ⟨i, start, hl⟩ := h.exists_onLine a
  rw [hl.position_eq h.toOrdered ha, offset?, lineStart?, if_neg (Nat.succ_ne_zero _),
    Nat.add_sub_cancel, hl.starts]
  -- the newline of the line, or the end of the text, is not before the offset
  have hend : a ≤ ix.lineEnd (i + 1) := by
    unfold lineEnd
    split
    · next next hnext => exact Nat.le_sub_one_of_lt (hl.lt_next next hnext)
    · exact ha
  have hle := hl.start_le
  simp only
  rw [if_neg (by omega)]
  exact congrArg Except.ok (by omega)

/-- The offset of an accepted position is not past the end, and has that position. -/
theorem Ordered.position_offset? (h : ix.Ordered) {p : Position} (hp : ix.offset? p = .ok a) :
    a ≤ ix.size ∧ ix.position a = p := by
  obtain ⟨start, hs, rfl, hcolumn⟩ := offset?_eq_ok hp
  obtain ⟨hpos, hstart⟩ := lineStart?_eq_some hs
  have hstop := h.lineStart_le_lineEnd hs
  have hsize := h.lineEnd_le_size p.line
  have hl : ix.OnLine (p.line - 1) start (start + p.column) := by
    refine ⟨hstart, Nat.le_add_right _ _, fun next hnext => ?_⟩
    rw [Nat.sub_add_cancel hpos] at hnext
    have hlt : start < next := h.getElem?_lt (Nat.sub_one_lt_of_lt hpos) hstart hnext
    have hend : ix.lineEnd p.line = next - 1 := by rw [lineEnd, hnext]
    omega
  refine ⟨by omega, ?_⟩
  rw [hl.position_eq h (by omega), Nat.sub_add_cancel hpos, Nat.add_sub_cancel_left]

/-- Later offsets have later positions. -/
theorem Anchored.position_lt (h : ix.Anchored) (hab : a < b) (hb : b ≤ ix.size) :
    ix.position a < ix.position b := by
  obtain ⟨i, start, hla⟩ := h.exists_onLine a
  obtain ⟨j, start', hlb⟩ := h.exists_onLine b
  have hle := hla.start_le
  rw [hla.position_eq h.toOrdered (by omega), hlb.position_eq h.toOrdered hb]
  rcases Nat.lt_trichotomy i j with hlt | rfl | hgt
  · exact Or.inl (Nat.succ_lt_succ hlt)
  · -- on one line the columns are compared
    obtain rfl : start = start' := Option.some.inj (hla.starts.symm.trans hlb.starts)
    exact Or.inr ⟨rfl, by simp only; omega⟩
  · -- the line of the first offset would start behind the second one
    exfalso
    have hlength : i < ix.starts.length := (List.getElem?_eq_some_iff.mp hla.starts).1
    obtain ⟨next, hnext⟩ : ∃ next, ix.starts[j + 1]? = some next :=
      ⟨_, List.getElem?_eq_getElem (by omega)⟩
    have hle' : next ≤ start := by
      rcases Nat.lt_or_eq_of_le (Nat.succ_le_of_lt hgt) with hlt | rfl
      · exact Nat.le_of_lt (h.getElem?_lt hlt hnext hla.starts)
      · exact Nat.le_of_eq (Option.some.inj (hnext.symm.trans hla.starts))
    have hlt := hlb.lt_next next hnext
    omega

theorem position_of_size_le (ha : ix.size ≤ a) : ix.position a = ix.position ix.size := by
  rw [position, position, Nat.min_eq_right ha, Nat.min_self]

/-! ### Refused positions -/

theorem lineStart?_eq_none_iff (line : Nat) :
    ix.lineStart? line = none ↔ line = 0 ∨ ix.lineCount < line := by
  unfold lineStart? lineCount
  split
  · next hzero => exact iff_of_true rfl (Or.inl hzero)
  · next hpos =>
    rw [List.getElem?_eq_none_iff]
    omega

theorem offset?_eq_lineOutOfRange_iff (p : Position) (line count : Nat) :
    ix.offset? p = .error (.lineOutOfRange line count) ↔
      (p.line = 0 ∨ ix.lineCount < p.line) ∧ line = p.line ∧ count = ix.lineCount := by
  rw [← lineStart?_eq_none_iff, offset?]
  cases ix.lineStart? p.line with
  | none => simp [eq_comm]
  | some start =>
    simp only
    split <;> simp

theorem offset?_eq_columnOutOfRange_iff (p : Position) (line column length : Nat) :
    ix.offset? p = .error (.columnOutOfRange line column length) ↔
      (∃ start, ix.lineStart? p.line = some start ∧ length = ix.lineEnd p.line - start) ∧
        length < p.column ∧ line = p.line ∧ column = p.column := by
  rw [offset?]
  cases ix.lineStart? p.line with
  | none => simp
  | some start =>
    simp only
    split
    · -- the error names the numbers of the line
      next hlt =>
      rw [Except.error.injEq, PositionError.columnOutOfRange.injEq]
      constructor
      · rintro ⟨rfl, rfl, rfl⟩
        exact ⟨⟨start, rfl, rfl⟩, hlt, rfl, rfl⟩
      · rintro ⟨⟨start', hs, rfl⟩, -, rfl, rfl⟩
        obtain rfl := Option.some.inj hs
        exact ⟨rfl, rfl, rfl⟩
    · next hle =>
      refine iff_of_false nofun ?_
      rintro ⟨⟨start', hs, rfl⟩, hlt, -⟩
      obtain rfl := Option.some.inj hs
      exact hle hlt

/-! ### Differences that are checked -/

/-- The position of an offset, by halving and with a checked difference. -/
def positionChecked? (ix : LineIndex) (offset : Nat) : Option Position := do
  let offset := min offset ix.size
  let i := lineOfSearch (search ix.starts offset)
  let start ← ix.starts[i]?
  let column ← sub? offset start
  return ⟨i + 1, column⟩

/-- Where a line ends, with lines counted from zero and a checked difference. -/
def lineEndChecked? (ix : LineIndex) (i : Nat) : Option Nat :=
  match ix.starts[i + 1]? with
  | some next => sub? next 1
  | none => some ix.size

/-- The offset of a position, with checked differences. Only the first one may be refused: then the
line is zero, which is answered with an error. -/
def offsetChecked? (ix : LineIndex) (p : Position) : Option (Except PositionError Nat) :=
  match (sub? p.line 1).bind (ix.starts[·]?) with
  | none => some (.error (.lineOutOfRange p.line ix.lineCount))
  | some start => do
    let stop ← ix.lineEndChecked? (← sub? p.line 1)
    let length ← sub? stop start
    return if p.column > length then .error (.columnOutOfRange p.line p.column length)
      else .ok (start + p.column)

theorem Anchored.positionChecked?_eq (h : ix.Anchored) (a : Nat) :
    ix.positionChecked? a = some (ix.position a) := by
  obtain ⟨start, hl⟩ := h.onLine_search (min a ix.size)
  have hposition : ix.position a = ix.position (min a ix.size) := by
    rw [position, position, Nat.min_assoc, Nat.min_self]
  rw [hposition, hl.position_eq h.toOrdered (Nat.min_le_right a ix.size), positionChecked?,
    hl.starts]
  change (sub? (min a ix.size) start).bind _ = _
  rw [sub?_eq_some hl.start_le]
  rfl

/-- A later line does not start at zero, so there is a byte before it. -/
theorem Ordered.lineEndChecked?_eq (h : ix.Ordered) (hget : ix.starts[i]? = some start) :
    ix.lineEndChecked? i = some (ix.lineEnd (i + 1)) := by
  rw [lineEndChecked?, lineEnd]
  cases hnext : ix.starts[i + 1]? with
  | none => rfl
  | some next =>
    have hlt : start < next := h.getElem?_lt (Nat.lt_succ_self i) hget hnext
    exact sub?_eq_some (by omega)

theorem Ordered.offsetChecked?_eq (h : ix.Ordered) (p : Position) :
    ix.offsetChecked? p = some (ix.offset? p) := by
  have hstart : (sub? p.line 1).bind (ix.starts[·]?) = ix.lineStart? p.line := by
    unfold lineStart? sub?
    by_cases hzero : p.line = 0
    · rw [if_pos hzero, if_neg (by omega)]
      rfl
    · rw [if_neg hzero, if_pos (by omega)]
      rfl
  rw [offsetChecked?, offset?, hstart]
  -- a line that exists is not zero, and does not end before it starts
  cases hs : ix.lineStart? p.line with
  | none => rfl
  | some start =>
    obtain ⟨hpos, hget⟩ := lineStart?_eq_some hs
    have hend : ix.lineEndChecked? (p.line - 1) = some (ix.lineEnd p.line) := by
      rw [h.lineEndChecked?_eq hget, Nat.sub_add_cancel hpos]
    simp only [sub?_eq_some hpos, Option.bind_eq_bind, Option.bind_some, hend,
      sub?_eq_some (h.lineStart_le_lineEnd hs)]
    rfl

/-! ### Texts -/

/-- The length of a line is that of a part between the newline bytes. -/
theorem exists_lineLength_iff (bs : List UInt8) (line length : Nat) :
    (∃ start, (ofBytes bs).lineStart? line = some start ∧
      length = (ofBytes bs).lineEnd line - start) ↔
    0 < line ∧ ∃ part, (bs.splitOn newlineByte)[line - 1]? = some part ∧ length = part.length := by
  constructor
  · rintro ⟨start, hs, rfl⟩
    obtain ⟨hpos, hget⟩ := lineStart?_eq_some hs
    -- there are as many lines as parts
    have hlt : line - 1 < (bs.splitOn newlineByte).length := by
      rw [length_splitOn, ← lineCount_ofBytes]
      exact (List.getElem?_eq_some_iff.mp hget).1
    obtain ⟨start', hs', hend⟩ := lineSpan_ofBytes (List.getElem?_eq_getElem hlt)
    rw [Nat.sub_add_cancel hpos] at hs' hend
    obtain rfl := Option.some.inj (hs.symm.trans hs')
    exact ⟨hpos, _, List.getElem?_eq_getElem hlt, by rw [hend, Nat.add_sub_cancel_left]⟩
  · rintro ⟨hpos, part, hpart, rfl⟩
    obtain ⟨start, hs, hend⟩ := lineSpan_ofBytes hpart
    rw [Nat.sub_add_cancel hpos] at hs hend
    exact ⟨start, hs, by rw [hend, Nat.add_sub_cancel_left]⟩

/-- **Offsets and positions of a text.** For every text, with its bytes and the lines between its
newline bytes:

* positions ascend strictly with the offsets up to the end, every such offset is that of its
  position, and every position that has an offset is the position of that offset, which is one up to
  the end;
* offsets past the end have the position of the end;
* a position has no offset for the sake of its line if and only if the line is zero or greater than
  one more than the number of newline bytes, and for the sake of its column if and only if the line
  exists and the column is greater than its length without the newline; the errors name these
  numbers;
* no difference on the way is negative, and the search by halving finds the line. -/
theorem ofText_orderIso (text : String) :
    (∀ a b, a < b → b ≤ (Text.bytes text).length →
      (ofText text).position a < (ofText text).position b) ∧
    (∀ a, a ≤ (Text.bytes text).length →
      (ofText text).offset? ((ofText text).position a) = .ok a) ∧
    (∀ p a, (ofText text).offset? p = .ok a →
      a ≤ (Text.bytes text).length ∧ (ofText text).position a = p) ∧
    (∀ a, (Text.bytes text).length ≤ a →
      (ofText text).position a = (ofText text).position (Text.bytes text).length) ∧
    (∀ p line count, (ofText text).offset? p = .error (.lineOutOfRange line count) ↔
      (p.line = 0 ∨ 1 + (Text.bytes text).count newlineByte < p.line) ∧
        line = p.line ∧ count = 1 + (Text.bytes text).count newlineByte) ∧
    (∀ p line column length,
      (ofText text).offset? p = .error (.columnOutOfRange line column length) ↔
        (0 < p.line ∧ ∃ part, ((Text.bytes text).splitOn newlineByte)[p.line - 1]? = some part ∧
          length = part.length) ∧ length < p.column ∧ line = p.line ∧ column = p.column) ∧
    (∀ a, (ofText text).positionChecked? a = some ((ofText text).position a)) ∧
    ∀ p, (ofText text).offsetChecked? p = some ((ofText text).offset? p) := by
  -- all but the numbers in the errors holds of any index with its first line at zero
  have h : (ofText text).Anchored := anchored_ofText text
  have hbytes : ofText text = ofBytes (Text.bytes text) := ofText_eq_ofBytes text
  have hsize : (ofText text).size = (Text.bytes text).length := by rw [hbytes]; rfl
  have hcount : (ofText text).lineCount = 1 + (Text.bytes text).count newlineByte := by
    rw [hbytes, lineCount_ofBytes]
  rw [← hsize, ← hcount]
  refine ⟨fun a b hab hb => h.position_lt hab hb, fun a ha => h.offset?_position ha,
    fun p a hp => h.position_offset? hp, fun a ha => position_of_size_le ha,
    offset?_eq_lineOutOfRange_iff, fun p line column length => ?_, h.positionChecked?_eq,
    h.offsetChecked?_eq⟩
  rw [offset?_eq_columnOutOfRange_iff, hbytes, exists_lineLength_iff]

end LineIndex

end EditorInsight
