import EditorInsight.Proofs.Character

/-!
# The longest run around an offset

The run that touches an offset is found by two scans, one to each side. Where in the run they start
makes no difference: together they always go from a place where no class member comes before to a
place where none follows. So an offset that is touched by a class member has one run, and all
boundaries of that run have it too.

* `Within`, `EndsOutside` and `BeginsOutside` say of a part of a text how it stands to a class, and
  `takeWhile_append_eq` and `trailingRun_append_eq` are the two scans.
* `IsLongestRun` says of a stretch that it is a run that cannot be made longer.
* `runAt?_append` is the run of an offset for any way to write the text around it;
  `runAt?_eq_some_iff` and `runAt?_eq_none_iff` say which run is found and when there is none.
* `identifierAt?_exact` is this for identifiers.
-/

namespace EditorInsight

open Text

section Runs

variable {member : Char → Bool} {cs before left right run after : List Char} {n start stop : Nat}

/-! ### Scans -/

/-- Whether all characters are class members. -/
def Within (member : Char → Bool) (cs : List Char) : Prop := ∀ c ∈ cs, member c = true

/-- Whether no class member stands at the end. -/
def EndsOutside (member : Char → Bool) (cs : List Char) : Prop :=
  ∀ c, cs.getLast? = some c → member c = false

/-- Whether no class member stands at the beginning. -/
def BeginsOutside (member : Char → Bool) (cs : List Char) : Prop :=
  ∀ c, cs.head? = some c → member c = false

theorem Within.append (hleft : Within member left) (hright : Within member right) :
    Within member (left ++ right) := by
  intro c hc
  rcases List.mem_append.mp hc with hc | hc
  · exact hleft c hc
  · exact hright c hc

/-- A scan to the right takes a run and stops behind it. -/
theorem takeWhile_append_eq (hrun : Within member run) (hafter : BeginsOutside member after) :
    (run ++ after).takeWhile member = run := by
  have hnone : after.takeWhile member = [] := by
    cases after with
    | nil => rfl
    | cons c cs => exact List.takeWhile_cons_of_neg (by simp [hafter c rfl])
  rw [List.takeWhile_append_of_pos hrun, hnone, List.append_nil]

/-- A scan to the left takes a run and stops before it. -/
theorem trailingRun_append_eq (hbefore : EndsOutside member before) (hrun : Within member run) :
    trailingRun member (before ++ run) = run := by
  have hrun' : Within member run.reverse := fun c hc => hrun c (List.mem_reverse.mp hc)
  have hbefore' : BeginsOutside member before.reverse := by
    intro c hc
    rw [List.head?_reverse] at hc
    exact hbefore c hc
  rw [trailingRun, List.reverse_append, takeWhile_append_eq hrun' hbefore', List.reverse_reverse]

theorem exists_leading_run (member : Char → Bool) (cs : List Char) :
    ∃ run after, cs = run ++ after ∧ Within member run ∧ BeginsOutside member after := by
  refine ⟨cs.takeWhile member, cs.dropWhile member, List.takeWhile_append_dropWhile.symm, ?_, ?_⟩
  · exact List.all_eq_true.mp List.all_takeWhile
  · intro c hc
    have hnot := List.head?_dropWhile_not member cs
    rw [hc] at hnot
    exact hnot

theorem exists_trailing_run (member : Char → Bool) (cs : List Char) :
    ∃ before run, cs = before ++ run ∧ EndsOutside member before ∧ Within member run := by
  obtain ⟨run, after, hcs, hrun, hafter⟩ := exists_leading_run member cs.reverse
  refine ⟨after.reverse, run.reverse, ?_, ?_, fun c hc => hrun c (List.mem_reverse.mp hc)⟩
  · rw [← List.reverse_append, ← hcs, List.reverse_reverse]
  · intro c hc
    rw [List.getLast?_reverse] at hc
    exact hafter c hc

/-! ### The run of an offset -/

/-- Whether a stretch of a text is a run of class members, at least one, that can be made longer on
neither side. -/
def IsLongestRun (member : Char → Bool) (cs : List Char) (start stop : Nat) : Prop :=
  ∃ before run after, cs = before ++ run ++ after ∧ run ≠ [] ∧ Within member run ∧
    EndsOutside member before ∧ BeginsOutside member after ∧
    start = width before ∧ stop = width (before ++ run)

/-- Whether a class member stands before an offset or behind it. -/
def Touches (member : Char → Bool) (cs : List Char) (n : Nat) : Prop :=
  ∃ before after, cs = before ++ after ∧ width before = n ∧
    ∃ c, (before.getLast? = some c ∨ after.head? = some c) ∧ member c = true

/-- **Both scans** meet in one run, wherever it is divided. -/
theorem runAt?_append (hbefore : EndsOutside member before) (hleft : Within member left)
    (hright : Within member right) (hafter : BeginsOutside member after) :
    runAt? member (before ++ left ++ (right ++ after)) (width (before ++ left))
      = if left ++ right = [] then none
        else some (width before, width (before ++ (left ++ right))) := by
  rw [runAt?, cutAt?_append]
  simp only [Option.bind_eq_bind, Option.bind_some]
  rw [trailingRun_append_eq hbefore hleft, takeWhile_append_eq hright hafter]
  have hstart : width (before ++ left) - width left = width before := by
    rw [width_append, Nat.add_sub_cancel]
  have hstop : width (before ++ left) + width right = width (before ++ (left ++ right)) := by
    rw [width_append, width_append, width_append, Nat.add_assoc]
  rw [hstart, hstop]
  -- there is a run unless nothing belongs to it on either side
  by_cases hempty : left ++ right = []
  · rw [if_pos hempty, if_neg (by rw [hempty, List.append_nil]; exact Nat.lt_irrefl _)]
  · have hpos := width_pos hempty
    rw [if_neg hempty, if_pos (by rw [width_append]; omega)]

/-- Every cut of a text goes through a run, which may be empty. -/
theorem exists_run_of_isBoundary (member : Char → Bool) (h : isBoundary cs n = true) :
    ∃ before left right after, cs = before ++ left ++ (right ++ after) ∧
      n = width (before ++ left) ∧ EndsOutside member before ∧ Within member left ∧
      Within member right ∧ BeginsOutside member after := by
  obtain ⟨first, second, rfl, rfl⟩ := isBoundary_iff_exists_append.mp h
  obtain ⟨before, left, rfl, hbefore, hleft⟩ := exists_trailing_run member first
  obtain ⟨right, after, rfl, hright, hafter⟩ := exists_leading_run member second
  exact ⟨before, left, right, after, rfl, rfl, hbefore, hleft, hright, hafter⟩

/-- **What is found** is the longest run, if the offset is one of its boundaries. -/
theorem runAt?_eq_some_iff : runAt? member cs n = some (start, stop) ↔
    IsLongestRun member cs start stop ∧ start ≤ n ∧ n ≤ stop ∧ isBoundary cs n = true := by
  constructor
  · intro h
    have hn : isBoundary cs n = true := by
      obtain ⟨parts, hcut, -⟩ := Option.bind_eq_some_iff.mp h
      exact Option.isSome_iff_exists.mpr ⟨parts, hcut⟩
    -- the text is cut at the offset and at both ends of the run around it
    obtain ⟨before, left, right, after, rfl, rfl, hbefore, hleft, hright, hafter⟩ :=
      exists_run_of_isBoundary member hn
    rw [runAt?_append hbefore hleft hright hafter] at h
    split at h
    · cases h
    · next hne =>
      obtain ⟨rfl, rfl⟩ := Prod.mk.inj (Option.some.inj h)
      refine ⟨⟨before, left ++ right, after, ?_, hne, hleft.append hright, hbefore, hafter, rfl,
        rfl⟩, ?_, ?_, hn⟩
      · simp only [List.append_assoc]
      · rw [width_append]
        exact Nat.le_add_right _ _
      · rw [← List.append_assoc, width_append (before ++ left)]
        exact Nat.le_add_right _ _
  · rintro ⟨⟨before, run, after, rfl, hne, hrun, hbefore, hafter, rfl, rfl⟩, hstart, hstop, hn⟩
    -- the offset divides the run
    obtain ⟨first, second, hcs, rfl⟩ := isBoundary_iff_exists_append.mp hn
    obtain ⟨right, hright, rfl⟩ := exists_eq_append_of_width_le hcs.symm hstop
    obtain ⟨left, rfl, rfl⟩ := exists_eq_append_of_width_le hright hstart
    have hleft : Within member left := fun c hc => hrun c (List.mem_append_left _ hc)
    have hright : Within member right := fun c hc => hrun c (List.mem_append_right _ hc)
    have hfound := runAt?_append hbefore hleft hright hafter
    rw [if_neg hne] at hfound
    rw [hcs]
    exact hfound

/-- At a boundary there is a run unless no class member touches it. -/
theorem runAt?_eq_none_iff_of_isBoundary (h : isBoundary cs n = true) :
    runAt? member cs n = none ↔ ¬ Touches member cs n := by
  obtain ⟨before, left, right, after, rfl, rfl, hbefore, hleft, hright, hafter⟩ :=
    exists_run_of_isBoundary member h
  rw [runAt?_append hbefore hleft hright hafter]
  constructor
  · rintro hnone ⟨first, second, hcs, hwidth, c, hc, hmember⟩
    obtain ⟨rfl, rfl⟩ := append_eq_append_of_width_eq hcs.symm hwidth
    have hempty : left ++ right = [] := by
      split at hnone
      · next hempty => exact hempty
      · cases hnone
    obtain ⟨rfl, rfl⟩ := List.append_eq_nil_iff.mp hempty
    -- the characters on both sides are outside
    rw [List.append_nil, List.nil_append] at hc
    rcases hc with hc | hc
    · exact Bool.false_ne_true ((hbefore c hc).symm.trans hmember)
    · exact Bool.false_ne_true ((hafter c hc).symm.trans hmember)
  · intro hnot
    refine if_pos (Classical.byContradiction fun hne => hnot ?_)
    refine ⟨before ++ left, right ++ after, rfl, rfl, ?_⟩
    rcases List.eq_nil_or_concat left with rfl | ⟨front, c, rfl⟩
    · -- the run begins at the offset
      obtain ⟨c, rest, rfl⟩ := List.exists_cons_of_ne_nil hne
      exact ⟨c, Or.inr rfl, hright c List.mem_cons_self⟩
    · refine ⟨c, Or.inl ?_, hleft c (by simp)⟩
      rw [List.concat_eq_append, ← List.append_assoc]
      exact List.getLast?_concat

theorem runAt?_eq_none_of_not_isBoundary (h : isBoundary cs n = false) :
    runAt? member cs n = none := by
  have hcut : cutAt? cs n = none := Option.isSome_eq_false_iff.mp h |> Option.isNone_iff_eq_none.mp
  rw [runAt?, hcut]
  rfl

/-- **There is no run** past the end of a text, inside a character, and where no class member is on
either side. -/
theorem runAt?_eq_none_iff : runAt? member cs n = none ↔
    width cs < n ∨ IsInside cs n ∨ ¬ Touches member cs n := by
  rw [← or_assoc, ← isBoundary_eq_false_iff]
  cases h : isBoundary cs n with
  | true => simp only [runAt?_eq_none_iff_of_isBoundary h, Bool.true_eq_false, false_or]
  | false => simp only [runAt?_eq_none_of_not_isBoundary h, true_or]

end Runs

/-- **The identifier at an offset.** There is none past the end of the text, inside a character, and
where no identifier character is on either side. Otherwise it is the longest run of identifier
characters around the offset, and it is the same at every boundary of the run. -/
theorem identifierAt?_exact (text : String) (offset : Nat) :
    (identifierAt? text offset = none ↔
      byteLength text < offset ∨ IsInside text.toList offset ∨
        ¬ Touches isIdentifierChar text.toList offset) ∧
    ∀ start stop, identifierAt? text offset = some (start, stop) →
      start < stop ∧ (start ≤ offset ∧ offset ≤ stop) ∧
      (isBoundary text.toList start = true ∧ isBoundary text.toList stop = true) ∧
      IsLongestRun isIdentifierChar text.toList start stop ∧
      ∀ n, start ≤ n → n ≤ stop → isBoundary text.toList n = true →
        identifierAt? text n = some (start, stop) := by
  refine ⟨runAt?_eq_none_iff, fun start stop h => ?_⟩
  obtain ⟨hrun, hstart, hstop, -⟩ := runAt?_eq_some_iff.mp h
  obtain ⟨hlt, -, hboundaries⟩ := (isWord_of_identifierAt? h).bounds
  refine ⟨hlt, ⟨hstart, hstop⟩, hboundaries, hrun, fun n hn hn' hboundary => ?_⟩
  exact runAt?_eq_some_iff.mpr ⟨hrun, hn, hn', hboundary⟩

/-- A name that begins with a character of two bytes: it is found at both ends, and not inside that
character. -/
theorem identifierAt?_exact_accented :
    identifierAt? "é_1 = 2" 4 = some (0, 4) ∧
    IsLongestRun isIdentifierChar "é_1 = 2".toList 0 4 ∧
    identifierAt? "é_1 = 2" 0 = some (0, 4) ∧
    IsInside "é_1 = 2".toList 1 ∧ identifierAt? "é_1 = 2" 1 = none := by
  have hfound : identifierAt? "é_1 = 2" 4 = some (0, 4) := by decide +kernel
  obtain ⟨-, -, -, hrun, hsame⟩ := (identifierAt?_exact "é_1 = 2" 4).2 0 4 hfound
  have hinside : IsInside "é_1 = 2".toList 1 :=
    ⟨0, 2, ⟨[], 'é', "_1 = 2".toList, by decide +kernel, rfl, by decide⟩, by decide, by decide⟩
  exact ⟨hfound, hrun, hsame 0 (by decide) (by decide) (by decide +kernel), hinside,
    (identifierAt?_exact "é_1 = 2" 1).1.mpr (Or.inr (Or.inl hinside))⟩

end EditorInsight
