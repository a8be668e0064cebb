import EditorInsight.Proofs.FileSystem.Canonical

/-!
# Paths below a directory

Names behind the path of a directory lead on from the directory, whatever its own path goes through.

* `Path.below` is the path of a row of names below a directory; its components tell the names.
* `FileSystem.exists_walk_append`: a walk that has come to a directory goes on from there.
* `FileSystem.WellFormed.find_below`: the path leads to the place of the names.
-/

namespace EditorInsight

namespace Path

variable {dir : Path} {names names' : List String}

/-- The path of a row of names below a directory. -/
def below (dir : Path) (names : List String) : Path := names.foldl child dir

theorem below_cons (dir : Path) (name : String) (names : List String) :
    dir.below (name :: names) = (dir.child name).below names := rfl

theorem components_below (h : ∀ name ∈ names, IsName name) (dir : Path) :
    (dir.below names).components = dir.components ++ names.map .name := by
  induction names generalizing dir with
  | nil => exact (List.append_nil _).symm
  | cons name names ih =>
    obtain ⟨hname, hnames⟩ := List.forall_mem_cons.mp h
    rw [below_cons, ih hnames, components_child hname, List.append_assoc, List.map_cons]
    rfl

theorem below_inj (h : ∀ name ∈ names, IsName name) (h' : ∀ name ∈ names', IsName name)
    (heq : (dir.below names).components = (dir.below names').components) : names = names' := by
  rw [components_below h, components_below h', List.append_cancel_left_eq] at heq
  exact List.map_injective_iff.mpr (fun _ _ => Component.name.inj) heq

theorem isAbsolute_below (h : ∀ name ∈ names, IsName name) (dir : Path) :
    (dir.below names).isAbsolute = dir.isAbsolute := by
  induction names generalizing dir with
  | nil => rfl
  | cons name names ih =>
    obtain ⟨hname, hnames⟩ := List.forall_mem_cons.mp h
    rw [below_cons, ih hnames, child, isAbsolute_join, hname.isAbsolute_eq_false, Bool.false_or]

/-- The spelling of the path is that of the directory with the names behind it. -/
theorem toList_below (hne : names ≠ []) (h : ∀ name ∈ names, IsName name) (dir : Path) :
    (dir.below names).text.toList
      = directory dir.text.toList ++ ['/'].intercalate (names.map String.toList) := by
  induction names generalizing dir with
  | nil => exact absurd rfl hne
  | cons name names ih =>
    obtain ⟨hname, hnames⟩ := List.forall_mem_cons.mp h
    have hchild : (dir.child name).text.toList = directory dir.text.toList ++ name.toList :=
      toList_join hname.isAbsolute_eq_false
    cases names with
    | nil => rw [List.map_singleton, List.intercalate_singleton, below_cons]; exact hchild
    | cons next names =>
      have hchars : name.toList ≠ [] := mt String.toList_eq_nil_iff.mp hname.ne_empty
      -- a name does not end with a slash, so one is put behind it
      have hopen : directory name.toList = name.toList ++ ['/'] :=
        if_neg (by
          simp only [Bool.or_eq_true, List.isEmpty_iff, beq_iff_eq, not_or]
          exact ⟨hchars, fun hlast => hname.noSlash (List.mem_of_getLast? hlast)⟩)
      have hcons : ['/'].intercalate ((name :: next :: names).map String.toList)
          = name.toList ++ ['/'] ++ ['/'].intercalate ((next :: names).map String.toList) :=
        List.intercalate_cons_cons ..
      rw [below_cons, ih (List.cons_ne_nil _ _) hnames, hchild, directory_append _ hchars, hopen, hcons,
        List.append_assoc]

end Path

namespace FileSystem

variable {fs : FileSystem} {here location names ps : List String} {links : Nat}
  {entries : List (String × Entry)} {e : Entry} {dir : Path}

/-- Empty parts stay where they are. -/
theorem walk_blanks {blanks : List String} (h : ∀ b ∈ blanks, b = "") :
    fs.walk .target links here blanks = fs.walk .target links here [] := by
  induction blanks with
  | nil => rfl
  | cons b blanks ih =>
    obtain ⟨rfl, hblanks⟩ := List.forall_mem_cons.mp h
    rw [← ih hblanks, walk, if_pos (by decide)]

/-- **A walk that has come to a directory** goes on from there. Slashes behind its path do not matter. -/
theorem exists_walk_append {blanks : List String} (hblanks : ∀ b ∈ blanks, b = "")
    (h : fs.walk .target links here (ps ++ blanks) = .ok (.occupied location (.directory entries))) :
    ∃ links', ∀ qs, fs.walk .target links here (ps ++ qs) = fs.walk .target links' location qs := by
  -- by induction on the walk through the parts in front: a link that is followed on the way uses up one of
  -- the links, so the walk goes on with fewer
  fun_induction walk fs .target links here ps with
  | case1 links here =>
    rw [List.nil_append, walk_blanks hblanks, walk] at h
    obtain ⟨rfl, -⟩ := Place.occupied.inj (Except.ok.inj h)
    exact ⟨links, fun qs => rfl⟩
  | case2 links here part rest hname ih =>
    simp only [List.cons_append, walk, if_pos hname] at h ⊢
    exact ih h
  | case3 links here part rest hname hup ih =>
    simp only [List.cons_append, walk, if_neg hname, if_pos hup] at h ⊢
    exact ih h
  | case4 links here part rest hname hup hslash => simp at hslash
  | case5 links here part rest hname hup hslash hlong =>
    rw [List.cons_append, walk, if_neg hname, if_neg hup, if_neg (by simp), if_pos hlong] at h
    cases h
  -- nothing or a file is no way to a directory, whether parts follow or not
  | case6 links here part rest hname hup hslash hshort hat hrest
  | case7 links here part rest hname hup hslash hshort hat hrest =>
    rw [lookup_entriesAt?] at hat
    rw [List.cons_append, walk_name links here hname hup (by simp) hshort, hat] at h
    dsimp only at h
    split at h <;> cases h
  | case8 links here part rest hname hup hslash hshort entries' hat ih =>
    rw [lookup_entriesAt?] at hat
    rw [List.cons_append, walk_name links here hname hup (by simp) hshort, hat] at h
    obtain ⟨links', hlinks⟩ := ih h
    refine ⟨links', fun qs => ?_⟩
    rw [List.cons_append, walk_name links here hname hup (by simp) hshort, hat]
    exact hlinks qs
  | case9 links here part rest hname hup hslash hshort mode contents hat hrest
  | case10 links here part rest hname hup hslash hshort mode contents hat hrest =>
    rw [lookup_entriesAt?] at hat
    rw [List.cons_append, walk_name links here hname hup (by simp) hshort, hat] at h
    dsimp only at h
    split at h <;> cases h
  | case11 links here part rest hname hup hslash hshort target hat hend => simp at hend
  | case12 here part rest hname hup hslash hshort target hat hgoes =>
    rw [lookup_entriesAt?] at hat
    rw [List.cons_append, walk_name 0 here hname hup (by simp) hshort, hat] at h
    dsimp only at h
    split at h <;> cases h
  | case13 here part rest hname hup hslash hshort target hat hgoes links cs ih =>
    rw [lookup_entriesAt?] at hat
    have hstep : ∀ qs, fs.walk .target (links + 1) here (part :: (rest ++ qs))
        = fs.walk .target links (if cs.head? == some '/' then [] else here) (parts cs ++ rest ++ qs) := by
      intro qs
      rw [walk_name (links + 1) here hname hup (by simp) hshort, hat, List.append_assoc]
      exact if_neg (by simp)
    simp only [dite_eq_ite] at ih
    rw [List.cons_append, hstep] at h
    obtain ⟨links', hlinks⟩ := ih h
    exact ⟨links', fun qs => (hstep qs).trans (hlinks qs)⟩

/-- **Names behind the path of a directory** lead on from the directory. -/
theorem WellFormed.find_below (hfs : fs.WellFormed)
    (hfind : fs.find dir = .ok (location, .directory entries))
    (hat : fs.at? (location ++ names) = some e) (hlink : e.isLink = false)
    (hshort : isTooLong (dir.below names) = false) :
    fs.find (dir.below names) = .ok (location ++ names, e) := by
  by_cases hne : names = []
  · subst hne
    rw [List.append_nil] at hat ⊢
    rw [← Option.some.inj ((hfs.at?_of_find hfind).1.symm.trans hat)]
    exact hfind
  have hproper : ∀ name ∈ names, isEntryName name = true := fun name hname =>
    hfs.isEntryName_of_mem hat (List.mem_append_right _ hname)
  have hnames : ∀ name ∈ names, Path.IsName name := fun name hname =>
    isName_of_isEntryName (hproper name hname)
  obtain ⟨hnull, -, htrace⟩ := find_eq_ok_iff.mp hfind
  rw [trace] at htrace
  split at htrace
  · cases htrace
  next hempty =>
  obtain ⟨front, hfront, hdir⟩ : ∃ front, Path.directory dir.text.toList = front ++ ['/'] ∧
      (dir.text.toList = front ++ ['/'] ∨ dir.text.toList = front) :=
    Path.exists_directory_eq fun h => hempty (String.isEmpty_iff.mpr (String.toList_eq_nil_iff.mp h))
  -- the parts of the directory's path are those in front of the names, and an empty one for a last slash
  obtain ⟨blanks, hblanks, hparts⟩ : ∃ blanks, (∀ b ∈ blanks, b = "") ∧
      parts dir.text.toList = parts front ++ blanks := by
    rcases hdir with hdir | hdir
    · exact ⟨[""], by simp, hdir ▸ parts_append_slash front []⟩
    · exact ⟨[], List.forall_mem_nil _, hdir ▸ (List.append_nil _).symm⟩
  -- so the parts of the path below are these and the names
  have hspelled : (dir.below names).text.toList
      = front ++ '/' :: ['/'].intercalate (names.map String.toList) := by
    rw [Path.toList_below hne hnames, hfront, List.append_assoc, List.singleton_append]
  have hbelow : parts (dir.below names).text.toList = parts front ++ names := by
    rw [hspelled, parts_append_slash, parts_intercalate hne hnames]
  rw [hparts] at htrace
  obtain ⟨links', hgoes⟩ := exists_walk_append hblanks htrace
  refine find_eq_ok_iff.mpr ⟨?_, hshort, ?_⟩
  -- there is no null character in front, none in a slash, and none in a proper name
  · rw [hspelled]
    refine Bool.eq_false_iff.mpr (mt List.contains_iff_mem.mp ?_)
    rw [List.mem_append, List.mem_cons]
    rintro (hin | hslash | hin)
    · refine Bool.false_ne_true (hnull.symm.trans (List.contains_iff_mem.mpr ?_))
      rcases hdir with hdir | hdir
      · exact hdir ▸ List.mem_append_left _ hin
      · exact hdir ▸ hin
    · exact absurd hslash (by decide)
    · exact null_not_mem_intercalate hproper hin
  -- the walk comes to the directory, and goes on along the names
  · rw [trace, if_neg ?_, Path.isAbsolute_below hnames, hbelow, hgoes]
    · exact walk_names ⟨entries, (hfs.at?_of_find hfind).1⟩ hat hlink fun name hname =>
        asksForEntry_of_isEntryName (hproper name hname)
    · rw [String.isEmpty_iff, ← String.toList_eq_nil_iff, hspelled]
      exact List.append_ne_nil_of_right_ne_nil _ (List.cons_ne_nil _ _)

end FileSystem

end EditorInsight
