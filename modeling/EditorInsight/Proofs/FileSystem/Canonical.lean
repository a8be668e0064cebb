import EditorInsight.Proofs.FileSystem.Trees

/-!
# Paths without links

Whatever a path goes through, it comes to an entry that has a place in the tree, and this place has a path
of its own: the names from the root, one after the other. No link is on the way, so this path leads there
by itself, and no other path of that kind does.

* `FileSystem.at?_of_walk`: what a walk comes to is what is at its place.
* `FileSystem.components_absolute` and `FileSystem.absolute_inj`: the path of a place is its names.
* `FileSystem.WellFormed.trace_absolute` and `FileSystem.WellFormed.canonical?_absolute`: the path leads to
  the place and is already without links.
* `FileSystem.canonical?_of_find`: so every path that leads to something has one, and
  `FileSystem.WellFormed.canonical?_canonical?`: it stays what it is.
* `FileSystem.find_of_leadsTo`: where a path leads can be evaluated.
-/

namespace EditorInsight.FileSystem

variable {fs : FileSystem} {location names here : List String} {e : Entry} {p : Path}

/-! ### Where a walk comes to -/

/-- **A walk comes to what is there**, and to a link only if it is asked for the entry itself. -/
theorem at?_of_walk {last : LastPart} {links : Nat} {ps : List String} (hdir : fs.IsDirectoryAt here)
    (h : fs.walk last links here ps = .ok (.occupied location e)) :
    fs.at? location = some e ∧ (last ≠ .entry → e.isLink = false) := by
  -- by induction on the walk; the directory it is in stays one of the tree, which is `hdir`
  fun_induction walk fs last links here ps with
  | case1 links here =>
    obtain ⟨entries, hat⟩ := hdir
    have hentries : fs.entriesAt? here = some entries := by
      rw [entriesAt?, show fs.rootEntry.follow? here = _ from hat]
    cases h
    rw [hentries]
    exact ⟨hat, fun _ => rfl⟩
  | case2 links here part rest hname ih => exact ih hdir h
  | case3 links here part rest hname hup ih => exact ih hdir.dropLast h
  | case8 links here part rest hname hup hslash hshort entries hat ih =>
    rw [lookup_entriesAt?] at hat
    exact ih ⟨entries, hat⟩ h
  | case9 links here part rest hname hup hslash hshort mode contents hat hrest =>
    rw [lookup_entriesAt?] at hat
    cases h
    exact ⟨hat, fun _ => rfl⟩
  | case11 links here part rest hname hup hslash hshort target hat hend =>
    -- a link at the end is what a walk comes to only if the entry itself is asked for
    rw [lookup_entriesAt?] at hat
    rw [Bool.and_eq_true, decide_eq_true_iff] at hend
    cases h
    exact ⟨hat, fun hlast => absurd hend.2 hlast⟩
  | case13 here part rest hname hup hslash hshort target hat hgoes links cs ih =>
    -- the parts of the link come next, from the root or from the directory that the link is in
    have hnext : fs.IsDirectoryAt (if target.toList.head? == some '/' then [] else here) := by
      split
      · exact fs.isDirectoryAt_nil
      · exact hdir
    simp only [dite_eq_ite] at ih
    exact ih hnext h
  -- the walk fails, or comes to a place where nothing is
  | case4 | case5 | case6 | case7 | case10 | case12 => cases h

/-- What is found is what a walk comes to, if the system takes the path. -/
theorem find_eq_ok_iff : fs.find p = .ok (location, e) ↔ p.text.toList.contains '\x00' = false ∧
    isTooLong p = false ∧ fs.trace .target p = .ok (.occupied location e) := by
  constructor
  · intro h
    rw [find] at h
    obtain ⟨place, hplace, h⟩ := bind_eq_ok h
    cases place with
    | vacant dir name => cases h
    | occupied location' e' =>
      cases h
      rw [locate] at hplace
      split at hplace
      · cases hplace
      · next hnull =>
        split at hplace
        · cases hplace
        · next hlong => exact ⟨Bool.eq_false_iff.mpr hnull, Bool.eq_false_iff.mpr hlong, hplace⟩
  · rintro ⟨hnull, hshort, htrace⟩
    rw [find, locate, hnull, hshort, htrace]
    rfl

theorem trace_eq_ok (h : fs.find p = .ok (location, e)) :
    fs.trace .target p = .ok (.occupied location e) :=
  (find_eq_ok_iff.mp h).2.2

/-- What a path leads to is at its place, and it is no link. -/
theorem WellFormed.at?_of_trace (h : fs.WellFormed)
    (htrace : fs.trace .target p = .ok (.occupied location e)) :
    fs.at? location = some e ∧ e.isLink = false := by
  rw [trace] at htrace
  have hfrom : fs.IsDirectoryAt (if p.isAbsolute then [] else fs.current) := by
    split
    · exact fs.isDirectoryAt_nil
    · exact h.current
  split at htrace
  · cases htrace
  · obtain ⟨hat, hlink⟩ := at?_of_walk hfrom htrace
    exact ⟨hat, hlink (by decide)⟩

theorem WellFormed.at?_of_find (h : fs.WellFormed) (hfind : fs.find p = .ok (location, e)) :
    fs.at? location = some e ∧ e.isLink = false :=
  h.at?_of_trace (trace_eq_ok hfind)

/-- The entries of what a path leads to are those of a directory, or there are none. -/
theorem entriesOf_eq_nil_or (fs : FileSystem) (p : Path) :
    fs.entriesOf p = [] ∨ ∃ location, fs.find p = .ok (location, .directory (fs.entriesOf p)) := by
  rw [entriesOf, find?]
  cases fs.find p with
  | error e => exact Or.inl rfl
  | ok found =>
    obtain ⟨location, e⟩ := found
    cases e with
    | directory entries => exact Or.inr ⟨location, rfl⟩
    | file mode contents => exact Or.inl rfl
    | link target => exact Or.inl rfl

/-! ### The path of a place -/

theorem splitSlashes_intercalate {parts : List (List Char)} (hne : parts ≠ [])
    (h : ∀ part ∈ parts, '/' ∉ part) :
    Path.splitSlashes (['/'].intercalate parts) = parts := by
  induction parts with
  | nil => exact absurd rfl hne
  | cons part rest ih =>
    have hpart := Path.splitSlashes_of_not_mem (h part List.mem_cons_self)
    cases rest with
    | nil => rw [List.intercalate_singleton, hpart]
    | cons next rest =>
      have hrest := ih (List.cons_ne_nil _ _) fun p hp => h p (List.mem_cons_of_mem part hp)
      rw [List.intercalate_cons_cons, List.append_assoc, List.singleton_append,
        Path.splitSlashes_append_slash, hpart, hrest, List.singleton_append]

theorem toList_absolute (location : List String) :
    (absolute location).text.toList = '/' :: ['/'].intercalate (location.map String.toList) := by
  rw [absolute, String.toList_append, String.toList_intercalate]
  rfl

theorem mem_intercalate {c : Char} {parts : List (List Char)} (h : c ∈ ['/'].intercalate parts) :
    c = '/' ∨ ∃ part ∈ parts, c ∈ part := by
  induction parts with
  | nil => cases h
  | cons part rest ih =>
    cases rest with
    | nil => exact Or.inr ⟨part, List.mem_cons_self, by rwa [List.intercalate_singleton] at h⟩
    | cons next rest =>
      rw [List.intercalate_cons_cons, List.mem_append, List.mem_append, List.mem_singleton] at h
      rcases h with (hpart | hslash) | hrest
      · exact Or.inr ⟨part, List.mem_cons_self, hpart⟩
      · exact Or.inl hslash
      · exact (ih hrest).imp_right fun ⟨p, hp, hc⟩ => ⟨p, List.mem_cons_of_mem part hp, hc⟩

theorem parts_append_slash (cs ds : List Char) : parts (cs ++ '/' :: ds) = parts cs ++ parts ds := by
  rw [parts, Path.splitSlashes_append_slash, List.map_append]
  rfl

/-- The parts of a row of names are the names. -/
theorem parts_intercalate (hne : names ≠ []) (hnames : ∀ name ∈ names, Path.IsName name) :
    parts (['/'].intercalate (names.map String.toList)) = names := by
  have hslash : ∀ part ∈ names.map String.toList, '/' ∉ part := by
    intro part hpart
    obtain ⟨name, hname, rfl⟩ := List.mem_map.mp hpart
    exact (hnames name hname).noSlash
  rw [parts, splitSlashes_intercalate (mt List.map_eq_nil_iff.mp hne) hslash, List.map_map]
  exact (List.map_congr_left fun name _ => String.ofList_toList).trans (List.map_id' names)

/-- The parts of the path of a place are its names, behind the empty part in front. -/
theorem parts_absolute (hne : location ≠ []) (hnames : ∀ name ∈ location, Path.IsName name) :
    parts (absolute location).text.toList = "" :: location := by
  rw [toList_absolute]
  exact (parts_append_slash [] _).trans (congrArg _ (parts_intercalate hne hnames))

theorem null_not_mem_intercalate (hnames : ∀ name ∈ names, isEntryName name = true) :
    '\x00' ∉ ['/'].intercalate (names.map String.toList) := by
  intro hmem
  rcases mem_intercalate hmem with hslash | ⟨part, hpart, hc⟩
  · exact absurd hslash (by decide)
  · obtain ⟨name, hname, rfl⟩ := List.mem_map.mp hpart
    exact null_not_mem_of_isEntryName (hnames name hname) hc

theorem bodyOf_intercalate (hnames : ∀ name ∈ names, Path.IsName name) :
    Path.bodyOf (['/'].intercalate (names.map String.toList)) = names.map .name := by
  induction names with
  | nil => rfl
  | cons name rest ih =>
    have hname := (hnames name List.mem_cons_self).bodyOf_eq
    cases rest with
    | nil => rw [List.map_singleton, List.intercalate_singleton, hname, List.map_singleton]
    | cons next rest =>
      have hrest := ih fun s hs => hnames s (List.mem_cons_of_mem name hs)
      rw [List.map_cons, List.map_cons, List.intercalate_cons_cons, List.append_assoc,
        List.singleton_append, Path.bodyOf_append_slash, hname, ← List.map_cons, hrest]
      rfl

/-- The components of the path of a place are its names, behind the root. -/
theorem components_absolute (hnames : ∀ name ∈ location, Path.IsName name) :
    (absolute location).components = .root :: location.map .name := by
  have hbody : Path.bodyOf (absolute location).text.toList = location.map .name := by
    rw [toList_absolute, ← bodyOf_intercalate hnames]
    exact Path.bodyOf_append_slash [] _
  rw [Path.components, Path.componentsOf_eq, hbody, toList_absolute]
  rfl

/-- Different places have different paths. -/
theorem absolute_inj (hlocation : ∀ name ∈ location, Path.IsName name)
    (hnames : ∀ name ∈ names, Path.IsName name)
    (h : (absolute location).components = (absolute names).components) : location = names := by
  rw [components_absolute hlocation, components_absolute hnames] at h
  exact List.map_injective_iff.mpr (fun _ _ => Component.name.inj) (List.cons.inj h).2

theorem isAbsolute_absolute (location : List String) : (absolute location).isAbsolute = true :=
  Path.isAbsolute_iff.mpr (by rw [toList_absolute]; rfl)

/-! ### The path leads to the place -/

/-- **Names lead to their place**: no link is on the way to an entry that has one. -/
theorem walk_names {links : Nat} (hdir : fs.IsDirectoryAt here) (hat : fs.at? (here ++ names) = some e)
    (hlink : e.isLink = false) (hnames : ∀ name ∈ names, asksForEntry name = true) :
    fs.walk .target links here names = .ok (.occupied (here ++ names) e) := by
  induction names generalizing here with
  | nil =>
    obtain ⟨entries, hhere⟩ := hdir
    rw [List.append_nil] at hat ⊢
    have hentries : fs.entriesAt? here = some entries := by
      rw [entriesAt?, show fs.rootEntry.follow? here = _ from hhere]
    rw [walk, hentries, Option.getD_some, Option.some.inj (hat.symm.trans hhere)]
  | cons name rest ih =>
    obtain ⟨hname, hrest⟩ := List.forall_mem_cons.mp hnames
    simp only [asksForEntry, Bool.and_eq_true, Bool.not_eq_true', decide_eq_true_iff,
      Bool.or_eq_false_iff] at hname
    obtain ⟨⟨hempty, hdots⟩, hshort⟩ := hname
    have hnext : here ++ name :: rest = here ++ [name] ++ rest := by
      rw [List.append_assoc, List.singleton_append]
    rw [hnext] at hat ⊢
    rw [walk_name links here (by rw [hempty.1, hempty.2]; decide) (by rw [hdots]; decide) (by simp)
      (Nat.not_lt.mpr hshort)]
    have hbind := hat
    rw [at?_append] at hbind
    obtain ⟨step, hstep, hfollow⟩ := Option.bind_eq_some_iff.mp hbind
    rw [hstep]
    -- names follow only behind a directory, so a file is the last one, and so is a link, which is ruled out
    cases step with
    | directory entries => exact ih ⟨entries, hstep⟩ hat hrest
    | file mode contents =>
      cases rest with
      | nil =>
        cases hfollow
        rw [List.append_nil]
        rfl
      | cons next rest => cases hfollow
    | link target =>
      cases rest with
      | nil =>
        cases hfollow
        cases hlink
      | cons next rest => cases hfollow

theorem WellFormed.trace_absolute (h : fs.WellFormed) (hat : fs.at? location = some e)
    (hlink : e.isLink = false) : fs.trace .target (absolute location) = .ok (.occupied location e) := by
  have hnames : ∀ name ∈ location, isEntryName name = true := fun _ => h.isEntryName_of_mem hat
  have hempty : ¬ (absolute location).text.isEmpty = true := by
    rw [String.isEmpty_iff, ← String.toList_eq_nil_iff, toList_absolute]
    exact List.cons_ne_nil _ _
  rw [trace, if_neg hempty, isAbsolute_absolute, if_pos rfl]
  by_cases hroot : location = []
  · subst hroot
    -- the path of the root has two parts, and both stay where they are
    have hparts : parts (absolute []).text.toList = ["", ""] := by decide
    rw [hparts, walk, if_pos (by decide), walk, if_pos (by decide)]
    exact walk_names fs.isDirectoryAt_nil hat hlink (List.forall_mem_nil _)
  · rw [parts_absolute hroot fun name hname => isName_of_isEntryName (hnames name hname), walk,
      if_pos (by decide)]
    exact walk_names fs.isDirectoryAt_nil hat hlink fun name hname =>
      asksForEntry_of_isEntryName (hnames name hname)

/-- **The path of a place is without links.** -/
theorem WellFormed.canonical?_absolute (h : fs.WellFormed) (hat : fs.at? location = some e)
    (hlink : e.isLink = false) : fs.canonical? (absolute location) = some (absolute location) := by
  rw [canonical?, h.trace_absolute hat hlink]

/-- What a path leads to has a path without links. -/
theorem canonical?_of_find (h : fs.find p = .ok (location, e)) :
    fs.canonical? p = some (absolute location) := by
  rw [canonical?, trace_eq_ok h]

theorem canonical?_eq_none (h : ∀ location e, fs.trace .target p ≠ .ok (.occupied location e)) :
    fs.canonical? p = none := by
  rw [canonical?]
  split
  · next htrace => exact absurd htrace (h _ _)
  · rfl

/-- A path without links is that of a place where something is. -/
theorem WellFormed.exists_of_canonical? (h : fs.WellFormed) {q : Path} (hq : fs.canonical? p = some q) :
    ∃ location e, q = absolute location ∧ fs.at? location = some e ∧ e.isLink = false := by
  rw [canonical?] at hq
  split at hq
  · next location e htrace => exact ⟨location, e, (Option.some.inj hq).symm, h.at?_of_trace htrace⟩
  · cases hq

/-- The components of paths without links tell the paths. -/
theorem WellFormed.eq_of_canonical? (h : fs.WellFormed) {p' q q' : Path}
    (hq : fs.canonical? p = some q) (hq' : fs.canonical? p' = some q')
    (hsame : q.components = q'.components) : q = q' := by
  obtain ⟨location, e, rfl, hat, -⟩ := h.exists_of_canonical? hq
  obtain ⟨location', e', rfl, hat', -⟩ := h.exists_of_canonical? hq'
  rw [absolute_inj (fun _ => h.isName_of_mem hat) (fun _ => h.isName_of_mem hat') hsame]

/-- **A path without links stays what it is.** -/
theorem WellFormed.canonical?_canonical? (h : fs.WellFormed) {q : Path} (hq : fs.canonical? p = some q) :
    fs.canonical? q = some q := by
  obtain ⟨location, e, rfl, hat, hlink⟩ := h.exists_of_canonical? hq
  exact h.canonical?_absolute hat hlink

/-! ### Looking up by steps

A walk goes on for as long as links and parts last. In a bounded number of steps it can be followed by
evaluation. -/

/-- The place of what a walk comes to in so many steps. -/
def placeWithin (fs : FileSystem) : Nat → Nat → List String → List String → Option (List String)
  | 0, _, _, _ => none
  | _ + 1, _, here, [] => some here
  | steps + 1, links, here, part :: rest =>
    if part == "" || part == "." then placeWithin fs steps links here rest
    else if part == ".." then placeWithin fs steps links here.dropLast rest
    else if maxName < Text.byteLength part then none
    else
      match fs.at? (here ++ [part]), links with
      | some (.directory _), links => placeWithin fs steps links (here ++ [part]) rest
      | some (.file ..), _ => if rest.isEmpty then some (here ++ [part]) else none
      | some (.link target), links + 1 =>
        placeWithin fs steps links (if target.toList.head? == some '/' then [] else here)
          (parts target.toList ++ rest)
      | _, _ => none

theorem walk_of_placeWithin {steps links : Nat} {ps : List String}
    (h : fs.placeWithin steps links here ps = some location) :
    ∃ e, fs.walk .target links here ps = .ok (.occupied location e) := by
  fun_induction placeWithin fs steps links here ps with
  | case1 => cases h
  | case2 steps links here =>
    obtain rfl := Option.some.inj h
    exact ⟨_, by rw [walk]⟩
  | case3 steps links here part rest hname ih =>
    rw [walk, if_pos hname]
    exact ih h
  | case4 steps links here part rest hname hup ih =>
    rw [walk, if_neg hname, if_pos hup]
    exact ih h
  | case5 => cases h
  | case6 steps here part rest hname hup hshort entries links hat ih =>
    rw [walk_name links here hname hup (by simp) hshort, hat]
    exact ih h
  | case7 steps links here part rest hname hup hshort mode contents hat hrest =>
    -- a file ends the path
    obtain rfl := Option.some.inj h
    rw [walk_name links here hname hup (by simp) hshort, hat]
    exact ⟨_, if_pos hrest⟩
  | case8 => cases h
  | case9 steps here part rest hname hup hshort target links hat ih =>
    -- a link is followed wherever it stands, also at the end
    rw [walk_name (links + 1) here hname hup (by simp) hshort, hat]
    simp only [decide_false, Bool.and_false, Bool.false_eq_true, if_false, reduceCtorEq]
    exact ih h
  | case10 => cases h

/-- Whether a path leads to a place, in a moderate number of steps. -/
def leadsTo (fs : FileSystem) (p : Path) (location : List String) : Bool :=
  !(p.text.toList.contains '\x00' || isTooLong p || p.text.isEmpty) &&
    fs.placeWithin 64 maxLinks (if p.isAbsolute then [] else fs.current) (parts p.text.toList)
      == some location

theorem find_of_leadsTo (h : fs.WellFormed) (hleads : fs.leadsTo p location = true)
    (hat : fs.at? location = some e) : fs.find p = .ok (location, e) := by
  simp only [leadsTo, Bool.and_eq_true, Bool.not_eq_true', Bool.or_eq_false_iff, beq_iff_eq] at hleads
  obtain ⟨⟨⟨hnull, hlong⟩, hempty⟩, hplace⟩ := hleads
  obtain ⟨e', hwalk⟩ := walk_of_placeWithin hplace
  have hfind : fs.find p = .ok (location, e') := by
    refine find_eq_ok_iff.mpr ⟨hnull, hlong, ?_⟩
    rw [trace, if_neg (Bool.eq_false_iff.mp hempty), hwalk]
  rw [hfind, Option.some.inj (hat.symm.trans (h.at?_of_find hfind).1)]

end EditorInsight.FileSystem
