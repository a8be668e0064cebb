import EditorInsight.FileSystem
import EditorInsight.Proofs.Association
import EditorInsight.Proofs.Except
import Mathlib.Logic.Basic

/-!
# Files that are written and read

A path is looked up part by part, through directories and links, and a write changes the tree in
which later paths are looked up. But what a write puts into the tree is a file, where a file or
nothing was before, and no walk goes through either. So a write moves no path: wherever a path leads
to a file, or to the place for a new one, it leads to the same place after any other write.

* `FileSystem.location?` is that place, by its names from the root.
* `FileSystem.location?_writeText`: writes move no path.
* `FileSystem.readText_writeText`: a path that leads to the place that was written reads what was
  written there, every other one what it read before.

All of this needs that the current directory is there, `FileSystem.HasCurrent`: relative paths start
from it.
-/

namespace EditorInsight

/-! ### Entries at the end of a row of names -/

namespace Entry

/-- What a walk sees of an entry that it goes through: of a directory only that it is one. -/
def outline : Entry → Entry
  | directory _ => directory []
  | e => e

/-- What a walk goes through: directories and links. -/
def passage? : Entry → Option Entry
  | directory _ => some (directory [])
  | link target => some (link target)
  | file _ _ => none

theorem outline_of_isFile {e : Entry} (h : e.isFile = true) : e.outline = e := by
  cases e with
  | file mode contents => rfl
  | directory entries => cases h
  | link target => cases h

theorem follow?_append (e : Entry) (l l' : List String) :
    e.follow? (l ++ l') = (e.follow? l).bind (·.follow? l') := by
  induction l generalizing e with
  | nil => rw [List.nil_append, follow?, Option.bind_some]
  | cons name l ih =>
    cases e with
    | directory entries =>
      rw [List.cons_append, follow?, follow?]
      cases entries.lookup name with
      | none => rfl
      | some e' => exact ih e'
    | file mode contents => rfl
    | link target => rfl

theorem lookup_putIn (entries : List (String × Entry)) (name : String) (e : Entry) (k : String) :
    (putIn entries name e).lookup k = if k = name then some e else entries.lookup k := by
  unfold putIn
  split
  · next hany =>
    have hmap : (fun p : String × Entry => if p.1 == name then (p.1, e) else (p.1, p.2))
        = fun p => (p.1, if p.1 = name then e else p.2) := by
      funext p
      by_cases hp : p.1 = name
      · rw [if_pos hp, if_pos (beq_iff_eq.mpr hp)]
      · rw [if_neg hp, if_neg (by simpa using hp)]
    change (entries.map fun p => if p.1 == name then (p.1, e) else (p.1, p.2)).lookup k = _
    rw [hmap, lookup_map_eq entries fun a v => if a = name then e else v]
    by_cases hk : k = name
    · -- the name is there, so it is found
      subst hk
      obtain ⟨p, hp, hpk⟩ := List.any_eq_true.mp hany
      have hfound : (entries.lookup k).isSome = true :=
        List.lookup_isSome_iff.mpr ⟨p, hp, by rw [beq_iff_eq] at hpk ⊢; exact hpk.symm⟩
      obtain ⟨v, hv⟩ := Option.isSome_iff_exists.mp hfound
      rw [hv, Option.map_some, if_pos rfl, if_pos rfl]
    · simp only [if_neg hk, Option.map_id']
  · next hany =>
    rw [List.lookup_append]
    by_cases hk : k = name
    · subst hk
      rw [lookup_eq_none_of_not_any hany, if_pos rfl, Option.none_or, List.lookup_cons_self]
    · rw [if_neg hk, List.lookup_cons, beq_eq_false_iff_ne.mpr hk]
      exact Option.or_none

/-- **A file that is put into a directory**, in place of a file or of nothing, is what its own row of
names leads to; along every other row a walk sees what it saw before. -/
theorem follow?_put {e f : Entry} (hf : f.isFile = true) {dir : List String} {name : String}
    (hdir : ∃ entries, e.follow? dir = some (.directory entries))
    (hold : ∀ x, e.follow? (dir ++ [name]) = some x → x.isFile = true) (l : List String) :
    ((e.put (dir ++ [name]) f).follow? l).map outline
      = if l = dir ++ [name] then some f else (e.follow? l).map outline := by
  obtain ⟨entries, hdir⟩ := hdir
  -- the induction is on the way to the directory
  induction dir generalizing e l with
  | nil =>
    -- the file is put into this directory
    rw [follow?] at hdir
    obtain rfl := Option.some.inj hdir
    rw [List.nil_append, put, put]
    cases l with
    | nil => rfl
    | cons k ks =>
      rw [follow?, follow?, lookup_putIn]
      by_cases hk : k = name
      · subst hk
        rw [if_pos rfl, Option.bind_some]
        cases ks with
        | nil =>
          rw [follow?, if_pos rfl, Option.map_some, outline_of_isFile hf]
        | cons k' ks =>
          -- neither the new file nor what was there before leads on
          have hnone : (entries.lookup k).bind (·.follow? (k' :: ks)) = none := by
            cases hx : entries.lookup k with
            | none => rfl
            | some x =>
              have hfile : x.isFile = true := by
                refine hold x ?_
                rw [List.nil_append, follow?, hx, Option.bind_some, follow?]
              cases x with
              | file mode contents => rfl
              | directory entries => cases hfile
              | link target => cases hfile
          rw [hnone, if_neg (by simp)]
          cases f with
          | file mode contents => rfl
          | directory entries => cases hf
          | link target => cases hf
      · rw [if_neg hk, if_neg (by simp [hk])]
  | cons d ds ih =>
    -- it is put further down, and the other entries of this directory stay
    cases e with
    | directory es =>
      rw [follow?] at hdir
      obtain ⟨e', he', hdir'⟩ := Option.bind_eq_some_iff.mp hdir
      have hold' : ∀ x, e'.follow? (ds ++ [name]) = some x → x.isFile = true := by
        intro x hx
        refine hold x ?_
        rw [List.cons_append, follow?, he', Option.bind_some, hx]
      rw [List.cons_append, put, he', Option.getD_some]
      cases l with
      | nil => rfl
      | cons k ks =>
        rw [follow?, follow?, lookup_putIn]
        by_cases hk : k = d
        · subst hk
          rw [if_pos rfl, Option.bind_some, he', Option.bind_some, ih hold' ks hdir']
          simp only [List.cons.injEq, true_and]
        · rw [if_neg hk, if_neg (by simp [hk])]
    | file mode contents => cases hdir
    | link target => cases hdir

end Entry

namespace FileSystem

/-- The entry at a row of names from the root. -/
def at? (fs : FileSystem) (location : List String) : Option Entry := fs.rootEntry.follow? location

/-- Whether a directory is at a row of names from the root. -/
def IsDirectoryAt (fs : FileSystem) (location : List String) : Prop :=
  ∃ entries, fs.at? location = some (.directory entries)

/-- Whether the current directory is there. -/
def HasCurrent (fs : FileSystem) : Prop := fs.IsDirectoryAt fs.current

variable {fs fs' : FileSystem}

theorem isDirectoryAt_nil (fs : FileSystem) : fs.IsDirectoryAt [] := ⟨fs.root, rfl⟩

theorem IsDirectoryAt.dropLast {here : List String} (h : fs.IsDirectoryAt here) :
    fs.IsDirectoryAt here.dropLast := by
  rcases List.eq_nil_or_concat here with rfl | ⟨dir, name, rfl⟩
  · exact h
  · rw [List.concat_eq_append, List.dropLast_concat]
    obtain ⟨entries, hat⟩ := h
    rw [List.concat_eq_append, at?, Entry.follow?_append] at hat
    obtain ⟨e, he, hlast⟩ := Option.bind_eq_some_iff.mp hat
    -- something is behind the name, so a directory was before it
    cases e with
    | directory es => exact ⟨es, he⟩
    | file mode contents => cases hlast
    | link target => cases hlast

/-- What a walk finds behind the next name is what is at the row with that name. -/
theorem lookup_entriesAt? (fs : FileSystem) (here : List String) (part : String) :
    ((fs.entriesAt? here).getD []).lookup part = fs.at? (here ++ [part]) := by
  rw [at?, Entry.follow?_append, entriesAt?]
  cases fs.rootEntry.follow? here with
  | none => rfl
  | some e =>
    cases e with
    | directory entries =>
      rw [Option.getD_some, Option.bind_some, Entry.follow?]
      cases entries.lookup part with
      | none => rfl
      | some e' => rw [Option.bind_some, Entry.follow?]
    | file mode contents => rfl
    | link target => rfl

/-! ### Where a path leads to -/

/-- The place of a file, or the place for a new one, that a walk has come to. -/
def fileLocation? : Except OsError Place → Option (List String)
  | .ok (.occupied location (.file _ _)) => some location
  | .ok (.vacant directory name) => some (directory ++ [name])
  | _ => none

/-- The names from the root to the file that a path leads to, or to the place where it would be
created. -/
def location? (fs : FileSystem) (p : Path) : Option (List String) :=
  fileLocation? (fs.locate .file p)

/-- What is at a name in a directory, as the end of a walk. -/
def placeAt (fs : FileSystem) (directory : List String) (name : String) : Place :=
  match fs.at? (directory ++ [name]) with
  | some e => .occupied (directory ++ [name]) e
  | none => .vacant directory name

/-- A dot stays where it is. -/
theorem walk_dot (last : LastPart) (links : Nat) (here rest : List String) :
    fs.walk last links here ("." :: rest) = fs.walk last links here rest := by
  rw [walk]
  exact if_pos rfl

/-- A walk over a name that asks the directory for it. -/
theorem walk_name {last : LastPart} {part : String} {rest : List String} (links : Nat)
    (here : List String) (hname : ¬ (part == "" || part == ".") = true)
    (hup : ¬ (part == "..") = true)
    (hslash : ¬ (last = .file && !rest.isEmpty && rest.all String.isEmpty) = true)
    (hshort : ¬ maxName < Text.byteLength part) :
    fs.walk last links here (part :: rest) =
      match fs.at? (here ++ [part]) with
      | none => if rest.isEmpty then .ok (.vacant here part) else .error .notFound
      | some (.directory _) => fs.walk last links (here ++ [part]) rest
      | some (.file mode contents) =>
        if rest.isEmpty then .ok (.occupied (here ++ [part]) (.file mode contents))
        else .error .notADirectory
      | some (.link target) =>
        if rest.isEmpty && last = .entry then .ok (.occupied (here ++ [part]) (.link target))
        else
          match links with
          | 0 => .error .tooManyLinks
          | links + 1 =>
            fs.walk last links (if target.toList.head? == some '/' then [] else here)
              (parts target.toList ++ rest) := by
  rw [← lookup_entriesAt?, walk]
  exact (if_neg hname).trans ((if_neg hup).trans ((if_neg hslash).trans (if_neg hshort)))

/-- Two trees through which every walk goes the same way: they have the same directories and the same
links at the same places. -/
def SameWays (fs fs' : FileSystem) : Prop :=
  ∀ l, (fs.at? l).bind Entry.passage? = (fs'.at? l).bind Entry.passage?

theorem SameWays.isDirectoryAt (h : SameWays fs fs') {l : List String} (hl : fs.IsDirectoryAt l) :
    fs'.IsDirectoryAt l := by
  obtain ⟨entries, hat⟩ := hl
  have hpass := h l
  rw [hat, Option.bind_some] at hpass
  obtain ⟨e, he, hdir⟩ := Option.bind_eq_some_iff.mp hpass.symm
  cases e with
  | directory entries' => exact ⟨entries', he⟩
  | file mode contents => cases hdir
  | link target => cases hdir

theorem SameWays.at?_link (h : SameWays fs fs') {l : List String} {target : String}
    (hl : fs.at? l = some (.link target)) : fs'.at? l = some (.link target) := by
  have hpass := h l
  rw [hl, Option.bind_some] at hpass
  obtain ⟨e, he, hlink⟩ := Option.bind_eq_some_iff.mp hpass.symm
  cases e with
  | link target' => rwa [← Option.some.inj hlink]
  | file mode contents => cases hlink
  | directory entries => cases hlink

/-- Where slashes behind a name do not stop a walk to a file, they stop no walk. -/
theorem slashes_of_file {last : LastPart} {rest : List String}
    (h : ¬ (LastPart.file = .file && !rest.isEmpty && rest.all String.isEmpty) = true) :
    ¬ (last = .file && !rest.isEmpty && rest.all String.isEmpty) = true := by
  intro hlast
  simp only [Bool.and_eq_true, decide_true, true_and] at h hlast
  exact h ⟨hlast.1.2, hlast.2⟩

/-- A walk whose last name is neither that of a directory nor of a link ends there. -/
theorem walk_last {last : LastPart} {part : String} {rest : List String} (links : Nat)
    (here : List String) (hname : ¬ (part == "" || part == ".") = true)
    (hup : ¬ (part == "..") = true) (hshort : ¬ maxName < Text.byteLength part)
    (hrest : rest.isEmpty = true) (hend : (fs.at? (here ++ [part])).bind Entry.passage? = none) :
    fs.walk last links here (part :: rest) = .ok (fs.placeAt here part) := by
  have hslash : ¬ (last = .file && !rest.isEmpty && rest.all String.isEmpty) = true := by
    rw [hrest, Bool.not_true, Bool.and_false, Bool.false_and]
    exact Bool.false_ne_true
  rw [walk_name links here hname hup hslash hshort, placeAt]
  -- what can be walked through is a directory or a link, and this is neither
  cases hat : fs.at? (here ++ [part]) with
  | none => exact if_pos hrest
  | some e =>
    rw [hat, Option.bind_some] at hend
    cases e with
    | file mode contents => exact if_pos hrest
    | directory entries => cases hend
    | link target => cases hend

/-- **Walks along the same ways** come to the same places: where one walk has come to a file or to
the place for a new one, another walk along the same names comes to what the other tree has there,
be it that a file is wanted or what the path leads to. -/
theorem SameWays.walk_eq (h : SameWays fs fs') {links : Nat} {here ps l : List String}
    (hdir : fs.IsDirectoryAt here) (hl : fileLocation? (fs.walk .file links here ps) = some l) :
    ∃ dir name, l = dir ++ [name] ∧ fs.IsDirectoryAt dir ∧ (fs.at? l).bind Entry.passage? = none ∧
      ∀ last, last ≠ .entry → fs'.walk last links here ps = .ok (fs'.placeAt dir name) := by
  -- the cases are those of the walk; most errors and directories are no place for a file
  fun_induction walk fs .file links here ps with
  | case1 => cases hl
  | case2 links here part rest hname ih =>
    obtain ⟨dir, name, hloc, hd, hpass, hwalk⟩ := ih hdir hl
    refine ⟨dir, name, hloc, hd, hpass, fun last hlast => ?_⟩
    rw [walk, if_pos hname]
    exact hwalk last hlast
  | case3 links here part rest hname hup ih =>
    obtain ⟨dir, name, hloc, hd, hpass, hwalk⟩ := ih hdir.dropLast hl
    refine ⟨dir, name, hloc, hd, hpass, fun last hlast => ?_⟩
    rw [walk, if_neg hname, if_pos hup]
    exact hwalk last hlast
  | case4 => cases hl
  | case5 => cases hl
  | case6 links here part rest hname hup hslash hshort hat hrest =>
    -- the place for a new file
    obtain rfl := Option.some.inj hl
    rw [lookup_entriesAt?] at hat
    have hpass : (fs.at? (here ++ [part])).bind Entry.passage? = none := by rw [hat]; rfl
    exact ⟨here, part, rfl, hdir, hpass, fun last _ =>
      walk_last links here hname hup hshort hrest ((h _).symm.trans hpass)⟩
  | case7 => cases hl
  | case8 links here part rest hname hup hslash hshort entries hat ih =>
    -- a directory, which the other tree has too
    rw [lookup_entriesAt?] at hat
    obtain ⟨dir, name, hloc, hd, hpass, hwalk⟩ := ih ⟨entries, hat⟩ hl
    refine ⟨dir, name, hloc, hd, hpass, fun last hlast => ?_⟩
    obtain ⟨entries', hat'⟩ := h.isDirectoryAt ⟨entries, hat⟩
    rw [walk_name links here hname hup (slashes_of_file hslash) hshort, hat']
    exact hwalk last hlast
  | case9 links here part rest hname hup hslash hshort mode contents hat hrest =>
    -- a file at the end of the path
    obtain rfl := Option.some.inj hl
    rw [lookup_entriesAt?] at hat
    have hpass : (fs.at? (here ++ [part])).bind Entry.passage? = none := by rw [hat]; rfl
    exact ⟨here, part, rfl, hdir, hpass, fun last _ =>
      walk_last links here hname hup hshort hrest ((h _).symm.trans hpass)⟩
  | case10 => cases hl
  | case11 => cases hl
  | case12 => cases hl
  | case13 here part rest hname hup hslash hshort target hat hlast links cs ih =>
    -- a link, which the other tree has too, with the same target
    rw [lookup_entriesAt?] at hat
    have hnext : fs.IsDirectoryAt (if target.toList.head? == some '/' then [] else here) := by
      split
      · exact fs.isDirectoryAt_nil
      · exact hdir
    simp only [dite_eq_ite] at ih
    obtain ⟨dir, name, hloc, hd, hpass, hwalk⟩ := ih hnext hl
    refine ⟨dir, name, hloc, hd, hpass, fun last hlast => ?_⟩
    have hgoes : ¬ (rest.isEmpty && last = .entry) = true := by
      rw [decide_eq_false hlast, Bool.and_false]
      exact Bool.false_ne_true
    rw [walk_name (links + 1) here hname hup (slashes_of_file hslash) hshort, h.at?_link hat]
    simp only [if_neg hgoes]
    exact hwalk last hlast

theorem fileLocation?_placeAt {dir : List String} {name : String}
    (h : (fs.at? (dir ++ [name])).bind Entry.passage? = none) :
    fileLocation? (.ok (fs.placeAt dir name)) = some (dir ++ [name]) := by
  rw [placeAt]
  cases hat : fs.at? (dir ++ [name]) with
  | none => rfl
  | some e =>
    rw [hat, Option.bind_some] at h
    cases e with
    | file mode contents => rfl
    | directory entries => cases h
    | link target => cases h

theorem SameWays.locate_eq (h : SameWays fs fs') (hcur : fs.HasCurrent)
    (heq : fs'.current = fs.current) {p : Path} {l : List String} (hl : fs.location? p = some l) :
    ∃ dir name, l = dir ++ [name] ∧ fs.IsDirectoryAt dir ∧ (fs.at? l).bind Entry.passage? = none ∧
      ∀ last, last ≠ .entry → fs'.locate last p = .ok (fs'.placeAt dir name) := by
  rw [location?, locate] at hl
  -- what refuses a path before it is looked up does not depend on the tree
  split at hl
  · cases hl
  · next hnull =>
    split at hl
    · cases hl
    · next hlong =>
      rw [trace] at hl
      split at hl
      · cases hl
      · next hempty =>
        have hfrom : fs.IsDirectoryAt (if p.isAbsolute then [] else fs.current) := by
          split
          · exact fs.isDirectoryAt_nil
          · exact hcur
        obtain ⟨dir, name, hloc, hd, hpass, hwalk⟩ := h.walk_eq hfrom hl
        refine ⟨dir, name, hloc, hd, hpass, fun last hlast => ?_⟩
        rw [locate, if_neg hnull, if_neg hlong, trace, if_neg hempty, heq]
        exact hwalk last hlast

/-- Whether a path is the name of an entry, short enough, and nothing else. -/
def isPlainName (p : Path) : Bool :=
  parts p.text.toList == [p.text] && !p.isAbsolute &&
    !(p.text == "" || p.text == "." || p.text == "..") && !p.text.toList.contains '\x00' &&
    decide (Text.byteLength p.text ≤ maxName)

/-- A name leads to its entry in the current directory, be there a file or nothing. -/
theorem location?_of_isPlainName {p : Path} (hp : isPlainName p = true)
    (hend : (fs.at? (fs.current ++ [p.text])).bind Entry.passage? = none) :
    fs.location? p = some (fs.current ++ [p.text]) := by
  simp only [isPlainName, Bool.and_eq_true, Bool.not_eq_true', Bool.or_eq_false_iff, beq_iff_eq,
    beq_eq_false_iff_ne, decide_eq_true_iff] at hp
  obtain ⟨⟨⟨⟨hparts, hrelative⟩, ⟨hempty, hdot⟩, hdots⟩, hnull⟩, hshort⟩ := hp
  have hlong : ¬ isTooLong p = true := by
    rw [isTooLong, decide_eq_true_iff, Nat.not_lt]
    exact Nat.le_trans hshort (by decide)
  have hblank : ¬ p.text.isEmpty = true := by
    rw [String.isEmpty_iff]
    exact hempty
  rw [location?, locate, if_neg (Bool.eq_false_iff.mp hnull), if_neg hlong, trace, if_neg hblank,
    hrelative, hparts]
  refine (congrArg fileLocation? (walk_last maxLinks fs.current ?_ ?_ ?_ rfl hend)).trans ?_
  · simp only [Bool.or_eq_true, beq_iff_eq, not_or]
    exact ⟨hempty, hdot⟩
  · simpa using hdots
  · exact Nat.not_lt.mpr hshort
  · exact fileLocation?_placeAt hend

/-- A relative path that the system takes is walked from the current directory. -/
theorem location?_of_relative {p : Path} (htaken : (p.text.toList.contains '\x00' || isTooLong p ||
    p.text.isEmpty || p.isAbsolute) = false) :
    fs.location? p = fileLocation? (fs.walk .file maxLinks fs.current (parts p.text.toList)) := by
  simp only [Bool.or_eq_false_iff] at htaken
  obtain ⟨⟨⟨hnull, hlong⟩, hblank⟩, hrelative⟩ := htaken
  rw [location?, locate, if_neg (Bool.eq_false_iff.mp hnull), if_neg (Bool.eq_false_iff.mp hlong),
    trace, if_neg (Bool.eq_false_iff.mp hblank), if_neg (Bool.eq_false_iff.mp hrelative)]

theorem SameWays.refl (fs : FileSystem) : SameWays fs fs := fun _ => rfl

theorem SameWays.location?_of_eq_some (h : SameWays fs fs') (hcur : fs.HasCurrent)
    (heq : fs'.current = fs.current) {p : Path} {l : List String} (hl : fs.location? p = some l) :
    fs'.location? p = some l := by
  obtain ⟨dir, name, rfl, -, hpass, hlocate⟩ := h.locate_eq hcur heq hl
  have hfile : LastPart.file ≠ .entry := nofun
  rw [location?, hlocate .file hfile]
  exact fileLocation?_placeAt ((h _).symm.trans hpass)

/-! ### Reading and writing -/

/-- What is read from an entry, or from nothing. -/
def textOf : Option Entry → Except OsError String
  | some (.file _ (.text s)) => .ok s
  | some (.file _ _) => .error .invalidText
  | _ => .error .notFound

theorem textOf_outline (x : Option Entry) : textOf (x.map Entry.outline) = textOf x := by
  cases x with
  | none => rfl
  | some e => cases e <;> rfl

/-- Reading a path that leads to a file, or to the place for one, reads what is there. -/
theorem readText_eq (hcur : fs.HasCurrent) {p : Path} {l : List String}
    (hl : fs.location? p = some l) : fs.readText p = textOf (fs.at? l) := by
  obtain ⟨dir, name, rfl, -, hpass, hlocate⟩ := (SameWays.refl fs).locate_eq hcur rfl hl
  have htarget : LastPart.target ≠ .entry := nofun
  rw [readText, find, hlocate .target htarget, placeAt]
  cases hat : fs.at? (dir ++ [name]) with
  | none => rfl
  | some e =>
    rw [hat, Option.bind_some] at hpass
    cases e with
    | file mode contents => cases contents <;> rfl
    | directory entries => cases hpass
    | link target => cases hpass

theorem at?_putAt (fs : FileSystem) (dir : List String) (name : String) (e : Entry)
    (l : List String) :
    (fs.putAt (dir ++ [name]) e).at? l = (fs.rootEntry.put (dir ++ [name]) e).follow? l := by
  -- the root stays a directory, since the row of names is not empty
  obtain ⟨d, ds, hcons⟩ : ∃ d ds, dir ++ [name] = d :: ds := by
    cases dir with
    | nil => exact ⟨name, [], rfl⟩
    | cons d ds => exact ⟨d, ds ++ [name], rfl⟩
  obtain ⟨root, hput⟩ : ∃ root, fs.rootEntry.put (d :: ds) e = .directory root :=
    ⟨_, by rw [rootEntry, Entry.put]⟩
  rw [hcons, at?, putAt, hput]
  rfl

theorem current_putAt (fs : FileSystem) (location : List String) (e : Entry) :
    (fs.putAt location e).current = fs.current := by
  rw [putAt]
  split <;> rfl

/-- A write puts a file with the text at the place that the path leads to, and changes nothing that
is at any other place. -/
theorem writeText_eq_ok (hcur : fs.HasCurrent) {p : Path} {s : String}
    (hw : fs.writeText p s = .ok fs') :
    ∃ l mode, fs.location? p = some l ∧ (fs.at? l).bind Entry.passage? = none ∧
      fs'.current = fs.current ∧ ∀ k, (fs'.at? k).map Entry.outline
        = if k = l then some (.file mode (.text s)) else (fs.at? k).map Entry.outline := by
  obtain ⟨place, hplace, hw⟩ := bind_eq_ok hw
  -- the write succeeded, so the place is that of a file or free
  obtain ⟨l, mode, hl, rfl⟩ : ∃ l mode, fs.location? p = some l ∧
      fs' = fs.putAt l (.file mode (.text s)) := by
    cases place with
    | occupied l e =>
      cases e with
      | file mode contents =>
        exact ⟨l, mode, by rw [location?, hplace]; rfl, (Except.ok.inj hw).symm⟩
      | directory entries => cases hw
      | link target => cases hw
    | vacant dir name =>
      exact ⟨dir ++ [name], defaultMode, by rw [location?, hplace]; rfl, (Except.ok.inj hw).symm⟩
  obtain ⟨dir, name, rfl, hdir, hpass, -⟩ := (SameWays.refl fs).locate_eq hcur rfl hl
  refine ⟨dir ++ [name], mode, hl, hpass, fs.current_putAt _ _, fun k => ?_⟩
  rw [at?_putAt]
  refine Entry.follow?_put rfl hdir (fun x hx => ?_) k
  rw [at?, hx, Option.bind_some] at hpass
  cases x with
  | file mode contents => rfl
  | directory entries => cases hpass
  | link target => cases hpass

/-- A path that leads to a file, or to the place for one, can be written. -/
theorem writeText_isOk {p : Path} {l : List String} (hl : fs.location? p = some l) (s : String) :
    ∃ fs', fs.writeText p s = .ok fs' := by
  rw [location?] at hl
  rw [writeText]
  cases hplace : fs.locate .file p with
  | error e =>
    rw [hplace] at hl
    cases hl
  | ok place =>
    rw [hplace] at hl
    cases place with
    | vacant dir name => exact ⟨_, rfl⟩
    | occupied l' e =>
      cases e with
      | file mode contents => exact ⟨_, rfl⟩
      | directory entries => cases hl
      | link target => cases hl

theorem sameWays_of_writeText (hcur : fs.HasCurrent) {p : Path} {s : String}
    (hw : fs.writeText p s = .ok fs') : SameWays fs fs' := by
  obtain ⟨l, mode, -, hpass, -, hat⟩ := writeText_eq_ok hcur hw
  -- a walk does not see more of an entry than its outline
  have hseen : ∀ x : Option Entry,
      x.bind Entry.passage? = (x.map Entry.outline).bind Entry.passage? := by
    intro x
    cases x with
    | none => rfl
    | some e => cases e <;> rfl
  intro k
  rw [hseen (fs'.at? k), hat k]
  split
  · next hk => rw [hk, hpass]; rfl
  · exact hseen _

theorem hasCurrent_writeText (hcur : fs.HasCurrent) {p : Path} {s : String}
    (hw : fs.writeText p s = .ok fs') : fs'.HasCurrent := by
  obtain ⟨-, -, -, -, heq, -⟩ := writeText_eq_ok hcur hw
  rw [HasCurrent, heq]
  exact (sameWays_of_writeText hcur hw).isDirectoryAt hcur

/-- **Writes move no path.** Every path that leads to a file, or to the place for one, leads to the
same place after a write, and no other path comes to lead to one. -/
theorem location?_writeText (hcur : fs.HasCurrent) {p : Path} {s : String}
    (hw : fs.writeText p s = .ok fs') (q : Path) : fs'.location? q = fs.location? q := by
  have hways := sameWays_of_writeText hcur hw
  have hcur' := hasCurrent_writeText hcur hw
  obtain ⟨-, -, -, -, heq, -⟩ := writeText_eq_ok hcur hw
  have hback : SameWays fs' fs := fun l => (hways l).symm
  cases hq : fs.location? q with
  | some l => exact hways.location?_of_eq_some hcur heq hq
  | none =>
    refine Option.eq_none_iff_forall_ne_some.mpr fun l hl => ?_
    rw [hback.location?_of_eq_some hcur' heq.symm hl] at hq
    cases hq

/-- **Reading after writing.** A path that leads to the place that was written reads the text that
was written; a path that leads elsewhere reads what it read before. -/
theorem readText_writeText (hcur : fs.HasCurrent) {p : Path} {s : String}
    (hw : fs.writeText p s = .ok fs') {q : Path} {l : List String}
    (hq : fs.location? q = some l) :
    fs'.readText q = if fs.location? p = some l then .ok s else fs.readText q := by
  have hcur' := hasCurrent_writeText hcur hw
  obtain ⟨l', mode, hp, hpass, -, hat⟩ := writeText_eq_ok hcur hw
  rw [readText_eq hcur' ((location?_writeText hcur hw q).trans hq), readText_eq hcur hq, hp,
    ← textOf_outline, hat l]
  by_cases hsame : l' = l
  · rw [if_pos hsame.symm, if_pos (congrArg some hsame)]
    rfl
  · rw [if_neg (Ne.symm hsame), if_neg fun h => hsame (Option.some.inj h)]
    exact textOf_outline _

end FileSystem

end EditorInsight
