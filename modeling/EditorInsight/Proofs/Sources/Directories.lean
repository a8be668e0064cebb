import EditorInsight.Proofs.FileSystem.Below
import EditorInsight.Proofs.Path.Order
import EditorInsight.Sources

/-!
# The source files of a directory

A directory stands for the source files below it. Each of them has a place in the tree, told by the names of
the directories between and by its own, and its path is the path of the directory with these names behind
it. The listing goes from directory to directory and passes over those of certain names, so a file is
listed if no directory between is passed over.

* `HasSourceAt` says where a directory has a source file, and `IsListed` that the directories between can be
  listed. `isSource_iff` and `isIgnoredDirectory_iff` tell the names that are meant from those of the
  program's tests.
* `mem_sourcesAmong_iff`: the listing has the source files at these places, and nothing else.
* `collectSources_directory_exact` puts this together.
-/

namespace EditorInsight

/-! ### Names -/

theorem isSource_iff {p : Path} : isSource p = true ↔ p.extension? = some "py" := beq_iff_eq

theorem isIgnoredDirectory_iff {name : String} : isIgnoredDirectory name = true ↔
    name.toList.head? = some '.' ∨
      name = "__pycache__" ∨ name = "venv" ∨ name = "node_modules" := by
  unfold isIgnoredDirectory
  rw [Bool.or_eq_true, beq_iff_eq, List.contains_iff_mem]
  simp only [List.mem_cons, List.not_mem_nil, or_false]

/-- A name is that of a directory to be visited if it does not begin with a dot and is none of three. -/
theorem isIgnoredDirectory_eq_false_iff {name : String} : isIgnoredDirectory name = false ↔
    name.toList.head? ≠ some '.' ∧
      name ≠ "__pycache__" ∧ name ≠ "venv" ∧ name ≠ "node_modules" := by
  rw [← Bool.not_eq_true, isIgnoredDirectory_iff, not_or, not_or, not_or]

/-- Whether a path is that of a source file is told by its last name. -/
theorem isSource_child {name : String} (h : Path.IsName name) (dir : Path) :
    isSource (dir.child name) = isSource ⟨name⟩ := by
  have hname : Path.child ⟨""⟩ name = ⟨name⟩ := Path.join_of_empty rfl _
  rw [isSource, isSource, Path.extension?_child h, ← hname, Path.extension?_child h]

open FileSystem (isTooLong)

variable {fs : FileSystem} {location dirs : List String} {dir p : Path} {name : String}
  {entries : List (String × Entry)} {e : Entry}

/-- Whether a directory, by its names from the root, has a source file below some further directories, none
of which is passed over. -/
structure HasSourceAt (fs : FileSystem) (location dirs : List String) (name : String) : Prop where
  /-- A regular file is at this place, without a link on the way. -/
  file : ∃ mode contents, fs.at? (location ++ dirs ++ [name]) = some (.file mode contents)
  /-- The file has the extension of source files. -/
  source : Path.extension? ⟨name⟩ = some "py"
  /-- No directory between is hidden, or of installed or generated code. -/
  visited : ∀ d ∈ dirs, d.toList.head? ≠ some '.' ∧
    d ≠ "__pycache__" ∧ d ≠ "venv" ∧ d ≠ "node_modules"

/-- Whether directories below a directory can be listed, one after the other: their paths are not too
long. -/
def IsListed (dir : Path) (dirs : List String) : Prop :=
  ∀ ds, ds <+: dirs → ds ≠ [] → isTooLong (dir.below ds) = false

/-! ### What is listed -/

theorem mem_sourcesAmong_iff : p ∈ sourcesAmong dir entries ↔
    ∃ name e, (name, e) ∈ entries ∧ ¬ (e.isDirectory && isIgnoredDirectory name) = true ∧
      p ∈ sourcesUnder (dir.child name) e := by
  induction entries with
  | nil => exact iff_of_false List.not_mem_nil nofun
  | cons entry rest ih =>
    obtain ⟨name, e⟩ := entry
    rw [sourcesAmong, List.mem_append, ih]
    constructor
    · rintro (h | ⟨name', e', hmem, h⟩)
      · split at h
        · cases h
        · next hvisited => exact ⟨name, e, List.mem_cons_self, hvisited, h⟩
      · exact ⟨name', e', List.mem_cons_of_mem _ hmem, h⟩
    · rintro ⟨name', e', hmem, hvisited, h⟩
      rcases List.mem_cons.mp hmem with heq | hmem
      · cases heq
        exact Or.inl (by rwa [if_neg hvisited])
      · exact Or.inr ⟨name', e', hmem, hvisited, h⟩

theorem HasSourceAt.isName (h : HasSourceAt fs location dirs name) (hfs : fs.WellFormed) {n : String}
    (hn : n ∈ dirs ++ [name]) : Path.IsName n := by
  obtain ⟨mode, contents, hfile⟩ := h.file
  rw [List.append_assoc] at hfile
  exact hfs.isName_of_mem hfile (List.mem_append_right _ hn)

theorem hasSourceAt_cons {d : String} : HasSourceAt fs location (d :: dirs) name ↔
    isIgnoredDirectory d = false ∧ HasSourceAt fs (location ++ [d]) dirs name := by
  have hlocation : location ++ d :: dirs = location ++ [d] ++ dirs := by
    rw [List.append_assoc, List.singleton_append]
  constructor
  · rintro ⟨hfile, hsource, hvisited⟩
    obtain ⟨hd, hdirs⟩ := List.forall_mem_cons.mp hvisited
    exact ⟨isIgnoredDirectory_eq_false_iff.mpr hd, hlocation ▸ hfile, hsource, hdirs⟩
  · rintro ⟨hd, hfile, hsource, hdirs⟩
    have hvisited := isIgnoredDirectory_eq_false_iff.mp hd
    exact ⟨hlocation ▸ hfile, hsource, List.forall_mem_cons.mpr ⟨hvisited, hdirs⟩⟩

theorem isListed_nil (dir : Path) : IsListed dir [] := fun _ hprefix hne =>
  absurd (List.prefix_nil.mp hprefix) hne

theorem isListed_cons {d : String} : IsListed dir (d :: dirs) ↔
    isTooLong (dir.child d) = false ∧ IsListed (dir.child d) dirs := by
  constructor
  · intro h
    refine ⟨h [d] ⟨dirs, rfl⟩ (List.cons_ne_nil _ _), fun ds hprefix _ => ?_⟩
    exact h (d :: ds) (List.cons_prefix_cons.mpr ⟨rfl, hprefix⟩) (List.cons_ne_nil _ _)
  · rintro ⟨hd, hdirs⟩ ds hprefix hne
    obtain ⟨d', ds, rfl⟩ := List.exists_cons_of_ne_nil hne
    obtain ⟨rfl, hbehind⟩ := List.cons_prefix_cons.mp hprefix
    cases ds with
    | nil => exact hd
    | cons next ds => exact hdirs _ hbehind (List.cons_ne_nil _ _)

/-- The place of an entry is behind that of its directory. -/
theorem at?_of_mem (hfs : fs.WellFormed) (hat : fs.at? location = some (.directory entries))
    (hmem : (name, e) ∈ entries) : fs.at? (location ++ [name]) = some e := by
  rw [FileSystem.at?_append, hat, Option.bind_some, Entry.follow?,
    (hfs.lookup_eq_some_iff hat).mpr hmem]
  rfl

/-- What is listed has a place. -/
theorem exists_place_of_mem (hfs : fs.WellFormed) (hat : fs.at? location = some (.directory entries))
    (h : p ∈ sourcesAmong dir entries) :
    ∃ dirs name, HasSourceAt fs location dirs name ∧ IsListed dir dirs ∧
      p = dir.below (dirs ++ [name]) := by
  -- by induction on the tree of the directory: what is listed in an entry has a place in the entry
  suffices hall : ∀ e : Entry, ∀ location entries dir, e = .directory entries →
      fs.at? location = some e → p ∈ sourcesAmong dir entries →
      ∃ dirs name, HasSourceAt fs location dirs name ∧ IsListed dir dirs ∧
        p = dir.below (dirs ++ [name]) from hall _ location entries dir rfl hat h
  intro e
  induction e using Entry.induction with
  | file mode contents => exact fun _ _ _ heq => nomatch heq
  | link target => exact fun _ _ _ heq => nomatch heq
  | directory entries ih =>
    rintro location entries dir ⟨⟩ hat hp
    obtain ⟨name, e, hmem, hvisited, hp⟩ := mem_sourcesAmong_iff.mp hp
    have hname := hfs.names location entries hat _ hmem
    have hentry := at?_of_mem hfs hat hmem
    cases e with
    | file mode contents =>
      rw [sourcesUnder] at hp
      split at hp
      · next hsource =>
        rw [isSource_child (isName_of_isEntryName hname), isSource_iff] at hsource
        refine ⟨[], name, ⟨⟨mode, contents, ?_⟩, hsource, nofun⟩, isListed_nil dir, ?_⟩
        · rwa [List.append_nil]
        · exact List.mem_singleton.mp hp
      · cases hp
    | directory entries' =>
      rw [sourcesUnder] at hp
      split at hp
      · cases hp
      · next hshort =>
        obtain ⟨dirs, last, hsource, hlisted, rfl⟩ := ih name _ hmem _ _ _ rfl hentry hp
        have hd : isIgnoredDirectory name = false := Bool.eq_false_iff.mpr hvisited
        exact ⟨name :: dirs, last, hasSourceAt_cons.mpr ⟨hd, hsource⟩,
          isListed_cons.mpr ⟨Bool.eq_false_iff.mpr hshort, hlisted⟩, rfl⟩
    | link target => cases hp

/-- What has a place is listed. -/
theorem mem_of_hasSourceAt (hfs : fs.WellFormed) (hat : fs.at? location = some (.directory entries))
    (hsource : HasSourceAt fs location dirs name) (hlisted : IsListed dir dirs) :
    dir.below (dirs ++ [name]) ∈ sourcesAmong dir entries := by
  -- by induction on the directories between, each of which is an entry that the listing goes into
  induction dirs generalizing location dir entries with
  | nil =>
    obtain ⟨mode, contents, hfile⟩ := hsource.file
    rw [List.append_nil] at hfile
    obtain ⟨entries', hdir, hlookup⟩ := FileSystem.isDirectoryAt_of_concat hfile
    obtain rfl : entries = entries' := Entry.directory.inj (Option.some.inj (hat.symm.trans hdir))
    have hmem := mem_of_lookup hlookup
    have hname := isName_of_isEntryName (hfs.names location entries hat _ hmem)
    refine mem_sourcesAmong_iff.mpr ⟨name, _, hmem, by simp [Entry.isDirectory], ?_⟩
    rw [sourcesUnder, isSource_child hname, if_pos (isSource_iff.mpr hsource.source)]
    exact List.mem_singleton_self _
  | cons d dirs ih =>
    obtain ⟨hd, hsource⟩ := hasSourceAt_cons.mp hsource
    obtain ⟨hshort, hlisted⟩ := isListed_cons.mp hlisted
    obtain ⟨mode, contents, hfile⟩ := hsource.file
    rw [List.append_assoc] at hfile
    obtain ⟨entries', hnext⟩ :=
      FileSystem.isDirectoryAt_of_append (List.append_ne_nil_of_right_ne_nil _ (List.cons_ne_nil _ _)) hfile
    obtain ⟨entries'', hdir, hlookup⟩ := FileSystem.isDirectoryAt_of_concat hnext
    obtain rfl : entries = entries'' := Entry.directory.inj (Option.some.inj (hat.symm.trans hdir))
    refine mem_sourcesAmong_iff.mpr ⟨d, _, mem_of_lookup hlookup, by rw [hd]; simp, ?_⟩
    rw [sourcesUnder, if_neg (Bool.eq_false_iff.mp hshort)]
    exact ih hnext hsource hlisted

/-- **The listing of a directory** has the source files below it, and nothing else. -/
theorem mem_sourcesAmong_iff_exists (hfs : fs.WellFormed)
    (hat : fs.at? location = some (.directory entries)) : p ∈ sourcesAmong dir entries ↔
      ∃ dirs name, HasSourceAt fs location dirs name ∧ IsListed dir dirs ∧
        p = dir.below (dirs ++ [name]) := by
  refine ⟨exists_place_of_mem hfs hat, ?_⟩
  rintro ⟨dirs, name, hsource, hlisted, rfl⟩
  exact mem_of_hasSourceAt hfs hat hsource hlisted

/-- The components of what is listed tell its path. -/
theorem eq_of_mem_sourcesAmong (hfs : fs.WellFormed) (hat : fs.at? location = some (.directory entries))
    {q : Path} (hp : p ∈ sourcesAmong dir entries) (hq : q ∈ sourcesAmong dir entries)
    (hsame : p.components = q.components) : p = q := by
  obtain ⟨dirs, name, hsource, -, rfl⟩ := exists_place_of_mem hfs hat hp
  obtain ⟨dirs', name', hsource', -, rfl⟩ := exists_place_of_mem hfs hat hq
  rw [Path.below_inj (fun _ => hsource.isName hfs) (fun _ => hsource'.isName hfs) hsame]

/-! ### Directories as arguments -/

theorem sourcesBelow_of_find (hfind : fs.find dir = .ok (location, .directory entries)) :
    sourcesBelow fs dir = sourcesAmong dir entries := by
  rw [sourcesBelow, FileSystem.entriesOf, FileSystem.find?, hfind]
  rfl

theorem sourcesOf_of_directory (hfind : fs.find dir = .ok (location, .directory entries)) :
    sourcesOf fs dir.text = .ok (sourcesAmong dir entries) := by
  rw [sourcesOf, FileSystem.isFile, FileSystem.isDirectory, FileSystem.find?, hfind,
    ← sourcesBelow_of_find hfind]
  rfl

theorem collectSources_of_find (hfind : fs.find dir = .ok (location, .directory entries)) :
    collectSources fs [dir.text] = .ok (Path.sorted (sourcesAmong dir entries)) := by
  rw [collectSources, List.mapM_cons, sourcesOf_of_directory hfind, List.mapM_nil]
  show Except.ok (Path.sorted [sourcesAmong dir entries].flatten) = _
  rw [List.flatten_singleton]

/-- Whether the listing of a directory comes to every directory below it. -/
def VisitsAll (fs : FileSystem) (location : List String) (dir : Path) : Prop :=
  ∀ dirs, fs.IsDirectoryAt (location ++ dirs) → IsListed dir dirs

/-- **A directory stands for the source files below it**, whatever it is called itself. The list ascends, so
it has no path twice. It has exactly the paths of the regular files with the extension of source files for
which no directory between is passed over; what a link below the directory leads to is not in it. A
directory whose path is too long for the system cannot be listed, so where there may be one, what is behind
it is not in the list either. Each path leads to its file, unless it is too long itself. -/
theorem collectSources_directory_exact (hfs : fs.WellFormed)
    (hfind : fs.find dir = .ok (location, .directory entries)) :
    ∃ ps, collectSources fs [dir.text] = .ok ps ∧ Path.Ascending ps ∧
      (VisitsAll fs location dir →
        ∀ p, p ∈ ps ↔ ∃ dirs name, HasSourceAt fs location dirs name ∧
          p = dir.below (dirs ++ [name])) ∧
      (∀ p, p ∈ ps ↔ ∃ dirs name, HasSourceAt fs location dirs name ∧ IsListed dir dirs ∧
        p = dir.below (dirs ++ [name])) ∧
      ∀ dirs name, HasSourceAt fs location dirs name →
        isTooLong (dir.below (dirs ++ [name])) = false →
          ∃ mode contents, fs.find (dir.below (dirs ++ [name]))
            = .ok (location ++ dirs ++ [name], .file mode contents) := by
  have hat := (hfs.at?_of_find hfind).1
  have hmem : ∀ p, p ∈ Path.sorted (sourcesAmong dir entries) ↔ ∃ dirs name,
      HasSourceAt fs location dirs name ∧ IsListed dir dirs ∧ p = dir.below (dirs ++ [name]) := fun p => by
    rw [Path.mem_sorted_iff fun q hq r hr => eq_of_mem_sourcesAmong hfs hat hq hr,
      mem_sourcesAmong_iff_exists hfs hat]
  refine ⟨_, collectSources_of_find hfind, Path.ascending_sorted _, fun hvisits p => ?_, hmem,
    fun dirs name hsource hshort => ?_⟩
  -- a directory between is a directory of the tree, so the listing comes to it
  · rw [hmem]
    refine exists₂_congr fun dirs name => and_congr_right fun hsource => ?_
    obtain ⟨mode, contents, hfile⟩ := hsource.file
    have hdirs := hvisits dirs (FileSystem.isDirectoryAt_of_append (List.cons_ne_nil _ _) hfile)
    exact and_iff_right hdirs
  · obtain ⟨mode, contents, hfile⟩ := hsource.file
    rw [List.append_assoc] at hfile ⊢
    exact ⟨mode, contents, hfs.find_below hfind hfile rfl hshort⟩

/-- A project in a directory whose name is passed over elsewhere, with a hidden file, a link, and directories
that are passed over. -/
def hiddenProject : FileSystem where
  root := [("venv", .directory [("main.py", .file 0o644 (.text "")), (".site.py", .file 0o644 (.text "")),
    ("alias.py", .link "main.py"), ("notes.txt", .file 0o644 (.text "")),
    ("pkg", .directory [("util.py", .file 0o644 (.text "")),
      ("__pycache__", .directory [("util.py", .file 0o644 (.text ""))])])])]

/-- The hidden file and the one in a package are listed; the one in a directory that is passed over and
what the link leads to are not. -/
theorem collectSources_directory_exact_hidden :
    ∃ ps, collectSources hiddenProject ["/venv"] = .ok ps ∧ ⟨"/venv/.site.py"⟩ ∈ ps ∧
      ⟨"/venv/pkg/util.py"⟩ ∈ ps ∧ ⟨"/venv/pkg/__pycache__/util.py"⟩ ∉ ps ∧
      ⟨"/venv/alias.py"⟩ ∉ ps := by
  have hfs : hiddenProject.WellFormed :=
    FileSystem.wellFormed_of_everywhere (by decide +kernel) ⟨_, rfl⟩
  have hfind : hiddenProject.find ⟨"/venv"⟩ = .ok (["venv"], _) :=
    FileSystem.find_of_leadsTo hfs (by decide +kernel) rfl
  obtain ⟨ps, hps, -, -, hmem, -⟩ := collectSources_directory_exact hfs hfind
  have hlisted : IsListed ⟨"/venv"⟩ ["pkg"] := isListed_cons.mpr ⟨by decide, isListed_nil _⟩
  -- a path has one place below the directory
  have hplace : ∀ names : List String, (∀ n ∈ names, isEntryName n = true) →
      Path.below ⟨"/venv"⟩ names ∈ ps →
        ∃ dirs name, HasSourceAt hiddenProject ["venv"] dirs name ∧ names = dirs ++ [name] := by
    intro names hproper hlisted
    obtain ⟨dirs, name, hsource, -, heq⟩ := (hmem _).mp hlisted
    have hcomponents := congrArg Path.components heq
    exact ⟨dirs, name, hsource, Path.below_inj (fun n hn => isName_of_isEntryName (hproper n hn))
      (fun _ => hsource.isName hfs) hcomponents⟩
  refine ⟨ps, hps, (hmem _).mpr ⟨[], ".site.py", ⟨⟨_, _, rfl⟩, by decide, nofun⟩, isListed_nil _, rfl⟩,
    (hmem _).mpr ⟨["pkg"], "util.py", ⟨⟨_, _, rfl⟩, by decide, by decide⟩, hlisted, by decide⟩,
    fun hcache => ?_, fun halias => ?_⟩
  · obtain ⟨dirs, name, hsource, heq⟩ :=
      hplace ["pkg", "__pycache__", "util.py"] (by decide) hcache
    have hsplit : ["pkg", "__pycache__"] ++ ["util.py"] = dirs ++ [name] := heq
    obtain ⟨hdirs, -⟩ := List.append_inj' hsplit rfl
    have hmember : "__pycache__" ∈ dirs := hdirs ▸ by decide
    exact (hsource.visited _ hmember).2.1 rfl
  · obtain ⟨dirs, name, hsource, heq⟩ := hplace ["alias.py"] (by decide) halias
    obtain ⟨mode, contents, hfile⟩ := hsource.file
    rw [List.append_assoc, ← heq] at hfile
    cases hfile

end EditorInsight
