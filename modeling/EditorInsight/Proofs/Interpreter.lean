import EditorInsight.Interpreter
import EditorInsight.Proofs.FileSystem.Canonical
import EditorInsight.Proofs.Path.Order

/-!
# Interpreters that are found

An interpreter is found by a name in a directory, maybe through links, and shown by the path of the file
itself. The path tells the file, so a file that several names and directories lead to is shown once, and
what is shown depends only on which files the directories lead to.

* `HasInterpreter` says what an interpreter of a directory is.
* `mem_discoverIn_iff`: the list has those of all directories, and nothing else.
* `discoverIn_congr`: directories without an interpreter make no difference, nor do the order of the
  directories and how often one is listed.
* `discoverIn_exact` puts this together.
-/

namespace EditorInsight

open FileSystem (absolute isExecutableMode)

variable {fs : FileSystem} {dir p : Path} {dirs : List Path}

/-- Whether a directory has the interpreter at a path without links: one of the names in the directory
leads to a regular file that somebody may execute, and the path is that of its names from the root. -/
def HasInterpreter (fs : FileSystem) (dir p : Path) : Prop :=
  ∃ name ∈ interpreterNames, ∃ location mode contents,
    fs.find (dir.child name) = .ok (location, .file mode contents) ∧ isExecutableMode mode = true ∧
      p = absolute location

/-- Whether the entry is a regular file that somebody may execute. -/
def Entry.isExecutable : Entry → Bool
  | .file mode _ => isExecutableMode mode
  | .directory _ | .link _ => false

theorem isExecutable_eq (fs : FileSystem) (p : Path) :
    fs.isExecutable p = (fs.find? p).any Entry.isExecutable := by
  rw [FileSystem.isExecutable]
  cases fs.find? p with
  | none => rfl
  | some e => cases e <;> rfl

theorem isExecutable_iff : fs.isExecutable p = true ↔
    ∃ location mode contents, fs.find p = .ok (location, .file mode contents) ∧
      isExecutableMode mode = true := by
  rw [isExecutable_eq, FileSystem.find?]
  constructor
  · intro h
    cases hfind : fs.find p with
    | error e =>
      rw [hfind] at h
      cases h
    | ok found =>
      obtain ⟨location, e⟩ := found
      rw [hfind] at h
      cases e with
      | file mode contents => exact ⟨location, mode, contents, rfl, h⟩
      | directory entries => cases h
      | link target => cases h
  · rintro ⟨location, mode, contents, hfind, hmode⟩
    rw [hfind]
    exact hmode

theorem mem_interpretersIn_iff : p ∈ interpretersIn fs dir ↔ HasInterpreter fs dir p := by
  constructor
  · intro h
    obtain ⟨q, hq, rfl⟩ := List.mem_map.mp h
    obtain ⟨hchild, hexecutable⟩ := List.mem_filter.mp hq
    obtain ⟨name, hname, rfl⟩ := List.mem_map.mp hchild
    obtain ⟨location, mode, contents, hfind, hmode⟩ := isExecutable_iff.mp hexecutable
    refine ⟨name, hname, location, mode, contents, hfind, hmode, ?_⟩
    rw [FileSystem.canonical?_of_find hfind, Option.getD_some]
  · rintro ⟨name, hname, location, mode, contents, hfind, hmode, rfl⟩
    have hexecutable := isExecutable_iff.mpr ⟨location, mode, contents, hfind, hmode⟩
    refine List.mem_map.mpr ⟨dir.child name, List.mem_filter.mpr ⟨?_, hexecutable⟩, ?_⟩
    · exact List.mem_map_of_mem hname
    · rw [FileSystem.canonical?_of_find hfind, Option.getD_some]

/-- An interpreter is where its path says, without a link on the way, and it can be executed. -/
theorem HasInterpreter.at? (hfs : fs.WellFormed) (h : HasInterpreter fs dir p) :
    ∃ location mode contents, p = absolute location ∧
      fs.at? location = some (.file mode contents) ∧ isExecutableMode mode = true := by
  obtain ⟨name, -, location, mode, contents, hfind, hmode, rfl⟩ := h
  exact ⟨location, mode, contents, rfl, (hfs.at?_of_find hfind).1, hmode⟩

theorem HasInterpreter.canonical? (hfs : fs.WellFormed) (h : HasInterpreter fs dir p) :
    fs.canonical? p = some p := by
  obtain ⟨location, mode, contents, rfl, hat, -⟩ := h.at? hfs
  exact hfs.canonical?_absolute hat rfl

/-- **The interpreters of all directories are found**, and nothing else. -/
theorem mem_discoverIn_iff (hfs : fs.WellFormed) :
    p ∈ discoverIn fs dirs ↔ ∃ dir ∈ dirs, HasInterpreter fs dir p := by
  have hmem : ∀ q, q ∈ dirs.flatMap (interpretersIn fs) ↔ ∃ dir ∈ dirs, HasInterpreter fs dir q := by
    intro q
    rw [List.mem_flatMap]
    exact exists_congr fun dir => and_congr_right fun _ => mem_interpretersIn_iff
  rw [discoverIn, Path.mem_sorted_iff, hmem]
  -- sorting loses none of them: they are without links, so their components tell them apart
  intro q hq r hr heq
  obtain ⟨dir, -, hq⟩ := (hmem q).mp hq
  obtain ⟨dir', -, hr⟩ := (hmem r).mp hr
  exact hfs.eq_of_canonical? (hq.canonical? hfs) (hr.canonical? hfs) heq

theorem ascending_discoverIn (fs : FileSystem) (dirs : List Path) :
    Path.Ascending (discoverIn fs dirs) :=
  Path.ascending_sorted _

/-- **Only directories with an interpreter matter**, and only that they are listed. -/
theorem discoverIn_congr (hfs : fs.WellFormed) {dirs' : List Path}
    (h : ∀ dir, (∃ p, HasInterpreter fs dir p) → (dir ∈ dirs ↔ dir ∈ dirs')) :
    discoverIn fs dirs' = discoverIn fs dirs := by
  refine Path.eq_of_ascending (ascending_discoverIn fs dirs') (ascending_discoverIn fs dirs) fun p => ?_
  rw [mem_discoverIn_iff hfs, mem_discoverIn_iff hfs]
  refine exists_congr fun dir => and_congr_left fun hp => ?_
  exact (h dir ⟨p, hp⟩).symm

/-- **What is found depends only on what is installed.** The list ascends, so it has no path twice. It has
exactly the paths without links of the files that may be executed and to which one of the names leads in
one of the directories. Each path in it leads to its file without a link on the way. Two lists of
directories give the same list if they have the same directories among those with an interpreter: the order
of the directories, listing one again and adding one without an interpreter change nothing. -/
theorem discoverIn_exact (hfs : fs.WellFormed) (dirs : List Path) :
    Path.Ascending (discoverIn fs dirs) ∧
      (∀ p, p ∈ discoverIn fs dirs ↔ ∃ dir ∈ dirs, HasInterpreter fs dir p) ∧
      (∀ p ∈ discoverIn fs dirs, fs.canonical? p = some p ∧
        ∃ location mode contents, p = absolute location ∧
          fs.at? location = some (.file mode contents) ∧ isExecutableMode mode = true) ∧
      ∀ dirs', (∀ dir, (∃ p, HasInterpreter fs dir p) → (dir ∈ dirs ↔ dir ∈ dirs')) →
        discoverIn fs dirs' = discoverIn fs dirs := by
  refine ⟨ascending_discoverIn fs dirs, fun p => mem_discoverIn_iff hfs, fun p hp => ?_,
    fun dirs' => discoverIn_congr hfs⟩
  obtain ⟨dir, -, hp⟩ := (mem_discoverIn_iff hfs).mp hp
  exact ⟨hp.canonical? hfs, hp.at? hfs⟩

/-- Interpreters behind links: one directory is a link to another, in which one name leads to a file next
to it and another name to a file elsewhere. The third name is that of a directory, and where the file
elsewhere is, a file has one of the names but may not be executed. -/
def linkedPrograms : FileSystem where
  root := [("usr", .directory [("bin", .directory [("python3", .link "./python3.11"),
      ("python3.11", .file 0o755 .program), ("python", .link "/opt/py"),
      ("python2", .directory [])])]),
    ("opt", .directory [("py", .file 0o755 .program), ("python", .file 0o644 .program)]),
    ("bin", .link "usr/bin")]

theorem wellFormed_linkedPrograms : linkedPrograms.WellFormed :=
  FileSystem.wellFormed_of_everywhere (by decide +kernel) ⟨_, rfl⟩

/-- Nothing is found where no file of one of the names may be executed. -/
theorem not_hasInterpreter_opt : ¬ HasInterpreter linkedPrograms ⟨"/opt"⟩ p := by
  have hnone : ∀ name ∈ interpreterNames,
      linkedPrograms.leadsStraight (Path.child ⟨"/opt"⟩ name) ["opt", name] = true ∧
        (linkedPrograms.at? ["opt", name]).any Entry.isExecutable = false := by decide +kernel
  rintro ⟨name, hname, location, mode, contents, hfind, hmode, -⟩
  obtain ⟨hways, hnot⟩ := hnone name hname
  have hexecutable := isExecutable_iff.mpr ⟨location, mode, contents, hfind, hmode⟩
  rw [isExecutable_eq, FileSystem.find?_of_leadsStraight hways, hnot] at hexecutable
  cases hexecutable

theorem hasInterpreter_linked : HasInterpreter linkedPrograms ⟨"/usr/bin"⟩ ⟨"/opt/py"⟩ ∧
    HasInterpreter linkedPrograms ⟨"/bin"⟩ ⟨"/usr/bin/python3.11"⟩ := by
  have hpython : linkedPrograms.find (Path.child ⟨"/usr/bin"⟩ "python")
      = .ok (["opt", "py"], .file 0o755 .program) :=
    FileSystem.find_of_leadsTo wellFormed_linkedPrograms (by decide +kernel) rfl
  have hpython3 : linkedPrograms.find (Path.child ⟨"/bin"⟩ "python3")
      = .ok (["usr", "bin", "python3.11"], .file 0o755 .program) :=
    FileSystem.find_of_leadsTo wellFormed_linkedPrograms (by decide +kernel) rfl
  exact ⟨⟨"python", by decide, _, _, _, hpython, by decide, by decide⟩,
    ⟨"python3", by decide, _, _, _, hpython3, by decide, by decide⟩⟩

/-- What is behind the links is found, and neither a directory without an interpreter nor the order of the
others changes it. -/
theorem discoverIn_exact_linked :
    ⟨"/opt/py"⟩ ∈ discoverIn linkedPrograms [⟨"/bin"⟩, ⟨"/usr/bin"⟩] ∧
      ⟨"/usr/bin/python3.11"⟩ ∈ discoverIn linkedPrograms [⟨"/bin"⟩, ⟨"/usr/bin"⟩] ∧
      discoverIn linkedPrograms [⟨"/usr/bin"⟩, ⟨"/opt"⟩, ⟨"/bin"⟩, ⟨"/usr/bin"⟩]
        = discoverIn linkedPrograms [⟨"/bin"⟩, ⟨"/usr/bin"⟩] := by
  obtain ⟨-, hmem, -, hcongr⟩ :=
    discoverIn_exact wellFormed_linkedPrograms [⟨"/bin"⟩, ⟨"/usr/bin"⟩]
  obtain ⟨hpython, hpython3⟩ := hasInterpreter_linked
  refine ⟨(hmem _).mpr ⟨_, by decide, hpython⟩, (hmem _).mpr ⟨_, by decide, hpython3⟩,
    hcongr _ fun dir ⟨p, hp⟩ => ?_⟩
  have hopt : dir ≠ ⟨"/opt"⟩ := by
    rintro rfl
    exact not_hasInterpreter_opt hp
  simp only [List.mem_cons, List.not_mem_nil, hopt]
  tauto

end EditorInsight
