import EditorInsight.Cli.Command
import EditorInsight.Proofs.Interpreter
import EditorInsight.Proofs.Launch
import EditorInsight.Proofs.Process

/-!
# The interpreter that is marked

Runs of files, checks and questions start the program that the settings name, and the list of interpreters
marks one of its lines. A path with a slash is resolved in one way on both occasions. A bare name is not:
a program of that name is looked up in the search path, while the mark goes to what the name leads to in the
current directory.

* `isMarked` says which lines have the mark.
* `interpreters_exact`: when the mark is that of the file that is started.
-/

namespace EditorInsight

namespace Cli

variable {m : Type → Type} {s : Surroundings m} {c : Config.Settings} {i j : Invocation} {p q : Path}

/-- The interpreters that are listed. -/
def listed (s : Surroundings m) : List Path := discoverIn s.files (searchDirs s.searchPath s.home)

/-- Whether the line of an interpreter has the mark. -/
def isMarked (s : Surroundings m) (c : Config.Settings) (p : Path) : Bool :=
  (s.files.canonical? c.interpreter).any p.same

/-- Whether the listed interpreters with the mark are those that a path leads to. -/
def MarksExactly (s : Surroundings m) (c : Config.Settings) (q : Path) : Prop :=
  ∀ p ∈ listed s, isMarked s c p = true ↔ s.files.canonical? p = s.files.canonical? q

theorem interpreters_eq (s : Surroundings m) (c : Config.Settings) (h : listed s ≠ []) :
    interpreters s c = .lines ((listed s).map fun p =>
      if isMarked s c p then p.text ++ " " ++ Style.green.apply s.styled "(configured)" else p.text) := by
  unfold interpreters
  split
  · next hnone => exact absurd hnone h
  · rfl

theorem canonical?_of_mem_listed (hfs : s.files.WellFormed) (h : p ∈ listed s) :
    s.files.canonical? p = some p := by
  obtain ⟨dir, -, hp⟩ := (mem_discoverIn_iff hfs).mp h
  exact hp.canonical? hfs

/-- **The mark** is on the path that the setting leads to from the current directory. -/
theorem isMarked_iff (hfs : s.files.WellFormed) (h : p ∈ listed s) :
    isMarked s c p = true ↔ s.files.canonical? c.interpreter = some p := by
  constructor
  · intro hmark
    obtain ⟨q, hq, hsame⟩ := (Option.any_eq_true _ _).mp hmark
    rw [hq, hfs.eq_of_canonical? (canonical?_of_mem_listed hfs h) hq (beq_iff_eq.mp hsame)]
  · intro hq
    exact (Option.any_eq_true _ _).mpr ⟨p, hq, beq_self_eq_true _⟩

/-- What is started is given by its path without links. -/
theorem canonical?_of_resolveProgram {fs : FileSystem} {searchPath : List Path} (hfs : fs.WellFormed)
    (h : resolveProgram fs searchPath i = .ok q) : fs.canonical? q = some q := by
  obtain ⟨p, hp⟩ := exists_programAt_of_resolveProgram h
  exact hfs.canonical?_canonical? (canonical?_of_programAt hp)

theorem marksExactly_iff (hfs : s.files.WellFormed) (hq : s.files.canonical? q = some q) :
    MarksExactly s c q ↔ ∀ p ∈ listed s, s.files.canonical? c.interpreter = some p ↔ p = q := by
  refine forall₂_congr fun p hp => ?_
  rw [isMarked_iff hfs hp, canonical?_of_mem_listed hfs hp, hq, Option.some.injEq]

/-- **A path with a slash** is resolved alike when it is started and when it is marked. -/
theorem canonical?_interpreter (h : resolveProgram s.files s.searchPath i = .ok q)
    (hi : i.program = c.interpreter) (hslash : '/' ∈ c.interpreter.text.toList) :
    s.files.canonical? c.interpreter = some q := by
  have hat := programAt_of_resolveProgram h
  rw [hi, if_pos hslash] at hat
  exact canonical?_of_programAt hat

/-- **A bare name of an interpreter** is started from a directory that is searched, so its file is
listed. -/
theorem mem_listed (hfs : s.files.WellFormed) (h : resolveProgram s.files s.searchPath i = .ok q)
    (hi : i.program = c.interpreter) (hname : c.interpreter.text ∈ interpreterNames) : q ∈ listed s := by
  have hat := programAt_of_resolveProgram h
  have hbare : '/' ∉ c.interpreter.text.toList := by
    have hnames : ∀ name ∈ interpreterNames, '/' ∉ name.toList := by decide
    exact hnames _ hname
  rw [hi, if_neg hbare] at hat
  obtain ⟨dir, hdir, hat⟩ := exists_of_searchProgram hat
  obtain ⟨location, mode, contents, hfind, hmode, rfl⟩ := programAt_eq_ok hat
  have hsearched : dir ∈ searchDirs s.searchPath s.home :=
    List.mem_append_left _ (List.mem_append_left _ hdir)
  exact (mem_discoverIn_iff hfs).mpr
    ⟨dir, hsearched, _, hname, location, mode, contents, hfind, hmode, rfl⟩

/-- **When the mark tells what is started.** The lines are those of the listed interpreters, and the mark
is on the one that the setting leads to from the current directory. If a program is started under the
settings, it is one file, whichever operation starts it. The mark is on exactly the listed paths of this
file if the setting has a slash. A bare name that is among those of interpreters is started as one of the
listed files, but the mark is on it only if the name leads to it from the current directory as well. In
general the mark is right just if the setting leads to the file from the current directory, or else if
neither the file nor what the setting leads to is listed. -/
theorem interpreters_exact (hfs : s.files.WellFormed) (c : Config.Settings) :
    (listed s ≠ [] → interpreters s c = .lines ((listed s).map fun p =>
      if isMarked s c p then p.text ++ " " ++ Style.green.apply s.styled "(configured)" else p.text)) ∧
    (∀ p ∈ listed s, isMarked s c p = true ↔ s.files.canonical? c.interpreter = some p) ∧
    ∀ i q, Starts c i → resolveProgram s.files s.searchPath i = .ok q →
      (∀ j q', Starts c j → resolveProgram s.files s.searchPath j = .ok q' → q' = q) ∧
      ('/' ∈ c.interpreter.text.toList → MarksExactly s c q) ∧
      (c.interpreter.text ∈ interpreterNames → q ∈ listed s ∧
        (MarksExactly s c q ↔ s.files.canonical? c.interpreter = some q)) ∧
      (MarksExactly s c q ↔ s.files.canonical? c.interpreter = some q ∨
        q ∉ listed s ∧ ∀ p ∈ listed s, s.files.canonical? c.interpreter ≠ some p) := by
  refine ⟨interpreters_eq s c, fun p hp => isMarked_iff hfs hp, fun i q hstarts hruns => ?_⟩
  have hi := hstarts.program_eq
  have hmarks := marksExactly_iff (c := c) hfs (canonical?_of_resolveProgram hfs hruns)
  have hleads : s.files.canonical? c.interpreter = some q → MarksExactly s c q := fun hq => by
    rw [hmarks, hq]
    exact fun p _ => ⟨fun h => (Option.some.inj h).symm, fun h => h ▸ rfl⟩
  refine ⟨fun j q' hj hq' => ?_, fun hslash => hleads (canonical?_interpreter hruns hi hslash),
    fun hname => ?_, ?_, ?_⟩
  · exact eq_of_resolveProgram hq' hruns (hj.program_eq.trans hi.symm)
  · have hlisted := mem_listed hfs hruns hi hname
    exact ⟨hlisted, fun hexact => ((hmarks.mp hexact) q hlisted).mpr rfl, hleads⟩
  -- a listed file must have the mark itself; if the file is not listed, nothing may have it
  · intro hexact
    rw [hmarks] at hexact
    by_cases hlisted : q ∈ listed s
    · exact Or.inl ((hexact q hlisted).mpr rfl)
    · exact Or.inr ⟨hlisted, fun p hp hq => hlisted ((hexact p hp).mp hq ▸ hp)⟩
  · rintro (hq | ⟨hlisted, hnone⟩)
    · exact hleads hq
    · exact hmarks.mpr fun p hp => iff_of_false (hnone p hp) fun heq => hlisted (heq ▸ hp)

/-- Surroundings of some files, in which no program answers. -/
def quietSurroundings (fs : FileSystem) (searchPath : List Path) : Surroundings Id where
  files := fs
  searchPath := searchPath
  launch _ := .error .notFound

/-- The start of a file with the settings that nobody has changed. -/
def plainRun : Invocation := ⟨⟨"python3"⟩, ["main.py"], none⟩

theorem starts_plainRun : Starts {} plainRun :=
  .run (fun _ => .error .notFound) ⟨"main.py"⟩ List.mem_cons_self

/-- A bare name is looked up in the search path. -/
theorem resolveProgram_plainRun {fs : FileSystem} {dir : Path} {location : List String} {mode : Nat}
    {contents : Contents} (hfind : fs.find (dir.child "python3") = .ok (location, .file mode contents))
    (hmode : FileSystem.isExecutableMode mode = true)
    (hform : checkForm fs maxScripts contents = .ok ()) :
    resolveProgram fs [dir] plainRun = .ok (FileSystem.absolute location) := by
  rw [resolveProgram_of_bare (by decide) (by decide) (by decide)]
  exact searchProgram_of_programAt (programAt_of_executableAt
    (executableAt_eq_ok_iff.mpr ⟨mode, hfind, hmode⟩) (by decide) hform)

/-- Where the name of the interpreter leads to it from the current directory as well, the mark is right. -/
theorem interpreters_exact_linked :
    let s := quietSurroundings { linkedPrograms with current := ["usr", "bin"] } [⟨"/bin"⟩]
    resolveProgram s.files s.searchPath plainRun = .ok ⟨"/usr/bin/python3.11"⟩ ∧
      ⟨"/usr/bin/python3.11"⟩ ∈ listed s ∧ MarksExactly s {} ⟨"/usr/bin/python3.11"⟩ := by
  intro s
  have hfs : s.files.WellFormed :=
    FileSystem.wellFormed_of_everywhere (by decide +kernel) ⟨_, rfl⟩
  have hfind : s.files.find (Path.child ⟨"/bin"⟩ "python3")
      = .ok (["usr", "bin", "python3.11"], .file 0o755 .program) :=
    FileSystem.find_of_leadsTo hfs (by decide +kernel) rfl
  have hhere : s.files.find ⟨"python3"⟩
      = .ok (["usr", "bin", "python3.11"], .file 0o755 .program) :=
    FileSystem.find_of_leadsTo hfs (by decide +kernel) rfl
  have hruns : resolveProgram s.files s.searchPath plainRun = .ok ⟨"/usr/bin/python3.11"⟩ :=
    resolveProgram_plainRun hfind (by decide) rfl
  obtain ⟨-, -, hstarted⟩ := interpreters_exact hfs {}
  obtain ⟨-, -, hname, -⟩ := hstarted _ _ starts_plainRun hruns
  obtain ⟨hlisted, hmarks⟩ := hname (by decide)
  exact ⟨hruns, hlisted, hmarks.mpr (FileSystem.canonical?_of_find hhere)⟩

/-- An interpreter in the only directory of the search path, below the current directory. It is a script
that a shell runs. -/
def projectPrograms : FileSystem where
  root := [("work", .directory [("bin", .directory
      [("python3", .file 0o755 (.text "#!/bin/sh\n"))])]),
    ("bin", .directory [("sh", .file 0o755 .program)])]
  current := ["work"]

/-- **The interpreter that is started is not marked**: the settings that nobody has changed name it by a
bare name, and the current directory has nothing of this name. -/
theorem interpreters_unmarked :
    let s := quietSurroundings projectPrograms [⟨"/work/bin"⟩]
    Starts {} plainRun ∧ resolveProgram s.files s.searchPath plainRun = .ok ⟨"/work/bin/python3"⟩ ∧
      ⟨"/work/bin/python3"⟩ ∈ listed s ∧ isMarked s {} ⟨"/work/bin/python3"⟩ = false ∧
      ¬ MarksExactly s {} ⟨"/work/bin/python3"⟩ := by
  intro s
  have hfs : s.files.WellFormed :=
    FileSystem.wellFormed_of_everywhere (by decide +kernel) ⟨_, rfl⟩
  have hfind : s.files.find (Path.child ⟨"/work/bin"⟩ "python3")
      = .ok (["work", "bin", "python3"], .file 0o755 (.text "#!/bin/sh\n")) :=
    FileSystem.find_of_leadsTo hfs (by decide +kernel) rfl
  have hsh : s.files.find ⟨"/bin/sh"⟩ = .ok (["bin", "sh"], .file 0o755 .program) :=
    FileSystem.find_of_leadsTo hfs (by decide +kernel) rfl
  have hform : checkForm s.files maxScripts (.text "#!/bin/sh\n") = .ok () :=
    checkForm_of_script (by decide +kernel)
      (executableAt_eq_ok_iff.mpr ⟨0o755, hsh, by decide⟩)
  have hruns : resolveProgram s.files s.searchPath plainRun = .ok ⟨"/work/bin/python3"⟩ :=
    resolveProgram_plainRun hfind (by decide) hform
  have hlisted : ⟨"/work/bin/python3"⟩ ∈ listed s := mem_listed (c := {}) hfs hruns rfl (by decide)
  -- from the current directory the name leads to nothing
  have hwalk : s.files.walk .target maxLinks ["work"] ["python3"]
      = .ok (s.files.placeAt ["work"] "python3") :=
    FileSystem.walk_last maxLinks ["work"] (by decide) (by decide) (by decide) rfl (by decide)
  have htrace : s.files.trace .target ⟨"python3"⟩ = .ok (s.files.placeAt ["work"] "python3") :=
    (if_neg (by decide)).trans hwalk
  have hhere : s.files.canonical? ⟨"python3"⟩ = none :=
    FileSystem.canonical?_eq_none fun location e h => by cases htrace.symm.trans h
  have hmark : isMarked s {} ⟨"/work/bin/python3"⟩ = false := by
    rw [isMarked, show s.files.canonical? (Config.Settings.interpreter {}) = none from hhere]
    rfl
  refine ⟨starts_plainRun, hruns, hlisted, hmark, fun hexact => ?_⟩
  exact Bool.false_ne_true (hmark.symm.trans ((hexact _ hlisted).mpr rfl))

end Cli

end EditorInsight
