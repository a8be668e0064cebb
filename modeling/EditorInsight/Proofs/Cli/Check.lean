import EditorInsight.Cli.Check
import EditorInsight.Proofs.Launch
import EditorInsight.Proofs.Sources.Spellings

/-!
# Files that are checked

A check starts the linter once for each path in the list of source files. In a tree without links this is once
for each file if the arguments are spelled in one way, and it may be more than once if they are not.

* `startedBy_check`: what a check starts.
* `check_exact`: when no file is checked twice.
-/

namespace EditorInsight.Cli

open Lint

variable {answer : Invocation → Except OsError Finished} {c : Config.Settings}
  {arguments : List String} {ps : List Path} {fs : FileSystem}

theorem checkFiles_recorded (files : List Path) (started : List Invocation) :
    (checkFiles ((Pylint.ofSettings c).linter (recordedLaunch answer)) files started).2
      = started ++ files.map (lintInvocation c) := by
  induction files generalizing started with
  | nil => exact (List.append_nil started).symm
  | cons file files ih =>
    calc (checkFiles ((Pylint.ofSettings c).linter (recordedLaunch answer)) (file :: files) started).2
      _ = (checkFiles ((Pylint.ofSettings c).linter (recordedLaunch answer)) files
            ((Pylint.ofSettings c).linter (recordedLaunch answer) file started).2).2 := rfl
      _ = started ++ (file :: files).map (lintInvocation c) := by
        rw [ih, linter_recorded, List.append_assoc, List.map_cons, List.singleton_append]

/-- **A check starts the linter** once for each path, in the order of the paths. -/
theorem startedBy_check (s : Surroundings (StateM (List Invocation)))
    (hlaunch : s.launch = recordedLaunch answer) (henabled : c.lint.enabled = true)
    (h : collectSources s.files arguments = .ok ps) (format : Format) :
    startedBy (check s c arguments format) = ps.map (lintInvocation c) := by
  unfold check startedBy
  rw [henabled, h, hlaunch]
  cases ps with
  | nil => rfl
  | cons file files => exact checkFiles_recorded (file :: files) []

/-- **When no file is checked twice.** The linter is started once for each path of an ascending list, so for no
two paths with the same components. In a tree without links, the list has a file twice just if two of its
paths that lead somewhere have components that tell the same place. It has none twice if all arguments go
down behind the same components: all from the root, all from the current directory, or all behind the same
dots. -/
theorem check_exact {s : Surroundings (StateM (List Invocation))} (hlaunch : s.launch = recordedLaunch answer)
    (hfs : s.files.WellFormed) (hlinks : s.files.HasNoLinks) (henabled : c.lint.enabled = true)
    (h : collectSources s.files arguments = .ok ps) (format : Format) :
    startedBy (check s c arguments format) = ps.map (lintInvocation c) ∧ Path.Ascending ps ∧
      (ListsFilesOnce s.files ps ↔ ∀ p ∈ ps, ∀ q ∈ ps, (∃ found, s.files.find p = .ok found) →
        (∃ found, s.files.find q = .ok found) →
          p.resolve s.files.current = q.resolve s.files.current → p = q) ∧
      ∀ front, (∀ a ∈ arguments, StandsBelow s.files front a) → ListsFilesOnce s.files ps :=
  ⟨startedBy_check s hlaunch henabled h format, ascending_collectSources h,
    listsFilesOnce_iff hfs hlinks,
    fun _ harguments => listsFilesOnce_of_standsBelow hfs hlinks harguments h⟩

/-- Two source files, one of them in a package. -/
def smallProject : FileSystem where
  root := [("work", .directory [("main.py", .file 0o644 (.text "")),
    ("pkg", .directory [("util.py", .file 0o644 (.text ""))])])]
  current := ["work"]

theorem wellFormed_smallProject : smallProject.WellFormed :=
  FileSystem.wellFormed_of_everywhere (by decide +kernel) ⟨_, rfl⟩

theorem hasNoLinks_smallProject : smallProject.HasNoLinks :=
  FileSystem.hasNoLinks_of_everywhere (by decide +kernel)

/-- Surroundings of some files that keep a record of what is started, and in which no program answers. -/
def recordingSurroundings (fs : FileSystem) : Surroundings (StateM (List Invocation)) where
  files := fs
  launch := recordedLaunch fun _ => .error .notFound

/-- A file that is named alone and with its directory is checked once. -/
theorem check_exact_overlapping :
    let s := recordingSurroundings smallProject
    startedBy (check s {} ["pkg", "pkg/util.py"] .human) = [lintInvocation {} ⟨"pkg/util.py"⟩] ∧
      ListsFilesOnce smallProject [⟨"pkg/util.py"⟩] := by
  intro s
  have hpkg : smallProject.find ⟨"pkg"⟩ = .ok (["work", "pkg"], _) :=
    FileSystem.find_of_leadsTo wellFormed_smallProject (by decide +kernel) rfl
  have hutil : smallProject.find ⟨"pkg/util.py"⟩ = .ok (["work", "pkg", "util.py"], _) :=
    FileSystem.find_of_leadsTo wellFormed_smallProject (by decide +kernel) rfl
  have hsources : collectSources smallProject ["pkg", "pkg/util.py"] = .ok [⟨"pkg/util.py"⟩] :=
    (collectSources_pair (sourcesOf_of_directory hpkg) (sourcesOf_of_file hutil)).trans (by decide +kernel)
  have hparts : ∀ a ∈ ["pkg", "pkg/util.py"], Path.start (Path.isAbsolute ⟨a⟩) = [] ∧
      ∀ part ∈ Path.splitSlashes a.toList, Glob.staysBelow part = true := by decide +kernel
  obtain ⟨hstarted, -, -, honce⟩ :=
    check_exact (s := s) (c := {}) rfl wellFormed_smallProject hasNoLinks_smallProject rfl hsources .human
  exact ⟨hstarted, honce [] fun a ha => .pattern (hparts a ha).1.symm (hparts a ha).2⟩

/-- **A file is checked twice** if it is named twice, once with a dot in front. -/
theorem main_checked_twice :
    let s := recordingSurroundings smallProject
    startedBy (check s {} ["main.py", "./main.py"] .human)
        = [lintInvocation {} ⟨"./main.py"⟩, lintInvocation {} ⟨"main.py"⟩] ∧
      collectSources smallProject ["main.py", "./main.py"] = .ok [⟨"./main.py"⟩, ⟨"main.py"⟩] ∧
      SameFile smallProject ⟨"./main.py"⟩ ⟨"main.py"⟩ ∧
      ¬ ListsFilesOnce smallProject [⟨"./main.py"⟩, ⟨"main.py"⟩] := by
  intro s
  have hmain : smallProject.find ⟨"main.py"⟩ = .ok (["work", "main.py"], .file 0o644 (.text "")) :=
    FileSystem.find_of_leadsTo wellFormed_smallProject (by decide +kernel) rfl
  have hdotted : smallProject.find ⟨"./main.py"⟩ = .ok (["work", "main.py"], .file 0o644 (.text "")) :=
    FileSystem.find_of_leadsTo wellFormed_smallProject (by decide +kernel) rfl
  have hsources : collectSources smallProject ["main.py", "./main.py"]
      = .ok [⟨"./main.py"⟩, ⟨"main.py"⟩] :=
    (collectSources_pair (sourcesOf_of_file hmain) (sourcesOf_of_file hdotted)).trans (by decide +kernel)
  -- the list is kept without repetitions by spelling, and these are two
  have hsame : SameFile smallProject ⟨"./main.py"⟩ ⟨"main.py"⟩ := ⟨_, _, hdotted, hmain⟩
  refine ⟨startedBy_check s rfl rfl hsources .human, hsources, hsame, fun honce => ?_⟩
  exact absurd (honce _ List.mem_cons_self _ (List.mem_cons_of_mem _ List.mem_cons_self) hsame) (by decide)

end EditorInsight.Cli
