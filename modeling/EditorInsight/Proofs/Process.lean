import EditorInsight.Process
import EditorInsight.Proofs.Except
import EditorInsight.Proofs.FileSystem.Canonical

/-!
# Files of programs

The path of a program tells which file is executed when it is started. A path with a slash is looked up as it
is, from the current directory; a bare name is looked up in the directories of the search path instead, and
what the current directory has of that name does not matter.

* `programAt_eq_ok`: the file of a program may be executed, and is given by its path without links.
* `programAt_of_resolveProgram` and `exists_of_searchProgram`: where the file is looked up.
* `eq_of_resolveProgram`: the arguments of a program decide whether it can be started, and not which file
  it is.
-/

namespace EditorInsight

open FileSystem (absolute isExecutableMode)

variable {fs : FileSystem} {args args' : List String} {p q q' : Path} {name : String}
  {dir : Path} {dirs searchPath : List Path} {e e' : OsError} {i j : Invocation}

/-- Whether an argument is too long to be handed to a program. -/
def hasLongArgument (args : List String) : Bool :=
  args.any fun a => decide (maxArgument < Text.byteLength a)

/-- What is at a path, and the checks behind it. -/
theorem programAt_eq (fs : FileSystem) (args : List String) (p : Path) :
    programAt fs args p = (executableAt fs p).bind fun found =>
      if hasLongArgument args then .error .argumentsTooLong
      else (checkForm fs maxScripts found.2).bind fun _ => .ok (absolute found.1) := by
  rw [programAt]
  cases executableAt fs p with
  | error e => rfl
  | ok found =>
    show ite _ _ _ = ite _ _ _
    rfl

theorem executableAt_eq_ok_iff {location : List String} {contents : Contents} :
    executableAt fs p = .ok (location, contents) ↔
      ∃ mode, fs.find p = .ok (location, .file mode contents) ∧ isExecutableMode mode = true := by
  rw [executableAt]
  cases fs.find p with
  | error e => exact iff_of_false nofun nofun
  | ok found =>
    obtain ⟨location', e⟩ := found
    cases e with
    | directory entries => exact iff_of_false nofun nofun
    | link target => exact iff_of_false nofun nofun
    | file mode contents' =>
      by_cases hmode : isExecutableMode mode = true
      · refine ⟨fun h => ?_, ?_⟩
        · cases (if_pos hmode).symm.trans h
          exact ⟨mode, rfl, hmode⟩
        · rintro ⟨mode', hfind, -⟩
          cases hfind
          exact if_pos hmode
      · refine iff_of_false (fun h => by cases (if_neg hmode).symm.trans h) ?_
        rintro ⟨mode', hfind, hmode'⟩
        cases hfind
        exact hmode hmode'

/-- **The file of a program** may be executed. -/
theorem programAt_eq_ok (h : programAt fs args p = .ok q) :
    ∃ location mode contents, fs.find p = .ok (location, .file mode contents) ∧
      isExecutableMode mode = true ∧ q = absolute location := by
  rw [programAt_eq] at h
  obtain ⟨⟨location, contents⟩, hat, h⟩ := bind_eq_ok h
  obtain ⟨mode, hfind, hmode⟩ := executableAt_eq_ok_iff.mp hat
  refine ⟨location, mode, contents, hfind, hmode, ?_⟩
  -- behind the file stand only checks
  split at h
  · cases h
  · obtain ⟨-, -, h⟩ := bind_eq_ok h
    exact (Except.ok.inj h).symm

/-- The path of a program leads to its file. -/
theorem canonical?_of_programAt (h : programAt fs args p = .ok q) : fs.canonical? p = some q := by
  obtain ⟨location, mode, contents, hfind, -, rfl⟩ := programAt_eq_ok h
  exact FileSystem.canonical?_of_find hfind

/-- A script can be run by machine code. -/
theorem checkForm_of_script {location : List String} {script : String}
    (hscript : scriptProgram? (Text.encode script) = some p)
    (hat : executableAt fs p = .ok (location, .program)) :
    checkForm fs maxScripts (.text script) = .ok () := by
  unfold checkForm maxScripts
  dsimp only [Contents.toOctets]
  rw [hscript]
  dsimp only
  rw [hat]
  rfl

/-- A file that may be executed is a program if there is a way to run it. -/
theorem programAt_of_executableAt {location : List String} {contents : Contents}
    (hat : executableAt fs p = .ok (location, contents)) (hargs : hasLongArgument args = false)
    (hform : checkForm fs maxScripts contents = .ok ()) :
    programAt fs args p = .ok (absolute location) := by
  rw [programAt_eq, hat, hargs]
  show (checkForm fs maxScripts contents).bind _ = _
  rw [hform]
  rfl

/-- Arguments matter only if they are too long. -/
theorem programAt_congr (h : programAt fs args p ≠ .error .argumentsTooLong)
    (h' : programAt fs args' p ≠ .error .argumentsTooLong) :
    programAt fs args p = programAt fs args' p := by
  rw [programAt_eq] at h h' ⊢
  rw [programAt_eq]
  cases hat : executableAt fs p with
  | error e => rfl
  | ok found =>
    rw [hat] at h h'
    -- the arguments are looked at once the file is found, and nothing behind depends on them
    have hshort : hasLongArgument args = false := by
      by_contra hlong
      exact h (if_pos ((Bool.not_eq_false _).mp hlong))
    have hshort' : hasLongArgument args' = false := by
      by_contra hlong
      exact h' (if_pos ((Bool.not_eq_false _).mp hlong))
    rw [hshort, hshort']

/-- One directory of a search: the file is there, or the search goes on. -/
theorem searchProgram_cons_cases (h : searchProgram fs args name (dir :: dirs) e = .ok q) :
    programAt fs args (dir.child name) ≠ .error .argumentsTooLong ∧
      (programAt fs args (dir.child name) = .ok q ∨
        (∃ e₀, programAt fs args (dir.child name) = .error e₀) ∧
          ∃ e', searchProgram fs args name dirs e' = .ok q) := by
  unfold searchProgram at h
  cases hat : programAt fs args (dir.child name) with
  | ok q' =>
    rw [hat] at h
    exact ⟨nofun, Or.inl h⟩
  | error e₀ =>
    rw [hat] at h
    -- the search goes on if nothing is there or it may not be executed, and ends with any other error
    cases e₀ with
    | permissionDenied => exact ⟨nofun, Or.inr ⟨⟨_, rfl⟩, _, h⟩⟩
    | notFound => exact ⟨nofun, Or.inr ⟨⟨_, rfl⟩, _, h⟩⟩
    | notADirectory => exact ⟨nofun, Or.inr ⟨⟨_, rfl⟩, _, h⟩⟩
    | argumentsTooLong => cases h
    | unknownFormat => cases h
    | isADirectory => cases h
    | nameTooLong => cases h
    | tooManyLinks => cases h
    | nullInPath => cases h
    | nullInArgument => cases h
    | invalidText => cases h

theorem searchProgram_of_programAt (h : programAt fs args (dir.child name) = .ok q) :
    searchProgram fs args name (dir :: dirs) e = .ok q := by
  unfold searchProgram
  rw [h]

/-- **A bare name** stands for a file in a directory of the search path. -/
theorem exists_of_searchProgram (h : searchProgram fs args name dirs e = .ok q) :
    ∃ dir ∈ dirs, programAt fs args (dir.child name) = .ok q := by
  induction dirs generalizing e with
  | nil => cases h
  | cons dir dirs ih =>
    rcases (searchProgram_cons_cases h).2 with hat | ⟨-, e', hlater⟩
    · exact ⟨dir, List.mem_cons_self, hat⟩
    · obtain ⟨dir', hdir', hat⟩ := ih hlater
      exact ⟨dir', List.mem_cons_of_mem dir hdir', hat⟩

theorem eq_of_searchProgram (h : searchProgram fs args name dirs e = .ok q)
    (h' : searchProgram fs args' name dirs e' = .ok q') : q = q' := by
  induction dirs generalizing e e' with
  | nil => cases h
  | cons dir dirs ih =>
    obtain ⟨hne, hcases⟩ := searchProgram_cons_cases h
    obtain ⟨hne', hcases'⟩ := searchProgram_cons_cases h'
    -- at each directory both searches see the same
    have heq := programAt_congr hne hne'
    rcases hcases with hat | ⟨⟨e₀, hat⟩, e, hlater⟩ <;>
      rcases hcases' with hat' | ⟨⟨e₀', hat'⟩, e', hlater'⟩
    · exact Except.ok.inj (hat.symm.trans (heq.trans hat'))
    · cases hat.symm.trans (heq.trans hat')
    · cases hat.symm.trans (heq.trans hat')
    · exact ih hlater hlater'

/-- Where the file of a program is looked up. -/
theorem programAt_of_resolveProgram (h : resolveProgram fs searchPath i = .ok q) :
    if '/' ∈ i.program.text.toList then programAt fs i.args i.program = .ok q
    else searchProgram fs i.args i.program.text searchPath .notFound = .ok q := by
  unfold resolveProgram at h
  dsimp only at h
  split at h
  · cases h
  · split at h
    · cases h
    · simpa only [List.contains_iff_mem, apply_ite (· = Except.ok q)] using h

theorem resolveProgram_of_bare
    (hnull : (i.program.text :: i.args).any (·.toList.contains '\x00') = false)
    (hempty : i.program.text.isEmpty = false) (hbare : i.program.text.toList.contains '/' = false) :
    resolveProgram fs searchPath i
      = searchProgram fs i.args i.program.text searchPath .notFound := by
  unfold resolveProgram
  dsimp only
  rw [hnull, hempty, hbare]
  rfl

/-- The file of a program, however it is found. -/
theorem exists_programAt_of_resolveProgram (h : resolveProgram fs searchPath i = .ok q) :
    ∃ p, programAt fs i.args p = .ok q := by
  have hat := programAt_of_resolveProgram h
  split at hat
  · exact ⟨_, hat⟩
  · obtain ⟨dir, -, hat⟩ := exists_of_searchProgram hat
    exact ⟨_, hat⟩

/-- **A program that can be started** with several arguments is one file. -/
theorem eq_of_resolveProgram (h : resolveProgram fs searchPath i = .ok q)
    (h' : resolveProgram fs searchPath j = .ok q') (hprogram : i.program = j.program) : q = q' := by
  have hat := programAt_of_resolveProgram h
  have hat' := programAt_of_resolveProgram h'
  rw [← hprogram] at hat'
  split at hat
  · next hslash =>
    rw [if_pos hslash] at hat'
    have hq := (canonical?_of_programAt hat).symm.trans (canonical?_of_programAt hat')
    exact Option.some.inj hq
  · next hslash =>
    rw [if_neg hslash] at hat'
    exact eq_of_searchProgram hat hat'

end EditorInsight
