import EditorInsight.Config.Settings
import EditorInsight.Proofs.Path

/-!
# Settings below a directory

The relative paths of settings are put below the directory of their file. This may be done again, with
the directory that the first one is below: what comes out is as if the first directory had been put
below the second one before.

* `Settings.withBaseDir_eq`: only the interpreter and the linter's file are touched, and a path is put
  below the directory as it is, except for an interpreter of one component or none.
* `Settings.withBaseDir_withBaseDir`: one directory after another is one below the other.
* `Settings.withBaseDir_exact` adds what comes of an absolute directory. An interpreter of no component
  at all is not given a directory, and `Settings.withBaseDir_empty_interpreter` is the case.
-/

namespace EditorInsight.Config.Settings

variable {b b' p : Path}

/-! ### One path -/

/-- Below a directory, an absolute path stays what it is. -/
theorem resolveIn_eq (b p : Path) : resolveIn b p = b.join p := by
  unfold resolveIn
  split
  · next h => exact (Path.join_of_isAbsolute h).symm
  · rfl

/-- An interpreter below a directory. One of a single component is looked up where programs are
installed. -/
def interpreterIn (b p : Path) : Path := if 1 < p.components.length then b.join p else p

theorem interpreterIn_of_le (h : p.components.length ≤ 1) (b : Path) : interpreterIn b p = p :=
  if_neg (Nat.not_lt.mpr h)

theorem interpreterIn_of_lt (h : 1 < p.components.length) (b : Path) : interpreterIn b p = b.join p :=
  if_pos h

theorem interpreterIn_of_isAbsolute (h : p.isAbsolute = true) (b : Path) : interpreterIn b p = p := by
  rw [interpreterIn, Path.join_of_isAbsolute h, ite_self]

/-- That absolute interpreters are left out makes no difference. -/
theorem interpreterIn_eq (b p : Path) :
    interpreterIn b p = if isRelativeProgram p then b.join p else p := by
  cases h : p.isAbsolute with
  | true => rw [interpreterIn_of_isAbsolute h, isRelativeProgram, h, Path.join_of_isAbsolute h, ite_self]
  | false =>
    rw [isRelativeProgram, h, Bool.not_false, Bool.true_and]
    simp only [decide_eq_true_eq]
    rfl

/-- What is looked up below a directory was not put below it. -/
theorem interpreterIn_eq_of_le (h : (interpreterIn b p).components.length ≤ 1) :
    interpreterIn b p = p := by
  cases hp : p.isAbsolute with
  | true => exact interpreterIn_of_isAbsolute hp b
  | false =>
    refine interpreterIn_of_le (Nat.not_lt.mp fun hlong => ?_) b
    rw [interpreterIn_of_lt hlong] at h
    exact Nat.not_lt.mpr h (Path.one_lt_length_components_join hp hlong)

/-- A path of several components has several below a directory, and is put below the next one too. -/
theorem interpreterIn_interpreterIn (b b' p : Path) :
    interpreterIn b' (interpreterIn b p) = interpreterIn (b'.join b) p := by
  cases hp : p.isAbsolute with
  | true =>
    rw [interpreterIn_of_isAbsolute hp, interpreterIn_of_isAbsolute hp, interpreterIn_of_isAbsolute hp]
  | false =>
    by_cases hlong : 1 < p.components.length
    · calc interpreterIn b' (interpreterIn b p)
        _ = interpreterIn b' (b.join p) := by rw [interpreterIn_of_lt hlong]
        _ = b'.join (b.join p) := interpreterIn_of_lt (Path.one_lt_length_components_join hp hlong) b'
        _ = (b'.join b).join p := (Path.join_assoc b' b p).symm
        _ = interpreterIn (b'.join b) p := (interpreterIn_of_lt hlong _).symm
    · have hshort : p.components.length ≤ 1 := Nat.not_lt.mp hlong
      rw [interpreterIn_of_le hshort, interpreterIn_of_le hshort, interpreterIn_of_le hshort]

/-- Below an absolute directory, an interpreter is absolute or looked up by its name. -/
theorem isAbsolute_or_length_interpreterIn (hb : b.isAbsolute = true) (hp : p.text ≠ "") :
    (interpreterIn b p).isAbsolute = true ∨ (interpreterIn b p).components.length = 1 := by
  by_cases hlong : 1 < p.components.length
  · left
    rw [interpreterIn_of_lt hlong]
    exact Path.isAbsolute_join_of_isAbsolute hb p
  · right
    have hpos : 0 < p.components.length :=
      List.length_pos_iff.mpr (mt Path.components_eq_nil_iff.mp hp)
    rw [interpreterIn_of_le (Nat.not_lt.mp hlong)]
    exact Nat.le_antisymm (Nat.not_lt.mp hlong) hpos

theorem text_interpreterIn_ne_empty (b : Path) (hp : p.text ≠ "") : (interpreterIn b p).text ≠ "" := by
  unfold interpreterIn
  split
  · exact Path.text_join_ne_empty b hp
  · exact hp

/-! ### The settings -/

/-- The settings with other paths. -/
def withPaths (c : Settings) (interpreter : Path) (rcfile : Option Path) : Settings where
  interpreter := interpreter
  lint := { c.lint with rcfile := rcfile }
  analysis := c.analysis

/-- Only the paths are touched. -/
theorem withBaseDir_eq (c : Settings) (b : Path) :
    c.withBaseDir b = c.withPaths (interpreterIn b c.interpreter) (c.lint.rcfile.map b.join) := by
  have hrcfile : c.lint.rcfile.map (resolveIn b) = c.lint.rcfile.map b.join :=
    congrArg (c.lint.rcfile.map ·) (funext (resolveIn_eq b))
  rw [interpreterIn_eq, ← hrcfile]
  rfl

theorem withBaseDir_interpreter (c : Settings) (b : Path) :
    (c.withBaseDir b).interpreter = interpreterIn b c.interpreter := by
  rw [withBaseDir_eq]
  rfl

theorem withBaseDir_rcfile (c : Settings) (b : Path) :
    (c.withBaseDir b).lint.rcfile = c.lint.rcfile.map b.join := by
  rw [withBaseDir_eq]
  rfl

/-- With the paths as they were, the settings are what they were. -/
theorem withPaths_withBaseDir (c : Settings) (b : Path) :
    (c.withBaseDir b).withPaths c.interpreter c.lint.rcfile = c := by
  rw [withBaseDir_eq]
  rfl

/-- **One directory after another** is one below the other. -/
theorem withBaseDir_withBaseDir (c : Settings) (b b' : Path) :
    (c.withBaseDir b).withBaseDir b' = c.withBaseDir (b'.join b) := by
  have hrcfile : (c.lint.rcfile.map b.join).map b'.join = c.lint.rcfile.map (b'.join b).join := by
    rw [Option.map_map]
    exact congrArg (c.lint.rcfile.map ·) (funext fun p => (Path.join_assoc b' b p).symm)
  rw [withBaseDir_eq c b, withBaseDir_eq c, withBaseDir_eq, ← hrcfile, ← interpreterIn_interpreterIn]
  rfl

/-- An absolute directory is the last one that matters. -/
theorem withBaseDir_withBaseDir_of_isAbsolute (hb : b.isAbsolute = true) (c : Settings) (b' : Path) :
    (c.withBaseDir b).withBaseDir b' = c.withBaseDir b := by
  rw [withBaseDir_withBaseDir, Path.join_of_isAbsolute hb]

/-- Only from themselves come settings without a file of the linter whose interpreter is looked up. -/
theorem eq_of_withBaseDir_eq {c d : Settings} (h : c.withBaseDir b = d)
    (hinterpreter : d.interpreter.components.length ≤ 1) (hrcfile : d.lint.rcfile = none) : c = d := by
  subst h
  rw [withBaseDir_interpreter] at hinterpreter
  rw [withBaseDir_rcfile, Option.map_eq_none_iff] at hrcfile
  have hpath : interpreterIn b c.interpreter = c.interpreter := interpreterIn_eq_of_le hinterpreter
  rw [withBaseDir_eq, hpath, hrcfile, Option.map_none, ← hrcfile]
  rfl

/-- **Settings below directories.** Whatever two directories are, below the one and then the other the
settings are spelled as they are below the two joined. Below an absolute directory the linter's file, if
there is one, is absolute, the interpreter is absolute or of a single component unless it is the empty
path, and any further directory changes nothing. The empty path and an interpreter of a single component
stay as they are below every directory, and so does everything that is not one of the two paths. -/
theorem withBaseDir_exact (c : Settings) :
    (∀ b b', (c.withBaseDir b).withBaseDir b' = c.withBaseDir (b'.join b)) ∧
      (∀ b, b.isAbsolute = true →
        (∀ rcfile, (c.withBaseDir b).lint.rcfile = some rcfile → rcfile.isAbsolute = true) ∧
          (c.interpreter.text ≠ "" → (c.withBaseDir b).interpreter.isAbsolute = true ∨
            (c.withBaseDir b).interpreter.components.length = 1) ∧
          ∀ b', (c.withBaseDir b).withBaseDir b' = c.withBaseDir b) ∧
      ∀ b, (c.interpreter.components.length ≤ 1 → (c.withBaseDir b).interpreter = c.interpreter) ∧
        (c.withBaseDir b).withPaths c.interpreter c.lint.rcfile = c := by
  refine ⟨withBaseDir_withBaseDir c, fun b hb => ⟨fun rcfile hrcfile => ?_, fun hne => ?_, ?_⟩,
    fun b => ⟨fun hshort => ?_, withPaths_withBaseDir c b⟩⟩
  · rw [withBaseDir_rcfile] at hrcfile
    obtain ⟨p, -, rfl⟩ := Option.map_eq_some_iff.mp hrcfile
    exact Path.isAbsolute_join_of_isAbsolute hb p
  · rw [withBaseDir_interpreter]
    exact isAbsolute_or_length_interpreterIn hb hne
  · exact withBaseDir_withBaseDir_of_isAbsolute hb c
  · rw [withBaseDir_interpreter]
    exact interpreterIn_of_le hshort b

/-- An interpreter next to the file of the settings, and a file of the linter above it. -/
def besideFile : Settings := { interpreter := ⟨"./python"⟩, lint := { rcfile := some ⟨"../rc/"⟩ } }

/-- The dot and the two dots stay, below a relative directory and then an absolute one. -/
theorem withBaseDir_exact_dotted :
    (besideFile.withBaseDir ⟨"a/"⟩).withBaseDir ⟨"/work"⟩
        = { interpreter := ⟨"/work/a/./python"⟩, lint := { rcfile := some ⟨"/work/a/../rc/"⟩ } } ∧
      ((besideFile.withBaseDir ⟨"/work/a"⟩).interpreter.isAbsolute = true ∨
        (besideFile.withBaseDir ⟨"/work/a"⟩).interpreter.components.length = 1) ∧
      (besideFile.withBaseDir ⟨"/work/a"⟩).withBaseDir ⟨"."⟩ = besideFile.withBaseDir ⟨"/work/a"⟩ := by
  obtain ⟨htwo, habsolute, -⟩ := withBaseDir_exact besideFile
  obtain ⟨-, hinterpreter, hagain⟩ := habsolute ⟨"/work/a"⟩ (by decide)
  refine ⟨?_, hinterpreter (by decide), hagain ⟨"."⟩⟩
  rw [htwo]
  decide

/-- Settings whose interpreter is the empty path. -/
def nameless : Settings := { interpreter := ⟨""⟩ }

/-- Below an absolute directory it is neither absolute nor of a single component. -/
theorem withBaseDir_empty_interpreter :
    Path.isAbsolute ⟨"/work"⟩ = true ∧
      ¬ ((nameless.withBaseDir ⟨"/work"⟩).interpreter.isAbsolute = true ∨
        (nameless.withBaseDir ⟨"/work"⟩).interpreter.components.length = 1) := by
  decide

end EditorInsight.Config.Settings
