import EditorInsight.Analysis.Helper
import EditorInsight.Lint.Pylint
import EditorInsight.Runner

/-!
# What is started

A launcher can keep a record of what it is asked to start. Runs of files, checks and questions to the engine
each start one program, and it is the interpreter of the settings.

* `recordedLaunch` keeps the record, and `startedBy` is what an operation leaves in it.
* `runFile_recorded`, `linter_recorded` and `startedByQuestions_eq`: what the operations leave.
* `Starts` is any of these starts, and `Starts.program_eq` says which program it is.
-/

namespace EditorInsight

open Analysis Lint

/-- A launcher that keeps a record of what is started. -/
def recordedLaunch (answer : Invocation → Except OsError Finished) :
    Launcher (StateM (List Invocation)) := fun i started => (answer i, started ++ [i])

/-- What is started by an operation. -/
def startedBy {α : Type} (operation : StateM (List Invocation) α) : List Invocation := (operation []).2

variable {answer : Invocation → Except OsError Finished} {c : Config.Settings} {i : Invocation}

/-- An operation that starts one program and then only looks at what came of it. -/
theorem recorded_bind {α : Type} {f : Except OsError Finished → StateM (List Invocation) α}
    (hf : ∀ r started, (f r started).2 = started) (started : List Invocation) :
    ((recordedLaunch answer i >>= f) started).2 = started ++ [i] :=
  hf _ _

/-- A run of a file starts the interpreter. -/
theorem runFile_recorded (interpreter file : Path) (started : List Invocation) :
    (runFile (recordedLaunch answer) interpreter file started).2
      = started ++ [⟨interpreter, [file.text], none⟩] := by
  refine recorded_bind (fun r started => ?_) started
  cases r <;> rfl

/-- The start of the linter for a file. -/
def lintInvocation (c : Config.Settings) (file : Path) : Invocation :=
  { program := c.interpreter, args := (Pylint.ofSettings c).arguments file }

/-- A check of a file starts the linter. -/
theorem linter_recorded (file : Path) (started : List Invocation) :
    ((Pylint.ofSettings c).linter (recordedLaunch answer) file started).2
      = started ++ [lintInvocation c file] := by
  refine recorded_bind (fun r started => ?_) started
  cases r <;> rfl

/-- What is started by an engine that is asked each of its questions. -/
def startedByQuestions (e : Engine (StateM (List Invocation))) (q : Query) : List Invocation :=
  startedBy (e.goto q) ++ startedBy (e.references q) ++ startedBy (e.signatures q) ++
    startedBy (e.help q) ++ startedBy (e.completions q)

/-- Each question starts the helper once. -/
theorem startedByQuestions_eq (h : Helper) (answer : Invocation → Except OsError Finished) (q : Query) :
    startedByQuestions (h.engine (recordedLaunch answer)) q
      = [HelperOp.goto, .references, .signatures, .help, .complete].map fun op =>
          h.invocation (.of op q) :=
  rfl

/-- Whether a program is started under some settings, for some answers of programs: by a run of a file, by
a check of one, or by a question to the engine. -/
inductive Starts (c : Config.Settings) (i : Invocation) : Prop
  | run (answer : Invocation → Except OsError Finished) (file : Path)
      (h : i ∈ startedBy (runFile (recordedLaunch answer) c.interpreter file))
  | check (answer : Invocation → Except OsError Finished) (file : Path)
      (h : i ∈ startedBy ((Pylint.ofSettings c).linter (recordedLaunch answer) file))
  | ask (answer : Invocation → Except OsError Finished) (q : Query)
      (h : i ∈ startedByQuestions ((Helper.ofSettings c).engine (recordedLaunch answer)) q)

/-- **Whatever is started** is the interpreter of the settings. -/
theorem Starts.program_eq (h : Starts c i) : i.program = c.interpreter := by
  cases h with
  | run answer file h =>
    rw [startedBy, runFile_recorded, List.nil_append] at h
    rw [List.mem_singleton.mp h]
  | check answer file h =>
    rw [startedBy, linter_recorded, List.nil_append] at h
    rw [List.mem_singleton.mp h]
    rfl
  | ask answer q h =>
    rw [startedByQuestions_eq] at h
    obtain ⟨op, -, rfl⟩ := List.mem_map.mp h
    rfl

end EditorInsight
