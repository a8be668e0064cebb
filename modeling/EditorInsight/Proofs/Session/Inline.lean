import EditorInsight.Proofs.Session.Workbench

/-!
# Checks done at once

An editor without workers does the checks that are due itself, one after the other, and takes their
findings at once. That is one of the runs of a workbench, so whatever is proved of every run holds
of such editors too.

* `Workbench.runDueChecks_eq_run`: running the due checks is a poll, and then for each request an
  answer and its delivery.
-/

namespace EditorInsight

namespace Session

section Checks

variable {σ : Type} (now : Nat) (s : Session) (a : σ)

theorem runChecks_cons (check : Path → StateM σ (List Diagnostic)) (r : CheckRequest)
    (requests : List CheckRequest) :
    runChecks check now s (r :: requests) a
      = let done := r.complete (check r.path a).1
        let rest := runChecks check now (s.completeCheck done now).1 requests (check r.path a).2
        ((rest.1.1, if (s.completeCheck done now).2 then rest.1.2 + 1 else rest.1.2), rest.2) := by
  rw [runChecks, runChecksBy]
  simp only [completeCheckBy_unchecked, pure_bind]
  rfl

/-- The due checks are those of a poll, done on the files that the poll leaves. -/
theorem runDueChecks_apply (check : FileSystem → Path → StateM σ (List Diagnostic))
    (fs : FileSystem) :
    s.runDueChecks check fs now a
      = let rest := runChecks (check (s.poll fs now).2.1) now (s.poll fs now).1
          (s.poll fs now).2.2 a
        ((rest.1.1, (s.poll fs now).2.1, rest.1.2), rest.2) :=
  rfl

end Checks

end Session

namespace Workbench

/-- The check at a place is answered and delivered. -/
def doneAtOnce (i now : Nat) (ds : List Diagnostic) : List Event := [.answer i ds, .deliver i now]

theorem run_doneAtOnce (s : Session) (fs : FileSystem) (before after : List Flight)
    (r : CheckRequest) (now : Nat) (ds : List Diagnostic) :
    run ⟨s, fs, before ++ .issued r :: after⟩ (doneAtOnce before.length now ds)
      = ⟨(s.completeCheck (r.complete ds) now).1, fs, before ++ after⟩ := by
  have hanswer : (before ++ .issued r :: after).modify before.length (Flight.answer ds)
      = before ++ .finished (r.complete ds) :: after := by
    induction before with
    | nil => rfl
    | cons f before ih => exact congrArg (f :: ·) ih
  have hget : (before ++ .finished (r.complete ds) :: after)[before.length]?
      = some (.finished (r.complete ds)) := by
    rw [List.getElem?_append_right (Nat.le_refl _), Nat.sub_self]
    rfl
  have hrest : (before ++ .finished (r.complete ds) :: after).eraseIdx before.length
      = before ++ after := by
    rw [List.eraseIdx_append_of_length_le (Nat.le_refl _), Nat.sub_self]
    rfl
  change step (step _ (.answer before.length ds)) (.deliver before.length now) = _
  simp only [step, hanswer, hget, hrest]

variable {σ : Type}

theorem runChecks_eq_run (check : Path → StateM σ (List Diagnostic)) (now : Nat)
    (fs : FileSystem) (before : List Flight) (requests : List CheckRequest) (s : Session) (a : σ) :
    ∃ answers : List (List Diagnostic),
      run ⟨s, fs, before ++ requests.map .issued⟩
          (answers.flatMap (doneAtOnce before.length now))
        = ⟨(Session.runChecks check now s requests a).1.1, fs, before⟩ := by
  induction requests generalizing s a with
  | nil => exact ⟨[], congrArg (Workbench.mk s fs) (List.append_nil before)⟩
  | cons r requests ih =>
    -- the first check is done, and the others find the session that it leaves
    obtain ⟨answers, hrun⟩ := ih
      (s.completeCheck (r.complete (check r.path a).1) now).1 (check r.path a).2
    refine ⟨(check r.path a).1 :: answers, ?_⟩
    rw [List.flatMap_cons, run_append, List.map_cons, run_doneAtOnce, Session.runChecks_cons]
    exact hrun

/-- **Doing the checks oneself is a run.** Whatever the linter does and however its answers depend on
what it was asked before, running the due checks leaves the session and the files that a poll with
answers and deliveries leaves, and nothing is left under way but what was before. -/
theorem runDueChecks_eq_run (check : FileSystem → Path → StateM σ (List Diagnostic))
    (w : Workbench) (now : Nat) (a : σ) :
    ∃ answers : List (List Diagnostic),
      w.run (.poll now :: answers.flatMap (doneAtOnce w.flights.length now))
        = ⟨(w.session.runDueChecks check w.fs now a).1.1,
            (w.session.runDueChecks check w.fs now a).1.2.1, w.flights⟩ :=
  runChecks_eq_run (check (w.session.poll w.fs now).2.1) now _ w.flights _ _ a

end Workbench

end EditorInsight
