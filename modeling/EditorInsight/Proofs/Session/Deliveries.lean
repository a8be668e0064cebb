import EditorInsight.Proofs.Session.Workbench
import Mathlib.Data.List.Perm.Basic

/-!
# Deliveries in any order

The checks that one poll issues belong to different buffers, and a check that is done changes nothing
but its own buffer. So it does not matter in which order they come back, and doing them oneself, each
delivered before the next one is begun, comes to the same as handing all of them out.

* `Session.deliverAll` takes checks one after the other, as `Session.runChecks` does with checks that
  are still to be done.
* `Session.completeCheck_comm` is two deliveries, `Session.deliverAll_perm` is any number.
* `Session.get?_deliverAll_of_mem` and its like say what is found at an identity after deliveries.
* `Workbench.runDueChecks_eq_deliverAll` compares the two ways of checking.
-/

namespace EditorInsight

namespace Session

/-- Takes checks that are done, one after the other, and counts how often something was painted
again. -/
def deliverAll (now : Nat) : Session → List CheckCompleted → Session × Nat
  | s, [] => (s, 0)
  | s, c :: rest =>
    let (s, repainted) := s.completeCheck c now
    let (s, n) := deliverAll now s rest
    (s, if repainted then n + 1 else n)

theorem deliverAll_cons (s : Session) (c : CheckCompleted) (cs : List CheckCompleted) (now : Nat) :
    s.deliverAll now (c :: cs)
      = (((s.completeCheck c now).1.deliverAll now cs).1,
          if (s.completeCheck c now).2 then ((s.completeCheck c now).1.deliverAll now cs).2 + 1
          else ((s.completeCheck c now).1.deliverAll now cs).2) :=
  rfl

variable {s : Session}

/-! ### Two deliveries -/

theorem put_comm (s : Session) {id id' : BufferId} (h : id ≠ id') (o o' : OpenBuffer) :
    (s.put id o).put id' o' = (s.put id' o').put id o := by
  have hbuffers : ((s.put id o).put id' o').buffers = ((s.put id' o').put id o).buffers := by
    change (s.buffers.map _).map _ = (s.buffers.map _).map _
    rw [List.map_map, List.map_map]
    refine List.map_congr_left fun p _ => ?_
    -- no buffer has both identities
    by_cases hid : p.1 = id
    · have hid' : p.1 ≠ id' := fun hp => h (hid.symm.trans hp)
      simp only [Function.comp_apply, if_pos hid, if_neg hid']
    · simp only [Function.comp_apply, if_neg hid]
      split <;> rfl
  exact congrArg (fun bs => { s with buffers := bs }) hbuffers

/-- A delivery does not touch a buffer that it is not for. -/
theorem get?_completeCheck_of_ne {c : CheckCompleted} {k : BufferId}
    (h : k ≠ c.request.buffer) (now : Nat) : (s.completeCheck c now).1.get? k = s.get? k := by
  rw [get?_completeCheck]
  simp only [if_neg h, Option.map_id']

/-- Two checks of different buffers may be delivered in either order, and each paints what it would
paint alone. -/
theorem completeCheck_comm {c c' : CheckCompleted} (h : c.request.buffer ≠ c'.request.buffer)
    (now : Nat) :
    ((s.completeCheck c now).1.completeCheck c' now).1
        = ((s.completeCheck c' now).1.completeCheck c now).1 ∧
      ((s.completeCheck c now).1.completeCheck c' now).2 = (s.completeCheck c' now).2 := by
  rw [completeCheck_eq (s.completeCheck c now).1, completeCheck_eq (s.completeCheck c' now).1,
    get?_completeCheck_of_ne h.symm, get?_completeCheck_of_ne h, s.completeCheck_eq c,
    s.completeCheck_eq c']
  cases s.get? c.request.buffer with
  | none => cases s.get? c'.request.buffer <;> exact ⟨rfl, rfl⟩
  | some o =>
    cases s.get? c'.request.buffer with
    | none => exact ⟨rfl, rfl⟩
    | some o' => exact ⟨s.put_comm h _ _, rfl⟩

/-! ### Any number of deliveries -/

/-- **The order of deliveries does not matter**, be it to the session or to how often something is
painted, if no two are for one buffer. -/
theorem deliverAll_perm {cs cs' : List CheckCompleted} (hperm : cs.Perm cs')
    (hdifferent : (cs.map (·.request.buffer)).Nodup) (s : Session) (now : Nat) :
    s.deliverAll now cs = s.deliverAll now cs' := by
  induction hperm generalizing s with
  | nil => rfl
  | cons c _ ih =>
    rw [List.map_cons, List.nodup_cons] at hdifferent
    rw [deliverAll_cons, deliverAll_cons, ih hdifferent.2]
  | swap c c' cs =>
    rw [List.map_cons, List.map_cons, List.nodup_cons, List.mem_cons, not_or] at hdifferent
    obtain ⟨hstate, hflag⟩ := s.completeCheck_comm hdifferent.1.1 now
    obtain ⟨-, hflag'⟩ := s.completeCheck_comm (Ne.symm hdifferent.1.1) now
    -- the states are equal, and the counts are sums in another order
    rw [deliverAll_cons, deliverAll_cons, deliverAll_cons, deliverAll_cons, hstate, hflag, hflag']
    split <;> split <;> rfl
  | trans hperm₁ _ ih₁ ih₂ =>
    have hdifferent' := (hperm₁.map (·.request.buffer)).nodup_iff.mp hdifferent
    exact (ih₁ hdifferent s).trans (ih₂ hdifferent' s)

/-! ### What is found after deliveries -/

theorem get?_deliverAll_of_not_mem {k : BufferId} {cs : List CheckCompleted}
    (h : k ∉ cs.map (·.request.buffer)) (s : Session) (now : Nat) :
    (s.deliverAll now cs).1.get? k = s.get? k := by
  induction cs generalizing s with
  | nil => rfl
  | cons c cs ih =>
    rw [List.map_cons, List.mem_cons, not_or] at h
    rw [deliverAll_cons, ih h.2]
    exact get?_completeCheck_of_ne h.1 now

/-- A buffer has taken the check that was for it. -/
theorem get?_deliverAll_of_mem {c : CheckCompleted} {cs : List CheckCompleted} (hc : c ∈ cs)
    (hdifferent : (cs.map (·.request.buffer)).Nodup) (s : Session) (now : Nat) :
    (s.deliverAll now cs).1.get? c.request.buffer
      = (s.get? c.request.buffer).map fun o => (o.receive c now).1 := by
  induction cs generalizing s with
  | nil => cases hc
  | cons d cs ih =>
    rw [List.map_cons, List.nodup_cons] at hdifferent
    rw [deliverAll_cons]
    rcases List.mem_cons.mp hc with rfl | hc
    · -- the checks after it are for other buffers
      rw [get?_deliverAll_of_not_mem hdifferent.1, get?_completeCheck]
      simp only [if_pos]
    · have hne : c.request.buffer ≠ d.request.buffer := fun heq =>
        hdifferent.1 (heq ▸ List.mem_map_of_mem hc)
      rw [ih hc hdifferent.2, get?_completeCheck_of_ne hne]

theorem SameFrame.deliverAll (s : Session) (cs : List CheckCompleted) (now : Nat) :
    SameFrame s (s.deliverAll now cs).1 := by
  induction cs generalizing s with
  | nil => exact SameFrame.refl s
  | cons c cs ih =>
    rw [deliverAll_cons]
    exact (SameFrame.completeCheck s c now).trans (ih _)

/-- Deliveries change no text and no path. -/
theorem buffer_deliverAll (cs : List CheckCompleted) (s : Session) (now : Nat) (k : BufferId) :
    ((s.deliverAll now cs).1.get? k).map (·.buffer) = (s.get? k).map (·.buffer) := by
  induction cs generalizing s with
  | nil => rfl
  | cons c cs ih =>
    have hone : (OpenBuffer.buffer ∘ fun o => if k = c.request.buffer then (o.receive c now).1 else o)
        = OpenBuffer.buffer := by
      funext o
      rw [Function.comp_apply]
      split
      · exact o.receive_buffer c now
      · rfl
    rw [deliverAll_cons, ih, get?_completeCheck, Option.map_map, hone]

/-! ### Checks that are still to be done -/

/-- Running checks with a linter that has no effects is delivering what it comes to. -/
theorem runChecks_eq_deliverAll (check : Path → Id (List Diagnostic)) (now : Nat)
    (requests : List CheckRequest) (s : Session) :
    (runChecks check now s requests).run
      = s.deliverAll now (requests.map fun r => r.complete (check r.path).run) := by
  induction requests generalizing s with
  | nil => rfl
  | cons r requests ih =>
    rw [List.map_cons, deliverAll_cons, ← ih]
    rfl

end Session

namespace Workbench

/-- **Checks done at once and checks handed out.** Take a linter whose result depends on nothing but
the path and the files, and which changes no files. Running the due checks leaves the session, and
counts as painted, what a poll leaves after which the same linter is run for every request and the
completions are delivered in any order. -/
theorem runDueChecks_eq_deliverAll {w : Workbench} (hw : w.Reachable)
    (lint : FileSystem → Lint.Linter Id) (now : Nat) {done : List CheckCompleted}
    (hdone : done.Perm ((w.session.poll w.fs now).2.2.map fun r =>
      r.complete (Lint.check (lint (w.step (.poll now)).fs) r.path).run)) :
    (w.session.runDueChecks (fun fs => Lint.check (lint fs)) w.fs now).run
      = (((w.step (.poll now)).session.deliverAll now done).1, (w.step (.poll now)).fs,
          ((w.step (.poll now)).session.deliverAll now done).2) := by
  -- the completions belong to different buffers, since the requests do
  have hdifferent : (done.map (·.request.buffer)).Nodup := by
    rw [(hdone.map _).nodup_iff, List.map_map]
    exact hw.wellFormed.nodup_poll_requests w.fs now
  have hrun : (Session.runChecks (Lint.check (lint (w.step (.poll now)).fs)) now
      (w.step (.poll now)).session (w.session.poll w.fs now).2.2).run
        = (w.step (.poll now)).session.deliverAll now done := by
    rw [Session.runChecks_eq_deliverAll]
    exact (Session.deliverAll_perm hdone hdifferent _ now).symm
  rw [← hrun]
  rfl

/-- Two buffers whose checks are due at the same time: the first one gets the findings of an earlier
check when the second one has the focus. -/
def dueTogether : Workbench :=
  (start 5 true {}).run [.openBuffer ⟨⟨"a.py"⟩, "x\n", 0⟩ 0, .poll 5,
    .openBuffer ⟨⟨"b.py"⟩, "y\n", 0⟩ 6, .answer 0 [], .deliver 0 6]

/-- A linter that cannot be run. -/
def missingLinter : Lint.Linter Id := fun _ => .error ⟨"not found"⟩

/-- The check of the second one comes back first. -/
theorem runDueChecks_eq_deliverAll_swapped :
    (dueTogether.session.runDueChecks (fun _ => Lint.check missingLinter) dueTogether.fs 11).run.1
      = ((dueTogether.step (.poll 11)).session.deliverAll 11
          [⟨⟨1, 0, ⟨"b.py"⟩⟩, []⟩, ⟨⟨0, 0, ⟨"a.py"⟩⟩, []⟩]).1 := by
  have hw : dueTogether.Reachable := ⟨5, true, {}, _, rfl⟩
  have hrequests : (dueTogether.session.poll dueTogether.fs 11).2.2
      = [⟨0, 0, ⟨"a.py"⟩⟩, ⟨1, 0, ⟨"b.py"⟩⟩] := by
    decide +kernel
  have hdone : List.Perm [⟨⟨1, 0, ⟨"b.py"⟩⟩, []⟩, ⟨⟨0, 0, ⟨"a.py"⟩⟩, []⟩]
      ((dueTogether.session.poll dueTogether.fs 11).2.2.map fun r =>
        r.complete (Lint.check missingLinter r.path).run) := by
    rw [hrequests]
    exact List.Perm.swap _ _ []
  exact congrArg Prod.fst (runDueChecks_eq_deliverAll hw (fun _ => missingLinter) 11 hdone)

end Workbench

end EditorInsight
