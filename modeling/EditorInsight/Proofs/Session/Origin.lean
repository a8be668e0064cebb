import EditorInsight.Proofs.Buffer
import EditorInsight.Proofs.Session.Repainting

/-!
# Where findings come from

The findings of a buffer are those of the last check of it that counted, and a check counts only if it
was done for the path that the buffer has then. After that the path may change in two ways. A rename
drops the findings together with the path that they belong to. An edit that points the buffer at
another file keeps them, so that they are shown and summed up as findings of a file that nobody has
checked.

* `Workbench.counted` lists the checks of a buffer that counted during a history.
* `Workbench.repointed` is the path that an edit has given the buffer since the check in force.
* `Located` says which path a buffer has whose findings are those of a given check; `Touched.located`
  is one event and `located_run` a whole history.
* `Workbench.same_path_iff` is the exact condition for findings to belong to the file of the buffer.
-/

namespace EditorInsight

/-- The path that an event gives a buffer by way of an edit. -/
def Event.repoints? (id : BufferId) : Event → Option Path
  | .edit k _ change => if k = id then change.path? else none
  | _ => none

/-- Whether a buffer has the path of a check, or else the one that an edit has given it since. -/
def OpenBuffer.Located (o : OpenBuffer) (c : CheckCompleted) : Option Path → Prop
  | none => o.buffer.path.same c.request.path = true
  | some path => o.buffer.path = path

theorem OpenBuffer.Located.congr {o o' : OpenBuffer} {c : CheckCompleted} {moved : Option Path}
    (h : o.Located c moved) (hpath : o'.buffer.path = o.buffer.path) : o'.Located c moved := by
  unfold OpenBuffer.Located at h ⊢
  rw [hpath]
  exact h

namespace Workbench

/-- The checks of a buffer that counted during a history, in their order. -/
def counted (w : Workbench) (id : BufferId) : List Event → List CheckCompleted
  | [] => []
  | e :: es => (w.taken? id e).toList ++ (w.step e).counted id es

/-- The path that an edit has given a buffer since the check in force, after an event, if `moved` was
that path before. With another check in force, or none, the edits before do not matter. -/
def repointedAfter (w : Workbench) (id : BufferId) (moved : Option Path) (e : Event) :
    Option Path :=
  if e.renames id ∨ (w.taken? id e).isSome then none else (e.repoints? id).or moved

/-- The path that an edit has given a buffer since the check in force, after a history, if `moved` was
that path before. -/
def repointed (w : Workbench) (id : BufferId) (moved : Option Path) : List Event → Option Path
  | [] => moved
  | e :: es => (w.step e).repointed id (w.repointedAfter id moved e) es

/-! ### The checks that counted -/

section Counted

variable {w : Workbench} {id : BufferId} {last : Option CheckCompleted} {c : CheckCompleted}

theorem inForceAfter_eq_some {e : Event} (h : w.inForceAfter id last e = some c) :
    w.taken? id e = some c ∨ last = some c := by
  unfold inForceAfter at h
  split at h
  · cases h
  · exact Option.or_eq_some_iff.mp h |>.imp (fun h => h) And.right

theorem mem_counted_of_inForce {es : List Event} (h : w.inForce id last es = some c) :
    c ∈ w.counted id es ∨ last = some c := by
  induction es generalizing w last with
  | nil => exact Or.inr h
  | cons e es ih =>
    rcases ih h with hlater | hafter
    · exact Or.inl (List.mem_append_right _ hlater)
    · -- it was in force after the first event
      refine (inForceAfter_eq_some hafter).imp_left fun htaken => ?_
      exact List.mem_append_left _ (Option.mem_toList.mpr htaken)

end Counted

/-! ### The path of the buffer -/

section OneEvent

variable {w : Workbench} {id : BufferId} {o o' : OpenBuffer} {last : Option CheckCompleted}
  {moved : Option Path}

theorem repointedAfter_of_keeps {e : Event} (hkeeps : e.renames id = false)
    (hnone : w.taken? id e = none) :
    w.repointedAfter id moved e = (e.repoints? id).or moved := by
  unfold repointedAfter
  rw [hkeeps, hnone]
  exact if_neg (by decide)

theorem repointedAfter_of_taken {e : Event} {c : CheckCompleted} (h : w.taken? id e = some c) :
    w.repointedAfter id moved e = none := by
  unfold repointedAfter
  rw [h]
  exact if_pos (Or.inr rfl)

/-- An edit that points a buffer at another file cannot be refused. -/
theorem Spares.repoints?_eq {e : Event} (spares : w.Spares id o e) : e.repoints? id = none := by
  cases e with
  | edit k now change =>
    by_cases hk : k = id
    · obtain ⟨e', herror⟩ : ∃ e', o.buffer.apply change = .error e' := spares hk
      refine (if_pos hk).trans ?_
      cases change with
      | setPath path => cases herror
      | _ => rfl
    · exact if_neg hk
  | _ => rfl

/-- **One event.** As long as a check is in force, the buffer has its path or the one that the last
edit of the path gave it. -/
theorem Touched.located {e : Event} (ho : w.session.get? id = some o) (ht : Touched w id o e o')
    (h : ∀ c, last = some c → o.Located c moved) :
    ∀ c, w.inForceAfter id last e = some c → o'.Located c (w.repointedAfter id moved e) := by
  -- an event that brings no check back and leaves the path
  have hquiet : e.renames id = false → ¬ w.Returns id e → e.repoints? id = none →
      o'.buffer.path = o.buffer.path →
      ∀ c, w.inForceAfter id last e = some c → o'.Located c (w.repointedAfter id moved e) := by
    intro hkeeps hn hstays hpath c hc
    rw [inForceAfter_of_quiet hkeeps hn] at hc
    rw [repointedAfter_of_keeps hkeeps (taken?_eq_none hn), hstays, Option.none_or]
    exact (h c hc).congr hpath
  cases ht with
  | spared spares => exact hquiet spares.renames_eq spares.not_returns spares.repoints?_eq rfl
  | covered opens =>
    cases e with
    | openFile path now => exact hquiet rfl (fun hr => hr) rfl rfl
    | openBuffer b now => exact hquiet rfl (fun hr => hr) rfl rfl
    | _ => exact opens.elim
  | @edited now change b offset applied =>
    have hpath := Buffer.path_of_apply applied
    cases hnew : change.path? with
    | none =>
      rw [hnew] at hpath
      refine hquiet rfl (fun hr => hr) ((if_pos rfl).trans hnew) ?_
      rw [OpenBuffer.armWhen_buffer]
      exact hpath
    | some path =>
      intro c hc
      have hrepoints : Event.repoints? id (.edit id now change) = some path :=
        (if_pos rfl).trans hnew
      rw [repointedAfter_of_keeps rfl rfl, hrepoints, Option.some_or]
      rw [hnew] at hpath
      unfold OpenBuffer.Located
      rw [OpenBuffer.armWhen_buffer]
      exact hpath
  | renamed =>
    -- no check is in force any more
    intro c hc
    rw [inForceAfter_rename] at hc
    cases hc
  | @completed i now c flight own =>
    intro c' hc'
    rw [inForceAfter_of_keeps rfl] at hc'
    have htaken : w.taken? id (.deliver i now) = _ := taken?_deliver flight own ho
    cases haccepts : o.accepts c.request with
    | true =>
      rw [if_pos haccepts] at htaken
      rw [htaken] at hc'
      obtain rfl := Option.some.inj hc'
      rw [repointedAfter_of_taken htaken]
      have hsame : o.buffer.path.same c.request.path = true :=
        (Bool.and_eq_true_iff.mp haccepts).1
      exact (congrArg (·.path.same c.request.path) (o.receive_buffer c now)).trans hsame
    | false =>
      -- it is discarded, and the same check stays in force
      rw [if_neg (Bool.eq_false_iff.mp haccepts)] at htaken
      rw [htaken, Option.none_or] at hc'
      rw [repointedAfter_of_keeps rfl htaken]
      exact (h c' hc').congr (congrArg (·.path) (o.receive_buffer c now))
  | _ => exact hquiet rfl (fun hr => hr) rfl rfl

end OneEvent

/-- **Every history.** -/
theorem located_run {w : Workbench} (hs : w.session.WellFormed) {id : BufferId}
    {last : Option CheckCompleted} {moved : Option Path} (htracks : w.Tracks id last)
    (h : ∀ o, w.session.get? id = some o → ∀ c, last = some c → o.Located c moved)
    {es : List Event} {o : OpenBuffer} (ho : (w.run es).session.get? id = some o)
    {c : CheckCompleted} (hc : w.inForce id last es = some c) :
    o.Located c (w.repointed id moved es) := by
  induction es generalizing w last moved with
  | nil => exact h o ho c hc
  | cons e es ih =>
    refine ih (step_wellFormed hs e) (htracks.step hs e) (fun o' ho' c' hc' => ?_) ho hc
    rcases touched_of_step hs ho' with ⟨o₁, ho₁, ht⟩ | ⟨hid, opens, -⟩
    · exact ht.located ho₁ (h o₁ ho₁) c' hc'
    · -- a check cannot have counted for a buffer that was not open yet
      have hclosed : w.session.get? id = none := hid ▸ hs.nextId_free
      rcases inForceAfter_eq_some hc' with htaken | hlast
      · rw [taken?_of_closed hclosed] at htaken
        cases htaken
      · rw [htracks.unopened (Nat.le_of_eq hid.symm)] at hlast
        cases hlast

/-- **When findings belong to the file of the buffer.** After every run of a session, whatever checks
it was told about, the findings of an open buffer, if it has any, are those of the last check of it
that counted since it was opened or renamed. The buffer has the path of that check if, and only if,
no edit has pointed it at another file since then, or the last edit to do so gave it an equal path. -/
theorem same_path_iff (quiet : Nat) (lint : Bool) (fs : FileSystem) (flights : List Flight)
    (es : List Event) (w : Workbench) (hw : w = startWith quiet lint fs flights) (id : BufferId)
    (o : OpenBuffer) (ho : (w.run es).session.get? id = some o) (hne : o.diagnostics ≠ []) :
    ∃ c, w.inForce id none es = some c ∧ c ∈ w.counted id es ∧ o.diagnostics = c.diagnostics ∧
      (o.buffer.path.same c.request.path = true ↔
        ∀ path, w.repointed id none es = some path → path.same c.request.path = true) := by
  subst hw
  have hstart : (startWith quiet lint fs flights).session.WellFormed :=
    start_wellFormed quiet lint fs
  have htracks := tracks_startWith quiet lint fs flights id
  have hpossible : ((startWith quiet lint fs flights).run es).Possible :=
    ⟨quiet, lint, fs, flights, es, rfl⟩
  have hfired := (htracks.run hstart es).recorded o ho
  have hds := hpossible.diagnostics_eq ho
  rw [hfired] at hds
  cases hforce : (startWith quiet lint fs flights).inForce id none es with
  | none =>
    -- no check is in force, so there is nothing to explain
    rw [hforce] at hds
    exact absurd hds hne
  | some c =>
    rw [hforce] at hds
    refine ⟨c, rfl, (mem_counted_of_inForce hforce).resolve_right (fun h => nomatch h), hds, ?_⟩
    have hlocated : o.Located c (repointed _ id none es) :=
      located_run hstart htracks (fun _ h => nomatch h) ho hforce
    cases hmoved : (startWith quiet lint fs flights).repointed id none es with
    | none =>
      rw [hmoved] at hlocated
      exact iff_of_true hlocated fun path h => nomatch h
    | some path =>
      rw [hmoved] at hlocated
      replace hlocated : o.buffer.path = path := hlocated
      rw [hlocated]
      exact ⟨fun hsame path' h => Option.some.inj h ▸ hsame, fun h => h path rfl⟩

/-- An edit of the text leaves the finding with its file. -/
theorem same_path_iff_edited :
    ∃ (o : OpenBuffer) (c : CheckCompleted), ((startWith 5000 true {} []).run
        (checkedOnce ++ [.edit 0 6000 (.setText "x = 12\nimport os\n")])).session.get? 0 = some o ∧
      o.diagnostics = [unusedImport] ∧ c.diagnostics = [unusedImport] ∧
      o.buffer.path.same c.request.path = true := by
  have hfound : (((startWith 5000 true {} []).run
      (checkedOnce ++ [.edit 0 6000 (.setText "x = 12\nimport os\n")])).session.get? 0).any
        (fun o => o.diagnostics = [unusedImport]) = true := by
    decide +kernel
  obtain ⟨o, ho, hds⟩ := (Option.any_eq_true _ _).mp hfound
  replace hds : o.diagnostics = [unusedImport] := of_decide_eq_true hds
  have hne : o.diagnostics ≠ [] := by
    rw [hds]
    exact List.cons_ne_nil _ _
  obtain ⟨c, -, -, hcheck, hsame⟩ := same_path_iff 5000 true {} [] _ _ rfl 0 o ho hne
  have hnone : (startWith 5000 true {} []).repointed 0 none
      (checkedOnce ++ [.edit 0 6000 (.setText "x = 12\nimport os\n")]) = none := by
    decide +kernel
  refine ⟨o, c, ho, hds, hcheck.symm.trans hds, hsame.mpr fun path h => ?_⟩
  rw [hnone] at h
  cases h

/-- An edit of the path takes the finding along to a file that was not checked. -/
theorem same_path_fails : ¬ ∀ quiet lint fs flights es id o,
    ((startWith quiet lint fs flights).run es).session.get? id = some o → o.diagnostics ≠ [] →
      ∃ c ∈ (startWith quiet lint fs flights).counted id es,
        o.diagnostics = c.diagnostics ∧ o.buffer.path.same c.request.path = true := by
  intro h
  have hkept : (((startWith 5000 true {} []).run
      (checkedOnce ++ [.edit 0 6000 (.setPath ⟨"other.py"⟩)])).session.get? 0).any
        (fun o => o.diagnostics = [unusedImport] ∧ o.buffer.path = ⟨"other.py"⟩) = true := by
    decide +kernel
  have hchecks : ((startWith 5000 true {} []).counted 0
      (checkedOnce ++ [.edit 0 6000 (.setPath ⟨"other.py"⟩)])).all
        (fun c => !(Path.mk "other.py").same c.request.path) = true := by
    decide +kernel
  obtain ⟨o, ho, hkept⟩ := (Option.any_eq_true _ _).mp hkept
  obtain ⟨hds, hpath⟩ := of_decide_eq_true hkept
  have hne : o.diagnostics ≠ [] := by
    rw [hds]
    exact List.cons_ne_nil _ _
  obtain ⟨c, hc, -, hsame⟩ := h 5000 true {} [] _ 0 o ho hne
  rw [hpath] at hsame
  have hother := List.all_eq_true.mp hchecks c hc
  rw [hsame] at hother
  cases hother

end Workbench

end EditorInsight
