import EditorInsight.Proofs.Painting.Report
import EditorInsight.Proofs.Session.Attention
import EditorInsight.Proofs.Session.Builds

/-!
# Painted again on change

The findings of a buffer are kept three times: the timer has the last ones to compare new ones with,
the buffer has them to paint them again after an edit, and the layer has them painted. A check that
counts and a new path change all three, an edit only the last one. To have no findings and not to have
been checked is one and the same for the buffer and for the layer, but not for the timer.

* `Workbench.inForce` is the check whose findings a buffer has: the last one that counted since the
  buffer was opened or last pointed at another file.
* `Workbench.Tracks` says that the timer remembers this check; `Tracks.step` is one event and
  `Tracks.run` a whole history.
* `Possible.diagnostics_eq`: the buffer has the findings that its timer remembers.
* `Workbench.repainted_iff_differs`: which checks are painted, and how many of them if all have the
  same findings.
-/

namespace EditorInsight

/-- Whether an event points a buffer at another file. -/
def Event.renames (id : BufferId) : Event → Bool
  | .rename k _ _ => k == id
  | _ => false

namespace Workbench

/-! ### The check in force -/

/-- The check that is in force after an event, if `last` was so before. -/
def inForceAfter (w : Workbench) (id : BufferId) (last : Option CheckCompleted) (e : Event) :
    Option CheckCompleted :=
  if e.renames id then none else (w.taken? id e).or last

/-- The check that is in force after a history, if `last` was so before. -/
def inForce (w : Workbench) (id : BufferId) (last : Option CheckCompleted) :
    List Event → Option CheckCompleted
  | [] => last
  | e :: es => (w.step e).inForce id (w.inForceAfter id last e) es

/-- Whether an event brings back a check of a buffer and the session answers that it was painted. -/
def paints (w : Workbench) (id : BufferId) : Event → Bool
  | .deliver i now =>
    match w.flights[i]? with
    | some (.finished c) => c.request.buffer == id && (w.session.completeCheck c now).2
    | _ => false
  | _ => false

/-- How many checks of a buffer are painted during a history. -/
def repaints (w : Workbench) (id : BufferId) : List Event → Nat
  | [] => 0
  | e :: es => (w.paints id e).toNat + (w.step e).repaints id es

/-- Whether all checks of a buffer that count during a history have the same findings, and the buffer
keeps its file. -/
def Repeats (w : Workbench) (id : BufferId) (ds : List Diagnostic) : List Event → Prop
  | [] => True
  | e :: es => e.renames id = false ∧ (∀ c ∈ w.taken? id e, c.diagnostics = ds) ∧
    (w.step e).Repeats id ds es

instance Repeats.decidable (w : Workbench) (id : BufferId) (ds : List Diagnostic) :
    ∀ es, Decidable (w.Repeats id ds es)
  | [] => isTrue trivial
  | e :: es =>
    have := Repeats.decidable (w.step e) id ds es
    inferInstanceAs (Decidable (e.renames id = false ∧ (∀ c ∈ w.taken? id e, c.diagnostics = ds) ∧
      (w.step e).Repeats id ds es))

section OneEvent

variable {w : Workbench} {id : BufferId} {o o' : OpenBuffer} {last : Option CheckCompleted}

theorem inForceAfter_of_keeps {e : Event} (h : e.renames id = false) :
    w.inForceAfter id last e = (w.taken? id e).or last := by
  unfold inForceAfter
  rw [h]
  rfl

/-- Where no check comes back and the buffer keeps its file, the same check stays in force. -/
theorem inForceAfter_of_quiet {e : Event} (h : e.renames id = false) (hn : ¬ w.Returns id e) :
    w.inForceAfter id last e = last := by
  rw [inForceAfter_of_keeps h, taken?_eq_none hn, Option.none_or]

theorem inForceAfter_rename (path : Path) (now : Nat) :
    w.inForceAfter id last (.rename id path now) = none :=
  if_pos (beq_self_eq_true id)

theorem Spares.renames_eq {e : Event} (spares : w.Spares id o e) : e.renames id = false := by
  cases e with
  | rename k path now => exact beq_eq_false_iff_ne.mpr spares
  | _ => rfl

/-- What the timer remembers follows the check in force. -/
theorem Touched.lastFired {e : Event} (ho : w.session.get? id = some o) (ht : Touched w id o e o')
    (h : o.debouncer.lastFired = last.map (·.diagnostics)) :
    o'.debouncer.lastFired = (w.inForceAfter id last e).map (·.diagnostics) := by
  -- most events leave both the timer's memory and the check in force alone
  have hquiet : e.renames id = false → ¬ w.Returns id e →
      o'.debouncer.lastFired = o.debouncer.lastFired →
      o'.debouncer.lastFired = (w.inForceAfter id last e).map (·.diagnostics) := by
    intro hkeeps hn hsame
    rw [hsame, h, inForceAfter_of_quiet hkeeps hn]
  cases ht with
  | spared spares => exact hquiet spares.renames_eq spares.not_returns rfl
  | covered opens =>
    cases e with
    | openFile path now => exact hquiet rfl (fun hr => hr) rfl
    | openBuffer b now => exact hquiet rfl (fun hr => hr) rfl
    | _ => exact opens.elim
  | edited =>
    rw [OpenBuffer.armWhen_lastFired] at hquiet ⊢
    exact hquiet rfl (fun hr => hr) rfl
  | renamed =>
    rw [OpenBuffer.armWhen_lastFired, inForceAfter_rename]
    rfl
  | @completed i now c flight own =>
    -- a check that counts is remembered even if it is not painted
    rw [OpenBuffer.receive_lastFired, inForceAfter_of_keeps rfl, taken?_deliver flight own ho]
    split
    · rfl
    · exact h
  | _ => exact hquiet rfl (fun hr => hr) rfl

theorem paints_deliver {i now : Nat} {c : CheckCompleted}
    (flight : w.flights[i]? = some (.finished c)) (own : c.request.buffer = id)
    (ho : w.session.get? id = some o) : w.paints id (.deliver i now) = (o.receive c now).2 := by
  have hanswer := Session.completeCheck_snd w.session (own.symm ▸ ho) now
  simp only [paints, flight, own, beq_self_eq_true, Bool.true_and, hanswer]

theorem paints_of_not_returns {e : Event} (h : ¬ w.Returns id e) : w.paints id e = false := by
  cases e with
  | deliver i now =>
    unfold paints
    dsimp only
    split
    · next c flight =>
      have hother : (c.request.buffer == id) = false :=
        beq_eq_false_iff_ne.mpr fun own => h ⟨c, flight, own⟩
      rw [hother, Bool.false_and]
    · rfl
  | _ => rfl

/-- A check is painted if it counts and has other findings than those that the timer remembers. -/
theorem paints_iff_of_open (ho : w.session.get? id = some o) (e : Event) :
    w.paints id e = true ↔
      ∃ c, w.taken? id e = some c ∧ o.debouncer.lastFired ≠ some c.diagnostics := by
  by_cases hr : w.Returns id e
  · cases e with
    | deliver i now =>
      obtain ⟨c, flight, own⟩ := hr
      rw [paints_deliver flight own ho, taken?_deliver flight own ho]
      rcases o.receive_cases c now with ⟨hrec, hwhy⟩ | ⟨hrec, haccepts, hother⟩
      · rw [hrec]
        refine iff_of_false Bool.false_ne_true ?_
        rintro ⟨c', hc', hother⟩
        rcases hwhy with hdiscarded | hsame
        · rw [hdiscarded, if_neg Bool.false_ne_true] at hc'
          cases hc'
        · -- it may count, but it has nothing new
          split at hc'
          · exact hother (Option.some.inj hc' ▸ hsame)
          · cases hc'
      · rw [hrec, if_pos haccepts]
        exact iff_of_true rfl ⟨c, rfl, hother⟩
    | _ => exact hr.elim
  · rw [paints_of_not_returns hr, taken?_eq_none hr]
    refine iff_of_false Bool.false_ne_true ?_
    rintro ⟨c, hc, -⟩
    cases hc

/-- Nothing comes back to a buffer that is not open. -/
theorem taken?_of_closed (hc : w.session.get? id = none) (e : Event) : w.taken? id e = none := by
  cases e with
  | deliver i now =>
    unfold taken?
    dsimp only
    split
    · rw [hc]
      exact if_neg fun hcounts => Bool.false_ne_true hcounts.2
    · rfl
  | _ => rfl

theorem paints_of_closed (hc : w.session.get? id = none) (e : Event) : w.paints id e = false := by
  cases e with
  | deliver i now =>
    unfold paints
    dsimp only
    split
    · next c _ =>
      cases hown : c.request.buffer == id with
      | false => rfl
      | true =>
        rw [Session.completeCheck_eq, beq_iff_eq.mp hown, hc]
        rfl
    · rfl
  | _ => rfl

end OneEvent

/-! ### Histories -/

/-- Whether the timer of a buffer, if it is open, remembers the findings of the check `last`. Before
the buffer is opened there is no such check. -/
structure Tracks (w : Workbench) (id : BufferId) (last : Option CheckCompleted) : Prop where
  recorded : ∀ o, w.session.get? id = some o →
    o.debouncer.lastFired = last.map (·.diagnostics)
  unopened : w.session.nextId ≤ id → last = none

section Histories

variable {w : Workbench} {id : BufferId} {last : Option CheckCompleted}

theorem Tracks.step (hs : w.session.WellFormed) (h : w.Tracks id last) (e : Event) :
    (w.step e).Tracks id (w.inForceAfter id last e) where
  recorded := by
    intro o' ho'
    rcases touched_of_step hs ho' with ⟨o, ho, ht⟩ | ⟨hid, opens, b, now, -, rfl⟩
    · exact ht.lastFired ho (h.recorded o ho)
    · -- a new buffer has not been checked
      have hkeeps : e.renames id = false := by
        cases e with
        | rename k path now => exact opens.elim
        | _ => rfl
      have hclosed : w.session.get? id = none := hid ▸ hs.nextId_free
      rw [inForceAfter_of_keeps hkeeps, taken?_of_closed hclosed, h.unopened (Nat.le_of_eq hid.symm)]
      rfl
  unopened := by
    intro hle
    have hle' : w.session.nextId ≤ id := Nat.le_trans (w.step_frame e).2.2 hle
    have hclosed : w.session.get? id = none := by
      cases ho : w.session.get? id with
      | none => rfl
      | some o => exact absurd (hs.lt_nextId ho) (Nat.not_lt_of_le hle')
    unfold inForceAfter
    rw [taken?_of_closed hclosed, h.unopened hle', Option.none_or, ite_self]

theorem Tracks.run (hs : w.session.WellFormed) (h : w.Tracks id last) (es : List Event) :
    (w.run es).Tracks id (w.inForce id last es) := by
  induction es generalizing w last with
  | nil => exact h
  | cons e es ih => exact ih (step_wellFormed hs e) (h.step hs e)

theorem tracks_startWith (quiet : Nat) (lint : Bool) (fs : FileSystem) (flights : List Flight)
    (id : BufferId) : (startWith quiet lint fs flights).Tracks id none where
  recorded := fun _ ho => nomatch ho
  unopened := fun _ => rfl

theorem Tracks.paints_iff (h : w.Tracks id last) (e : Event) :
    w.paints id e = true ↔
      ∃ c, w.taken? id e = some c ∧ last.map (·.diagnostics) ≠ some c.diagnostics := by
  cases ho : w.session.get? id with
  | none =>
    rw [paints_of_closed ho, taken?_of_closed ho]
    refine iff_of_false Bool.false_ne_true ?_
    rintro ⟨c, hc, -⟩
    cases hc
  | some o =>
    rw [← h.recorded o ho]
    exact paints_iff_of_open ho e

/-- **The same findings again and again are painted once**, with the first check that counts, and not
even then if they are in force already. -/
theorem Tracks.repaints_eq (hs : w.session.WellFormed) (h : w.Tracks id last)
    {ds : List Diagnostic} {es : List Event} (hrep : w.Repeats id ds es) :
    w.repaints id es
      = if last.map (·.diagnostics) = some ds ∨ w.lastTaken id es = none then 0 else 1 := by
  induction es generalizing w last with
  | nil => exact (if_pos (Or.inr rfl)).symm
  | cons e es ih =>
    obtain ⟨hkeeps, hsame, hrest⟩ := hrep
    have hih := ih (step_wellFormed hs e) (h.step hs e) hrest
    rw [inForceAfter_of_keeps hkeeps] at hih
    rw [repaints, hih, lastTaken]
    cases ht : w.taken? id e with
    | none =>
      -- nothing was taken, so nothing was painted either
      have hpaints : w.paints id e = false := by
        refine Bool.eq_false_iff.mpr fun hp => ?_
        obtain ⟨c, hc, -⟩ := (h.paints_iff e).mp hp
        rw [ht] at hc
        cases hc
      rw [hpaints, Option.none_or, Option.or_none, Bool.toNat_false, Nat.zero_add]
    | some c =>
      have hds : c.diagnostics = ds := hsame c ht
      -- from now on the findings are in force
      have hforce : Option.map (·.diagnostics) ((some c).or last) = some ds := congrArg some hds
      have htaken : ((w.step e).lastTaken id es).or (some c) ≠ none := by
        cases (w.step e).lastTaken id es <;> exact Option.some_ne_none _
      have hpaints : w.paints id e = true ↔ last.map (·.diagnostics) ≠ some ds := by
        rw [h.paints_iff, ← hds]
        constructor
        · rintro ⟨c', hc', hother⟩
          exact Option.some.inj (ht.symm.trans hc') ▸ hother
        · exact fun hother => ⟨c, ht, hother⟩
      rw [if_pos (Or.inl hforce), Nat.add_zero]
      by_cases hforced : last.map (·.diagnostics) = some ds
      · have hnot : w.paints id e = false :=
          Bool.eq_false_iff.mpr fun hp => hpaints.mp hp hforced
        rw [if_pos (Or.inl hforced), hnot, Bool.toNat_false]
      · rw [if_neg (not_or.mpr ⟨hforced, htaken⟩), hpaints.mpr hforced, Bool.toNat_true]

end Histories

/-! ### What the buffer has -/

theorem Touched.diagnostics_eq {w : Workbench} {id : BufferId} {e : Event} {o o' : OpenBuffer}
    (h : o.diagnostics = o.debouncer.lastFired.getD []) (ht : Touched w id o e o') :
    o'.diagnostics = o'.debouncer.lastFired.getD [] := by
  cases ht with
  | edited =>
    rw [OpenBuffer.armWhen_diagnostics, OpenBuffer.armWhen_lastFired]
    exact h
  | renamed =>
    rw [OpenBuffer.armWhen_diagnostics, OpenBuffer.armWhen_lastFired]
    rfl
  | @completed i now c =>
    rcases o.receive_cases c now with ⟨hrec, -⟩ | ⟨hrec, -⟩
    · rw [hrec]
      exact h
    · rw [hrec]
      rfl
  | _ => exact h

theorem Possible.diagnostics_eq {w : Workbench} (hw : w.Possible) {id : BufferId} {o : OpenBuffer}
    (ho : w.session.get? id = some o) : o.diagnostics = o.debouncer.lastFired.getD [] := by
  refine hw.induction (P := fun w => ∀ o, w.session.get? id = some o →
    o.diagnostics = o.debouncer.lastFired.getD []) ?_ ?_ o ho
  · intro quiet lint fs flights o ho
    cases ho
  · intro w e hw ih o' ho'
    rcases touched_of_step hw.wellFormed ho' with ⟨o, ho, ht⟩ | ⟨-, -, b, now, -, rfl⟩
    · exact ht.diagnostics_eq (ih o ho)
    · rfl

/-- **Painted again exactly on change.** After every run of a session, in whatever build and whatever
checks it was told about, let `last` be the findings of the last check of an open buffer that was not
discarded since the buffer was opened or last pointed at another file. These are the findings of the
buffer, and it has none if there was no such check. If another check of it is not discarded, a build
that checks its sums stops if, and only if, the findings are other ones than `last`, or there was none,
and the sum for the end of one of them is too large. Otherwise the session answers that the check was
painted, and the revision of the layer grows by one, if, and only if, its findings are other ones than
`last`, or there was none; then they are the findings of the buffer, and painted over its text; and if
not, the layer and the timer are left alone. So of any number of checks with the same findings one is
painted, and none if these were the last findings before. -/
theorem repainted_iff_differs (build : Arithmetic) (quiet : Nat) (lint : Bool) (fs : FileSystem)
    (flights : List Flight) (es : List Event) (w : Workbench)
    (hw : (startWith quiet lint fs flights).run? build es = some w)
    (id : BufferId) (o : OpenBuffer) (ho : w.session.get? id = some o)
    (last : Option (List Diagnostic))
    (hlast : last
      = ((startWith quiet lint fs flights).inForce id none es).map (·.diagnostics)) :
    o.diagnostics = last.getD [] ∧
    (∀ c now, c.request.buffer = id → o.accepts c.request = true →
      (Text.IsStorable o.buffer.text →
        (w.session.completeCheck? build c now = none ↔
          last ≠ some c.diagnostics ∧ build = .checked ∧
            ∃ d ∈ c.diagnostics, ¬ d.EndFits o.buffer.text)) ∧
      ∀ s painted, w.session.completeCheck? build c now = some (s, painted) →
        ∃ o', s.get? id = some o' ∧
          (painted = true ↔ last ≠ some c.diagnostics) ∧
          (o'.layers.revision = o.layers.revision + 1 ↔ last ≠ some c.diagnostics) ∧
          (last ≠ some c.diagnostics → o'.diagnostics = c.diagnostics ∧
            o'.layers.annotations = paintInWords o.buffer.text c.diagnostics) ∧
          (last = some c.diagnostics → o'.layers = o.layers ∧ o'.debouncer = o.debouncer)) ∧
    ∀ ds more, w.Repeats id ds more →
      w.repaints id more = if last = some ds ∨ w.lastTaken id more = none then 0 else 1 := by
  have hpossible : w.Possible := Possible.of_run? hw
  obtain rfl := run?_eq_some hw
  have hstart : (startWith quiet lint fs flights).session.WellFormed :=
    start_wellFormed quiet lint fs
  have htracks := (tracks_startWith quiet lint fs flights id).run hstart es
  have hfired : o.debouncer.lastFired = last := (htracks.recorded o ho).trans hlast.symm
  refine ⟨?_, ?_, ?_⟩
  · rw [← hfired]
    exact hpossible.diagnostics_eq ho
  · rintro c now rfl haccepts
    refine ⟨fun htext => ?_, fun s painted hs => ?_⟩
    · rw [← hfired, ← paintInWords?_eq_none_iff htext, Session.completeCheck?_eq_none_iff]
      constructor
      · rintro ⟨o₁, ho₁, hnew, hpaint⟩
        obtain rfl := Option.some.inj (ho.symm.trans ho₁)
        exact ⟨hnew.2, hpaint⟩
      · rintro ⟨hother, hpaint⟩
        exact ⟨o, ho, ⟨haccepts, hother⟩, hpaint⟩
    · have hanswer := Session.completeCheck?_eq_some hs
      have hafter : s = _ := congrArg Prod.fst hanswer
      have hpainted : painted = _ := congrArg Prod.snd hanswer
      refine ⟨(o.receive c now).1, ?_, ?_⟩
      · rw [hafter, Session.get?_completeCheck, ho, Option.map_some, if_pos rfl]
      · rw [hpainted, Session.completeCheck_snd _ ho now]
        rcases o.receive_cases c now with ⟨hrec, hwhy⟩ | ⟨hrec, -, hother⟩
        · -- it counts and is not painted, so its findings are the last ones
          have hsame : last = some c.diagnostics := by
            rcases hwhy with hdiscarded | hsame
            · exact absurd (haccepts.symm.trans hdiscarded) (Ne.symm Bool.false_ne_true)
            · exact hfired.symm.trans hsame
          rw [hrec]
          refine ⟨?_, ?_, fun hother => absurd hsame hother, fun _ => ⟨rfl, rfl⟩⟩
          · exact iff_of_false Bool.false_ne_true fun hother => hother hsame
          · exact iff_of_false (Nat.succ_ne_self _).symm fun hother => hother hsame
        · rw [hfired] at hother
          rw [hrec]
          refine ⟨?_, ?_, fun _ => ⟨rfl, rfl⟩, fun hsame => absurd hsame hother⟩
          · exact iff_of_true rfl hother
          · exact iff_of_true rfl hother
  · intro ds more hrep
    rw [hlast]
    exact htracks.repaints_eq hpossible.wellFormed hrep

/-- The same finding comes back twice and the layer is painted once; the buffer is edited in
between. -/
theorem repainted_iff_differs_repeated :
    ∃ w, (startWith 5000 true {} []).run? .checked
        [.openBuffer ⟨⟨"main.py"⟩, "x = 1\nimport os\n", 0⟩ 0] = some w ∧
      w.repaints 0 [.poll 5000, .answer 0 [unusedImport], .deliver 0 5000,
        .edit 0 6000 (.setText "x = 12\nimport os\n"), .poll 11000, .answer 0 [unusedImport],
        .deliver 0 11000] = 1 := by
  have hopen : ((startWith 5000 true {} []).run? .checked
      [.openBuffer ⟨⟨"main.py"⟩, "x = 1\nimport os\n", 0⟩ 0]).any
        (fun w => (w.session.get? 0).isSome) = true := by
    decide +kernel
  obtain ⟨w, hw, hopen⟩ := (Option.any_eq_true _ _).mp hopen
  obtain ⟨o, ho⟩ := Option.isSome_iff_exists.mp hopen
  obtain ⟨-, -, honce⟩ := repainted_iff_differs .checked 5000 true {} [] _ w hw 0 o ho _ rfl
  refine ⟨w, hw, ?_⟩
  obtain rfl := run?_eq_some hw
  refine (honce [unusedImport] _ (by decide +kernel)).trans (if_neg ?_)
  decide +kernel

/-- A check that is not discarded, and the first of its buffer, need not get an answer: its only finding,
read from a report, runs past the end of its line as far as can be, and a build with checks stops. -/
theorem first_check_unanswered : ¬ ∀ build quiet lint fs es w id o c now output,
    (start quiet lint fs).run? build es = some w → w.session.get? id = some o →
      c.request.buffer = id → o.accepts c.request = true →
      (start quiet lint fs).inForce id none es = none →
      Lint.parseReport output = .ok c.diagnostics →
        ∃ s, w.session.completeCheck? build c now = some (s, true) := by
  intro h
  have hopen : ((start 5000 true {}).run? .checked
      [.openBuffer ⟨⟨"main.py"⟩, "x = 1\nimport os\n", 0⟩ 0, .poll 5000]).any (fun w =>
        (w.session.get? 0).any (fun o => o.accepts ⟨0, 0, ⟨"main.py"⟩⟩) ∧
          w.session.completeCheck? .checked
            ⟨⟨0, 0, ⟨"main.py"⟩⟩, [upToColumn (Json.wordSize - 1)]⟩ 5000 = none) = true := by
    decide +kernel
  obtain ⟨w, hw, hall⟩ := (Option.any_eq_true _ _).mp hopen
  obtain ⟨hopen, hstops⟩ := of_decide_eq_true hall
  obtain ⟨o, ho, haccepts⟩ := (Option.any_eq_true _ _).mp hopen
  obtain ⟨s, hs⟩ := h .checked _ _ _ _ w 0 o ⟨⟨0, 0, ⟨"main.py"⟩⟩, [upToColumn (Json.wordSize - 1)]⟩
    5000 _ hw ho rfl haccepts rfl (parseReport_upToColumn (by decide))
  cases hstops.symm.trans hs

end Workbench

end EditorInsight
