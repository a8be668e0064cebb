import EditorInsight.Proofs.Session.Repainting
import EditorInsight.Proofs.Session.Staleness

/-!
# The revision of a layer

Whoever draws a layer keeps what was drawn until the revision moves. For that the revision has to move
with every change of the painted findings, and these change in three ways: an edit paints them again,
a rename takes them off, and a check with other findings paints those.

* `Layers.Redrawn` relates a layer now and after it has been drawn anew a number of times.
* `Workbench.redraws` says which events draw the layer of a buffer anew; `Touched.redrawn` is one
  event and `redrawn_run` a whole history.
* `Workbench.revision_counts` is what this means for the one who draws.
-/

namespace EditorInsight

/-- Whether the second layer may come from the first by drawing it anew a number of times. -/
structure Layers.Redrawn (l l' : Layers) (times : Nat) : Prop where
  revision : l'.revision = l.revision + times
  annotations : times = 0 → l'.annotations = l.annotations

namespace Layers.Redrawn

variable {l l' l'' : Layers}

theorem of_eq (revision : l'.revision = l.revision) (annotations : l'.annotations = l.annotations) :
    Redrawn l l' 0 :=
  ⟨revision, fun _ => annotations⟩

theorem refl (l : Layers) : Redrawn l l 0 := of_eq rfl rfl

theorem trans {m n : Nat} (h : Redrawn l l' m) (h' : Redrawn l' l'' n) :
    Redrawn l l'' (m + n) := by
  refine ⟨?_, fun hsum => ?_⟩
  · rw [h'.revision, h.revision, Nat.add_assoc]
  · -- it was drawn anew neither before nor after
    obtain ⟨hm, hn⟩ := Nat.add_eq_zero_iff.mp hsum
    exact (h'.annotations hn).trans (h.annotations hm)

theorem apply (l : Layers) (text : String) (ds : List Diagnostic) :
    Redrawn l (l.applyInWords text ds) 1 :=
  ⟨rfl, fun h => absurd h Nat.one_ne_zero⟩

/-- Where nothing is painted, there is nothing to take off. -/
theorem clear (l : Layers) : Redrawn l l.clear (!l.annotations.isEmpty).toNat := by
  unfold Layers.clear
  cases l.annotations.isEmpty with
  | true => exact refl l
  | false => exact ⟨rfl, fun h => absurd h Nat.one_ne_zero⟩

/-- With the same revision, the same findings are painted. -/
theorem annotations_eq {n : Nat} (h : Redrawn l l' n) (heq : l'.revision = l.revision) :
    l'.annotations = l.annotations := by
  have hsum : l.revision + n = l.revision + 0 := h.revision.symm.trans heq
  exact h.annotations (Nat.add_left_cancel hsum)

end Layers.Redrawn

namespace OpenBuffer

/-- A change of the text paints again what is painted. -/
theorem redrawn_changed (o : OpenBuffer) (b : Buffer) :
    o.layers.Redrawn (o.changed b).layers (!o.layers.annotations.isEmpty).toNat := by
  have hclear : o.layers.Redrawn o.layers.clearUnderline 0 := .of_eq rfl rfl
  rw [changed_eq]
  cases hempty : o.layers.annotations.isEmpty with
  | true =>
    rw [if_pos (List.isEmpty_iff.mp hempty)]
    exact hclear
  | false =>
    have hne : o.layers.annotations ≠ [] := fun h => Bool.false_ne_true
      (hempty.symm.trans (List.isEmpty_iff.mpr h))
    rw [if_neg hne]
    exact hclear.trans (.apply o.layers.clearUnderline b.text o.diagnostics)

/-- Findings draw the layer anew if they are painted. -/
theorem redrawn_receive (o : OpenBuffer) (c : CheckCompleted) (now : Nat) :
    o.layers.Redrawn (o.receive c now).1.layers (o.receive c now).2.toNat := by
  rcases o.receive_cases c now with ⟨hrec, -⟩ | ⟨hrec, -⟩
  · rw [hrec]
    exact .refl o.layers
  · rw [hrec]
    exact .apply o.layers o.buffer.text c.diagnostics

end OpenBuffer

/-- Whether an event is of a kind that has nothing to do with findings and texts. -/
def Event.LooksAround : Event → Prop
  | .hover _ _ | .clearHover _ | .activate _ _ | .save _ => True
  | _ => False

namespace Workbench

/-- Whether an event draws the layer of a buffer anew: a change of its text or its path that is
accepted while something is painted, or a check whose findings are painted. -/
def redraws (w : Workbench) (id : BufferId) (e : Event) : Bool :=
  match e with
  | .edit k _ change => k == id && (w.session.get? id).any fun o =>
      (o.buffer.apply change).isOk && !o.layers.annotations.isEmpty
  | .rename k _ _ => k == id && (w.session.get? id).any fun o => !o.layers.annotations.isEmpty
  | e => w.paints id e

/-- How many times the layer of a buffer is drawn anew during a history. -/
def timesRedrawn (w : Workbench) (id : BufferId) : List Event → Nat
  | [] => 0
  | e :: es => (w.redraws id e).toNat + (w.step e).timesRedrawn id es

section OneEvent

variable {w : Workbench} {id : BufferId} {o o' : OpenBuffer}

theorem redraws_edit (ho : w.session.get? id = some o) {change : Change} {r : Buffer × Option Nat}
    (applied : o.buffer.apply change = .ok r) (now : Nat) :
    w.redraws id (.edit id now change) = !o.layers.annotations.isEmpty := by
  unfold redraws
  dsimp only
  rw [beq_self_eq_true, Bool.true_and, ho, Option.any_some, applied]
  exact Bool.true_and _

theorem redraws_rename (ho : w.session.get? id = some o) (path : Path) (now : Nat) :
    w.redraws id (.rename id path now) = !o.layers.annotations.isEmpty := by
  unfold redraws
  dsimp only
  rw [beq_self_eq_true, Bool.true_and, ho, Option.any_some]

theorem Spares.redraws_eq (ho : w.session.get? id = some o) {e : Event}
    (spares : w.Spares id o e) : w.redraws id e = false := by
  cases e with
  | edit k now change =>
    unfold redraws
    dsimp only
    rw [ho, Option.any_some]
    cases hk : k == id with
    | false => rfl
    | true =>
      -- the change is refused
      obtain ⟨e', herror⟩ : ∃ e', o.buffer.apply change = .error e' := spares (beq_iff_eq.mp hk)
      rw [herror]
      rfl
  | rename k path now =>
    have hk : (k == id) = false := beq_eq_false_iff_ne.mpr spares
    unfold redraws
    dsimp only
    rw [hk, Bool.false_and]
  | deliver i now => exact paints_of_not_returns spares.not_returns
  | _ => rfl

/-- **One event** moves the revision by one if it draws the layer anew, and leaves the painted
findings alone if it does not. -/
theorem Touched.redrawn {e : Event} (ho : w.session.get? id = some o) (ht : Touched w id o e o') :
    o.layers.Redrawn o'.layers (w.redraws id e).toNat := by
  cases ht with
  | spared spares =>
    rw [spares.redraws_eq ho]
    exact .refl o.layers
  | covered opens =>
    -- losing the focus to a new buffer costs the timer and nothing else
    cases e with
    | openFile path now => exact .refl o.layers
    | openBuffer b now => exact .refl o.layers
    | _ => exact opens.elim
  | edited applied =>
    rw [redraws_edit ho applied, OpenBuffer.armWhen_layers]
    exact o.redrawn_changed _
  | renamed =>
    rw [redraws_rename ho, OpenBuffer.armWhen_layers]
    exact .clear o.layers
  | @completed i now c flight own =>
    have hpaints : w.redraws id (.deliver i now) = (o.receive c now).2 := paints_deliver flight own ho
    rw [hpaints]
    exact o.redrawn_receive c now
  | _ => exact .of_eq rfl rfl

/-- What only looks around draws nothing. -/
theorem redraws_of_looksAround {e : Event} (h : e.LooksAround) : w.redraws id e = false := by
  cases e with
  | hover k offset => rfl
  | clearHover k => rfl
  | activate k now => rfl
  | save k => rfl
  | _ => exact h.elim

end OneEvent

/-- **Every history** moves the revision as many times as it draws the layer anew. -/
theorem redrawn_run {w : Workbench} (hs : w.session.WellFormed) {id : BufferId} {o o' : OpenBuffer}
    (ho : w.session.get? id = some o) (es : List Event)
    (ho' : (w.run es).session.get? id = some o') :
    o.layers.Redrawn o'.layers (w.timesRedrawn id es) := by
  induction es generalizing w o with
  | nil =>
    obtain rfl := Option.some.inj (ho.symm.trans ho')
    exact .refl o.layers
  | cons e es ih =>
    obtain ⟨o₁, ho₁, ht⟩ := exists_touched_of_run hs ho ho'
    exact (ht.redrawn ho).trans (ih (step_wellFormed hs e) ho₁ ho')

/-- A check that is discarded, or has the findings that the timer remembers, is not painted. -/
theorem receive_unpainted {o : OpenBuffer} {c : CheckCompleted} {now : Nat}
    (h : o.accepts c.request = false ∨ (o.debouncer.record c.diagnostics now).2 = .unchanged) :
    (o.receive c now).2 = false := by
  rcases o.receive_cases c now with ⟨hrec, -⟩ | ⟨-, haccepts, hother⟩
  · rw [hrec]
  · rcases h with hdiscarded | hunchanged
    · rw [haccepts] at hdiscarded
      cases hdiscarded
    · unfold Debouncer.record at hunchanged
      rw [if_neg hother] at hunchanged
      cases hunchanged

/-- **The revision tells which findings are painted.** Let a buffer be open at some moment of a run,
whatever checks the session is told about, and at a later one. The revision of its layer has moved in
between by the number of times that the layer was drawn anew; so it has not fallen, and if it is the
same at both moments, the same findings are painted. Hovering, taking the underline away, giving a
buffer the focus and saving do not move it, whatever buffer they are about, and nor does a check that
is discarded or has the same findings as the last one. -/
theorem revision_counts {w : Workbench} (hw : w.Possible) {id : BufferId} {o : OpenBuffer}
    (ho : w.session.get? id = some o) :
    (∀ es o', (w.run es).session.get? id = some o' →
      o.layers.revision ≤ o'.layers.revision ∧
      o'.layers.revision = o.layers.revision + w.timesRedrawn id es ∧
      (o'.layers.revision = o.layers.revision → o'.layers.annotations = o.layers.annotations)) ∧
    (∀ e : Event, e.LooksAround → ∃ o', (w.step e).session.get? id = some o' ∧
      o'.layers.revision = o.layers.revision) ∧
    ∀ c now, (∀ o₁, w.session.get? c.request.buffer = some o₁ → o₁.accepts c.request = false ∨
        (o₁.debouncer.record c.diagnostics now).2 = .unchanged) →
      ∃ o', (w.session.completeCheck c now).1.get? id = some o' ∧
        o'.layers.revision = o.layers.revision := by
  have hs : w.session.WellFormed := hw.wellFormed
  refine ⟨?_, ?_, ?_⟩
  · intro es o' ho'
    have hredrawn := redrawn_run hs ho es ho'
    refine ⟨?_, hredrawn.revision, hredrawn.annotations_eq⟩
    rw [hredrawn.revision]
    exact Nat.le_add_right _ _
  · intro e hlooks
    have hopen : e ≠ .close id := by
      rintro rfl
      exact hlooks
    obtain ⟨o', ho'⟩ := exists_step ho hopen
    -- a history of one event that draws nothing
    have hredrawn := redrawn_run hs ho [e] ho'
    have hnone : w.timesRedrawn id [e] = 0 := by
      rw [timesRedrawn, redraws_of_looksAround hlooks]
      rfl
    rw [hnone] at hredrawn
    exact ⟨o', ho', hredrawn.revision⟩
  · intro c now hquiet
    rw [Session.get?_completeCheck, ho, Option.map_some]
    split
    · next hid =>
      subst hid
      have hredrawn := o.redrawn_receive c now
      rw [receive_unpainted (hquiet o ho)] at hredrawn
      exact ⟨_, rfl, hredrawn.revision⟩
    · exact ⟨o, rfl, rfl⟩

/-- An edit and a rename move the revision, and giving the focus in between does not. -/
theorem revision_counts_renamed :
    ∃ o', (((startWith 5000 true {} []).run checkedOnce).run
        [.edit 0 6000 (.setText "x = 12\nimport os\n"), .activate 0 6500,
          .rename 0 ⟨"other.py"⟩ 7000]).session.get? 0 = some o' ∧ o'.layers.revision = 3 := by
  have hw : ((startWith 5000 true {} []).run checkedOnce).Possible := ⟨5000, true, {}, [], _, rfl⟩
  have hbefore : (((startWith 5000 true {} []).run checkedOnce).session.get? 0).any
      (fun o => o.layers.revision = 1) = true := by
    decide +kernel
  have hafter : ((((startWith 5000 true {} []).run checkedOnce).run
      [.edit 0 6000 (.setText "x = 12\nimport os\n"), .activate 0 6500,
        .rename 0 ⟨"other.py"⟩ 7000]).session.get? 0).isSome = true := by
    decide +kernel
  obtain ⟨o, ho, hone⟩ := (Option.any_eq_true _ _).mp hbefore
  obtain ⟨o', ho'⟩ := Option.isSome_iff_exists.mp hafter
  obtain ⟨-, hcount, -⟩ := (revision_counts hw ho).1 _ o' ho'
  refine ⟨o', ho', hcount.trans ?_⟩
  rw [of_decide_eq_true hone]
  decide +kernel

end Workbench

end EditorInsight
