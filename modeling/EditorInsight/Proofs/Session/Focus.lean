import EditorInsight.Proofs.Session.Painting
import EditorInsight.Proofs.Session.Quiet

/-!
# Losing the focus

A buffer that loses the focus stops waiting for a check, and while it is hidden neither an edit nor
a new path sets its timer. One thing does: a check that was issued before the focus was lost and
comes back with findings other than the last ones. From then on the hidden buffer waits, until a
check of it is issued or it gets the focus.

* `Touched.idle_of_leaves`: nothing is left of the timer when the focus goes.
* `Workbench.Rearmed` describes the histories that leave a hidden buffer with a running timer, and
  `Touched.isPending_iff` is the step behind it.
* `Workbench.isPending_iff_rearmed`: a hidden buffer waits after exactly these histories.
* `Workbench.left_behind_eq_iff` compares the two ways to lose the focus. Opening a buffer stops the
  timer of the old one, and focusing a buffer removes the underline of the old one as well.
-/

namespace EditorInsight.Workbench

/-! ### One event and the timer -/

/-- A buffer that loses the focus stops waiting. -/
theorem Touched.idle_of_leaves {w : Workbench} {id : BufferId} {e : Event} {o o' : OpenBuffer}
    (ho : w.session.get? id = some o) (ht : Touched w id o e o')
    (focus : w.session.active = some id) (hidden : (w.step e).session.active ≠ some id) :
    o'.debouncer.isPending = false := by
  cases ht with
  | spared spares => exact absurd (spares.active focus) hidden
  | covered => rfl
  | left => rfl
  | @focused now => exact absurd (active_step_activate ho now) hidden
  | _ =>
    -- the other events leave the focus where it is
    refine absurd ((step_active ?_).trans focus) hidden
    exact fun h => h

/-- Whether an event brings back a check of a buffer with findings other than the last ones. -/
def ReturnsNew (w : Workbench) (id : BufferId) : Event → Prop
  | .deliver i now => w.Replaces id (.deliver i now)
  | _ => False

/-- Whether an event issues a check of a buffer. -/
def Rechecks (w : Workbench) (id : BufferId) : Event → Prop
  | .poll now => w.Issues now id
  | _ => False

/-- A buffer that stays hidden waits after an event if a check came back with other findings, or if
it waited before and no check of it was issued. -/
theorem Touched.isPending_iff {w : Workbench} (hs : w.session.WellFormed) {id : BufferId}
    {e : Event} {o o' : OpenBuffer} (ho : w.session.get? id = some o) (ht : Touched w id o e o')
    (hidden : w.session.active ≠ some id) (hidden' : (w.step e).session.active ≠ some id) :
    o'.debouncer.isPending = true ↔
      w.ReturnsNew id e ∨ (o.debouncer.isPending = true ∧ ¬ w.Rechecks id e) := by
  -- most events neither bring findings nor issue checks, and leave the timer alone
  have hkept : ∀ {o' : OpenBuffer}, ¬ w.ReturnsNew id e → ¬ w.Rechecks id e →
      o'.debouncer.deadline = o.debouncer.deadline →
      (o'.debouncer.isPending = true ↔
        w.ReturnsNew id e ∨ (o.debouncer.isPending = true ∧ ¬ w.Rechecks id e)) := by
    intro o' hnew hcheck htimer
    rw [or_iff_right hnew, and_iff_left hcheck, Debouncer.isPending, Debouncer.isPending, htimer]
  cases ht with
  | spared spares =>
    cases e with
    | poll now =>
      refine hkept (fun h => h) (fun hi => ?_) rfl
      obtain ⟨hl, o₁, ho₁, hwants⟩ := (issues_iff hs now id).mp hi
      obtain rfl := Option.some.inj (ho.symm.trans ho₁)
      exact spares ⟨hl, hwants⟩
    | deliver i now =>
      refine hkept ?_ (fun h => h) rfl
      rintro ⟨c, hc, own, -⟩
      exact spares c hc own
    | _ => exact hkept (fun h => h) (fun h => h) rfl
  | covered opens focus => exact absurd focus hidden
  | left other focus => exact absurd focus hidden
  | @focused now => exact absurd (active_step_activate ho now) hidden'
  -- an edit or a new path does not arm a hidden buffer
  | edited =>
    rw [OpenBuffer.armWhen, if_neg hidden]
    exact hkept (fun h => h) (fun h => h) rfl
  | renamed =>
    rw [OpenBuffer.armWhen, if_neg hidden]
    exact hkept (fun h => h) (fun h => h) rfl
  | hovered => exact hkept (fun h => h) (fun h => h) rfl
  | unhovered => exact hkept (fun h => h) (fun h => h) rfl
  | @issued now enabled due =>
    -- the check that is issued uses the timer up
    have hissues : w.Issues now id := (issues_iff hs now id).mpr ⟨enabled, o, ho, due⟩
    refine iff_of_false Bool.false_ne_true ?_
    rintro (hnew | ⟨-, hcheck⟩)
    · exact hnew
    · exact hcheck hissues
  | @completed i now c flight own =>
    have hnew : w.ReturnsNew id (.deliver i now) ↔ (o.receive c now).2 = true := by
      constructor
      · rintro ⟨c', hc', own', hp⟩
        obtain rfl := Flight.finished.inj (Option.some.inj (flight.symm.trans hc'))
        rwa [Session.completeCheck_snd _ (own.symm ▸ ho)] at hp
      · intro hp
        exact ⟨c, flight, own, (Session.completeCheck_snd _ (own.symm ▸ ho) now).trans hp⟩
    rcases o.receive_cases c now with ⟨hrec, -⟩ | ⟨hrec, -⟩
    · -- discarded, or the same findings again
      rw [hrec] at hnew ⊢
      exact hkept (fun h => Bool.false_ne_true (hnew.mp h)) (fun h => h) rfl
    · -- other findings set the timer, whoever has the focus
      rw [hrec] at hnew ⊢
      exact iff_of_true rfl (Or.inl (hnew.mpr rfl))

/-! ### Histories -/

/-- **The histories that leave a hidden buffer waiting.** A check comes back while the buffer is
hidden, and it has other findings than the last one; afterwards the buffer stays hidden, and no
check of it is issued. -/
inductive Rearmed (w : Workbench) (id : BufferId) : List Event → Prop where
  | returned {es : List Event} {e : Event} (hidden : (w.run es).session.active ≠ some id)
      (other : (w.run es).ReturnsNew id e) : Rearmed w id (es ++ [e])
  | kept {es : List Event} {e : Event} (before : Rearmed w id es)
      (hidden : (w.run (es ++ [e])).session.active ≠ some id)
      (waits : ¬ (w.run es).Rechecks id e) : Rearmed w id (es ++ [e])

theorem Rearmed.hidden {w : Workbench} {id : BufferId} {es : List Event}
    (h : w.Rearmed id es) : (w.run es).session.active ≠ some id := by
  cases h with
  | @returned es e hidden other =>
    rw [run_append]
    -- a delivery does not move the focus
    cases e with
    | deliver i now =>
      exact fun focus => hidden ((step_active (e := .deliver i now) fun h => h).symm.trans focus)
    | _ => exact other.elim
  | kept _ hidden => exact hidden

/-- Rearmed by the last event, or rearmed before and left waiting by it. -/
theorem rearmed_concat {w : Workbench} {id : BufferId} (es : List Event) (e : Event) :
    w.Rearmed id (es ++ [e]) ↔
      ((w.run es).session.active ≠ some id ∧ (w.run es).ReturnsNew id e) ∨
      (w.Rearmed id es ∧ (w.run (es ++ [e])).session.active ≠ some id ∧
        ¬ (w.run es).Rechecks id e) := by
  constructor
  · intro h
    -- the constructors append an event to a history, and this is the one that is given
    generalize hes : es ++ [e] = es' at h
    cases h with
    | returned hidden other =>
      obtain ⟨rfl, he⟩ := List.append_inj' hes rfl
      obtain rfl := (List.cons.inj he).1
      exact Or.inl ⟨hidden, other⟩
    | kept before hidden waits =>
      obtain ⟨rfl, he⟩ := List.append_inj' hes rfl
      obtain rfl := (List.cons.inj he).1
      exact Or.inr ⟨before, hidden, waits⟩
  · rintro (⟨hidden, other⟩ | ⟨before, hidden, waits⟩)
    · exact .returned hidden other
    · exact .kept before hidden waits

/-- **When a hidden buffer waits.** After every run, an open buffer that has not the focus has a
running timer if, and only if, a check of it came back while it was hidden, with findings other than
the last ones, and since then the buffer has neither had the focus nor been issued another check. -/
theorem isPending_iff_rearmed (quiet : Nat) (lint : Bool) (fs : FileSystem) (es : List Event)
    (id : BufferId) (o : OpenBuffer)
    (ho : ((start quiet lint fs).run es).session.get? id = some o)
    (hidden : ((start quiet lint fs).run es).session.active ≠ some id) :
    o.debouncer.isPending = true ↔ (start quiet lint fs).Rearmed id es := by
  induction es using List.reverseRecOn generalizing o with
  | nil => cases ho
  | append_singleton es e ih =>
    have hs := run_wellFormed (start_wellFormed quiet lint fs) es
    rw [rearmed_concat]
    rw [run_append] at ho hidden ⊢
    rcases touched_of_step hs ho with ⟨o₁, ho₁, ht⟩ | ⟨rfl, opens, -⟩
    · by_cases focus : ((start quiet lint fs).run es).session.active = some id
      · -- the buffer has just lost the focus, and its timer with it
        rw [ht.idle_of_leaves ho₁ focus hidden]
        refine iff_of_false Bool.false_ne_true ?_
        rintro (⟨hidden₁, -⟩ | ⟨before, -⟩)
        · exact hidden₁ focus
        · exact before.hidden focus
      · rw [ht.isPending_iff hs ho₁ focus hidden, ih o₁ ho₁ focus]
        simp only [and_iff_right (show _ ≠ _ from focus), and_iff_right hidden]
    · -- a new buffer has the focus
      rcases step_opens (w := (start quiet lint fs).run es) opens with hA | hw
      · exact absurd hA hidden
      · replace ho : (((start quiet lint fs).run es).step e).session.get? _ = some o := ho
        rw [hw, hs.nextId_free] at ho
        cases ho

theorem hiddenWhileChecked_waits :
    ∃ o, ((start 5000 true {}).run hiddenWhileChecked).session.get? 0 = some o ∧
      o.debouncer.isPending = true := by
  have hopen : (((start 5000 true {}).run hiddenWhileChecked).session.get? 0).any
      (fun o => o.debouncer.isPending) = true := by
    decide +kernel
  exact (Option.any_eq_true _ _).mp hopen

/-- The buffer that was hidden while its check was under way waits since the check came back. -/
theorem isPending_iff_rearmed_returned :
    ((start 5000 true {}).run hiddenWhileChecked).session.active ≠ some 0 ∧
      (start 5000 true {}).Rearmed 0 hiddenWhileChecked := by
  have hidden : ((start 5000 true {}).run hiddenWhileChecked).session.active ≠ some 0 := by
    decide +kernel
  obtain ⟨o, ho, hwaits⟩ := hiddenWhileChecked_waits
  exact ⟨hidden, (isPending_iff_rearmed _ _ _ _ 0 o ho hidden).mp hwaits⟩

/-- Not every buffer that waits has the focus. -/
theorem pending_without_focus : ¬ ∀ quiet lint fs es id o,
    ((start quiet lint fs).run es).session.get? id = some o → o.debouncer.isPending = true →
      ((start quiet lint fs).run es).session.active = some id := by
  intro h
  obtain ⟨o, ho, hwaits⟩ := hiddenWhileChecked_waits
  have focus := h 5000 true {} hiddenWhileChecked 0 o ho hwaits
  exact absurd focus (by decide +kernel)

/-! ### What is left behind -/

/-- **Opening and focusing.** In every state that a session can get into, let `p` have the focus and
let `q` be another open buffer. Whether a new buffer is opened or `q` is given the focus, `p` stops
waiting and keeps its text, its findings and what is painted; only in the second case it loses its
underline. So both leave `p` in the same state if, and only if, nothing in it was underlined. -/
theorem left_behind_eq_iff (w : Workbench) (hw : w.Possible) (p q : BufferId) (o' : OpenBuffer)
    (focus : w.session.active = some p) (hq : w.session.get? q = some o') (other : q ≠ p)
    (b : Buffer) (now later : Nat) :
    ∃ o s, w.session.get? p = some o ∧ w.session.activate q later = .ok s ∧
      (w.session.openBuffer b now).1.get? p = some o.cancel ∧
      s.get? p = some o.cancel.clearUnderline ∧
      ((w.session.openBuffer b now).1.get? p = s.get? p ↔ o.layers.underline = none) := by
  have hs := hw.wellFormed
  obtain ⟨o, ho⟩ := (w.session.mem_ids_iff p).mp (hs.focus p focus)
  obtain ⟨s, hact⟩ := Session.exists_activate hq later
  -- the buffer that is opened has another identity
  have hnew : p ≠ w.session.nextId := Nat.ne_of_lt (hs.lt_nextId ho)
  have hopened : (w.session.openBuffer b now).1.get? p = some o.cancel := by
    rw [Session.get?_openBuffer _ _ _ _ hs.nextId_free, if_neg hnew, ho, Option.map_some,
      if_pos focus]
  have hleft : s.get? p = some o.cancel.clearUnderline := by
    rw [Session.get?_activate hact, ho, Option.map_some, if_neg (Ne.symm other), if_pos focus]
  refine ⟨o, s, ho, hact, hopened, hleft, ?_⟩
  rw [hopened, hleft]
  constructor
  · intro heq
    -- the second state has no underline, so the first has none
    have hstate : o.cancel = o.cancel.clearUnderline := Option.some.inj heq
    exact congrArg (fun o : OpenBuffer => o.layers.underline) hstate
  · intro hnone
    have hlayers : o.layers.clearUnderline = o.layers := by
      unfold Layers.clearUnderline
      rw [← hnone]
    exact congrArg (fun l => some { o.cancel with layers := l }) hlayers.symm

/-- Two buffers are open, the first has the focus, and the pointer is on its only word. -/
def underlinedFirst : List Event :=
  [.openBuffer ⟨⟨"a.py"⟩, "_", 0⟩ 0, .openBuffer ⟨⟨"b.py"⟩, "y\n", 0⟩ 1, .activate 0 2,
    .hover 0 0]

/-- After the pointer is taken away, it does not matter how the first buffer loses the focus. -/
theorem left_behind_eq_iff_unhovered : ∃ s,
    ((start 5000 true {}).run (underlinedFirst ++ [.clearHover 0])).session.activate 1 3 = .ok s ∧
      (((start 5000 true {}).run (underlinedFirst ++ [.clearHover 0])).session.openBuffer
        ⟨⟨"c.py"⟩, "z\n", 0⟩ 3).1.get? 0 = s.get? 0 := by
  have hopen : (((start 5000 true {}).run
      (underlinedFirst ++ [.clearHover 0])).session.get? 1).isSome = true := by
    decide +kernel
  obtain ⟨o', hq⟩ := Option.isSome_iff_exists.mp hopen
  have hpossible : ((start 5000 true {}).run (underlinedFirst ++ [.clearHover 0])).Possible :=
    ⟨5000, true, {}, [], _, rfl⟩
  have focus : ((start 5000 true {}).run
      (underlinedFirst ++ [.clearHover 0])).session.active = some 0 := by
    decide +kernel
  have hnone : (((start 5000 true {}).run (underlinedFirst ++ [.clearHover 0])).session.get? 0).all
      (fun o => o.layers.underline = none) = true := by
    decide +kernel
  obtain ⟨o, s, ho, hact, -, -, heq⟩ := left_behind_eq_iff _ hpossible 0 1 o' focus hq (by decide)
    ⟨⟨"c.py"⟩, "z\n", 0⟩ 3 3
  rw [ho] at hnone
  exact ⟨s, hact, heq.mpr (of_decide_eq_true hnone)⟩

/-- The two ways to lose the focus do not always leave the same state behind. -/
theorem left_behind_ne : ¬ ∀ quiet lint fs es p q b now s,
    ((start quiet lint fs).run es).session.active = some p → q ≠ p →
      ((start quiet lint fs).run es).session.activate q now = .ok s →
        (((start quiet lint fs).run es).session.openBuffer b now).1.get? p = s.get? p := by
  intro h
  have focus : ((start 5000 true {}).run underlinedFirst).session.active = some 0 := by
    decide +kernel
  have hopen : (((start 5000 true {}).run underlinedFirst).session.get? 1).isSome = true := by
    decide +kernel
  obtain ⟨o, ho⟩ := Option.isSome_iff_exists.mp hopen
  obtain ⟨s, hact⟩ := Session.exists_activate ho 3
  have heq := h 5000 true {} underlinedFirst 0 1 ⟨⟨"c.py"⟩, "z\n", 0⟩ 3 s focus (by decide) hact
  -- one state has the underline, the other has not
  have hword : ((((start 5000 true {}).run underlinedFirst).session.openBuffer
      ⟨⟨"c.py"⟩, "z\n", 0⟩ 3).1.get? 0).any (fun o => o.layers.underline = some ⟨0, 1⟩) = true := by
    decide +kernel
  rw [heq, Session.get?_activate hact] at hword
  revert hword
  decide +kernel

end EditorInsight.Workbench
