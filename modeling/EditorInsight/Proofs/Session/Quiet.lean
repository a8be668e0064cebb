import EditorInsight.Proofs.Session.Workbench
import Mathlib.Logic.Basic

/-!
# The rest before a check

A check is meant to wait until the edits of its buffer have rested. Every event that sets a timer
sets it to the present time and the quiet interval, so a timer that respects an edit goes on
respecting it while time does not run backwards. But only the buffer with the focus has its timer
restarted by an edit. A hidden buffer has no timer, except when a check that was under way as it was
hidden comes back with other findings; then an edit of it does not move the timer, and the next
check may come too early.

* `Workbench.Respects` is the invariant: the timer of a buffer, if it runs, ends a quiet interval
  after a given time or later.
* `Workbench.run_respects`: it is kept as time goes on.
* `Workbench.Settled` is what every buffer satisfies in every run: it has the interval of the
  session, and if it waits for a check without having the focus, no check of it is under way.
* `Workbench.waits_after_edit_iff` says after exactly which edits no check can come too early.
-/

namespace EditorInsight

/-! ### Timers -/

theorem OpenBuffer.deadline_armWhen {o : OpenBuffer} {p : Prop} [Decidable p] {now d : Nat}
    (hd : (o.armWhen p now).debouncer.deadline = some d) :
    o.debouncer.deadline = some d ∨ d = now + o.debouncer.quiet := by
  unfold armWhen at hd
  split at hd
  · exact Or.inr (Option.some.inj hd).symm
  · exact Or.inl hd

namespace Workbench

/-- A timer that runs after an event ran before it or was set by it. -/
theorem Touched.deadline_cases {w : Workbench} {id : BufferId} {e : Event} {o o' : OpenBuffer}
    (ht : Touched w id o e o') {d : Nat} (hd : o'.debouncer.deadline = some d) :
    o.debouncer.deadline = some d ∨ ∃ now, e.time? = some now ∧ d = now + o.debouncer.quiet := by
  cases ht with
  | spared => exact Or.inl hd
  -- a buffer that loses the focus has no timer
  | covered => cases hd
  | left => cases hd
  | @focused now => exact Or.inr ⟨now, rfl, (Option.some.inj hd).symm⟩
  | @edited now change b offset applied =>
    exact (OpenBuffer.deadline_armWhen (o := o.changed b) hd).imp_right fun h => ⟨now, rfl, h⟩
  | @renamed path now =>
    exact (OpenBuffer.deadline_armWhen (o := o.renamed path) hd).imp_right fun h =>
      ⟨now, rfl, h⟩
  | hovered => exact Or.inl hd
  | unhovered => exact Or.inl hd
  | issued => cases hd
  | @completed i now c =>
    rcases o.receive_cases c now with ⟨hrec, -⟩ | ⟨hrec, -⟩
    · rw [hrec] at hd
      exact Or.inl hd
    · -- other findings arm the buffer, with or without the focus
      rw [hrec] at hd
      exact Or.inr ⟨now, rfl, (Option.some.inj hd).symm⟩

theorem Touched.quiet {w : Workbench} {id : BufferId} {e : Event} {o o' : OpenBuffer}
    (ht : Touched w id o e o') : o'.debouncer.quiet = o.debouncer.quiet := by
  cases ht with
  | edited => exact OpenBuffer.armWhen_quiet _ _ _
  | renamed => exact OpenBuffer.armWhen_quiet _ _ _
  | @completed i now c =>
    -- recording findings keeps the interval
    rcases o.receive_cases c now with ⟨hrec, -⟩ | ⟨hrec, -⟩
    · rw [hrec]
    · rw [hrec]
      rfl
  | _ => rfl

/-! ### Buffers without the focus -/

/-- A buffer that has the focus and is left alone keeps the focus. -/
theorem Spares.active {w : Workbench} {id : BufferId} {o : OpenBuffer} {e : Event}
    (hs : w.Spares id o e) (focus : w.session.active = some id) :
    (w.step e).session.active = some id := by
  cases e with
  | openFile path now => rw [hs focus, focus]
  | openBuffer b now => exact absurd focus hs
  | close k =>
    rw [step]
    split
    · next s fs b hr =>
      obtain ⟨o₁, -, hr⟩ := Session.close_eq_ok hr
      obtain ⟨rfl, -⟩ := Prod.mk.inj hr
      have hne : ¬ w.session.active = some k := fun h =>
        hs (Option.some.inj (h.symm.trans focus))
      exact (if_neg hne).trans focus
    · exact focus
  | activate k now =>
    -- only an activation that fails leaves it alone
    rcases w.adopt_cases (w.session.activate k now) with ⟨s, hr, -⟩ | hw
    · obtain ⟨hk, -⟩ := Session.activate_frame hr
      exact absurd hk ((w.session.get?_eq_none_iff k).mp (hs.2 focus))
    · rw [step, hw, focus]
  | _ =>
    refine (step_active ?_).trans focus
    exact fun h => h

/-- What holds of every open buffer after every run. -/
structure Settled (w : Workbench) (id : BufferId) (o : OpenBuffer) : Prop where
  quiet : o.debouncer.quiet = w.session.quiet
  /-- A hidden buffer that waits for a check was given its timer by the check before. -/
  hidden : w.session.active ≠ some id → ∀ d, o.debouncer.deadline = some d → o.inFlight = false

/-- If a hidden buffer waits for a check after an event, none is under way: it was hidden and waited
before the event, or its check has just come back. -/
theorem Touched.hidden {w : Workbench} {id : BufferId} {e : Event} {o o' : OpenBuffer}
    (ho : w.session.get? id = some o) (ht : Touched w id o e o') (h : w.Settled id o)
    (hidden : (w.step e).session.active ≠ some id) {d : Nat}
    (hd : o'.debouncer.deadline = some d) : o'.inFlight = false := by
  -- an edit or a new path neither moves the focus nor arms a hidden buffer
  have harm : ∀ (o₁ : OpenBuffer) (now : Nat), ¬ e.MovesFocus →
      o₁.debouncer.deadline = o.debouncer.deadline → o₁.inFlight = o.inFlight →
      (o₁.armWhen (w.session.active = some id) now).debouncer.deadline = some d →
      (o₁.armWhen (w.session.active = some id) now).inFlight = false := by
    intro o₁ now hfocus hdeadline hflag hd
    rw [step_active hfocus] at hidden
    rw [OpenBuffer.armWhen, if_neg hidden] at hd ⊢
    exact hflag.trans (h.hidden hidden d (hdeadline.symm.trans hd))
  cases ht with
  | spared spares => exact h.hidden (fun focus => hidden (spares.active focus)) d hd
  | covered => cases hd
  | left => cases hd
  | @focused now => exact absurd (active_step_activate ho now) hidden
  | edited applied => exact harm _ _ (fun h => h) rfl rfl hd
  | renamed => exact harm _ _ (fun h => h) rfl rfl hd
  | @hovered offset =>
    rw [step_active (e := .hover id offset) fun h => h] at hidden
    exact h.hidden hidden d hd
  | unhovered =>
    rw [step_active (e := .clearHover id) fun h => h] at hidden
    exact h.hidden hidden d hd
  | issued => cases hd
  | completed => exact OpenBuffer.receive_inFlight _ _ _

theorem step_settled {w : Workbench} (hs : w.session.WellFormed)
    (h : ∀ id o, w.session.get? id = some o → w.Settled id o) (e : Event) (id : BufferId)
    (o' : OpenBuffer) (ho' : (w.step e).session.get? id = some o') :
    (w.step e).Settled id o' := by
  have hquiet := (w.step_frame e).1
  rcases touched_of_step hs ho' with ⟨o, ho, ht⟩ | ⟨-, -, b, now, -, rfl⟩
  · exact ⟨ht.quiet.trans ((h id o ho).quiet.trans hquiet.symm),
      fun hidden d hd => ht.hidden ho (h id o ho) hidden hd⟩
  · -- no check of a new buffer is under way
    exact ⟨hquiet.symm, fun _ _ _ => rfl⟩

theorem Reachable.settled {w : Workbench} (h : w.Reachable) {id : BufferId} {o : OpenBuffer}
    (ho : w.session.get? id = some o) : w.Settled id o := by
  refine h.induction (P := fun w => ∀ id o, w.session.get? id = some o → w.Settled id o)
    (fun quiet lint fs id o ho => (nomatch ho)) (fun w e hw hset => ?_) id o ho
  exact step_settled hw.wellFormed hset e

/-! ### Time going on -/

/-- Whether the times of some events never decrease. -/
def Timely (es : List Event) : Prop := (es.filterMap Event.time?).Pairwise (· ≤ ·)

theorem Timely.le_of_mem {es post : List Event} {e : Event} {t : Nat}
    (h : Timely (es ++ e :: post)) (he : e.time? = some t) :
    ∀ n ∈ post.filterMap Event.time?, t ≤ n := by
  rw [Timely, List.filterMap_append, List.filterMap_cons_some he] at h
  exact (List.pairwise_cons.mp (List.pairwise_append.mp h).2.1).1

theorem Timely.concat {es : List Event} {e e' : Event} {t t' : Nat} (h : Timely (es ++ [e]))
    (he : e.time? = some t) (he' : e'.time? = some t') (hle : t ≤ t') :
    Timely (es ++ [e] ++ [e']) := by
  have hlast : ∀ n ∈ (es ++ [e]).filterMap Event.time?, n ≤ t := by
    intro n hn
    rw [Timely, List.filterMap_append, List.filterMap_cons_some he] at h
    rw [List.filterMap_append, List.filterMap_cons_some he, List.mem_append] at hn
    rcases hn with hn | hn
    · exact (List.pairwise_append.mp h).2.2 n hn t List.mem_cons_self
    · exact Nat.le_of_eq (List.mem_singleton.mp hn)
  rw [Timely, List.filterMap_append, List.filterMap_cons_some he']
  refine List.pairwise_append.mpr ⟨h, List.pairwise_singleton _ _, fun n hn n' hn' => ?_⟩
  rw [List.mem_singleton.mp hn']
  exact Nat.le_trans (hlast n hn) hle

/-- Whether the timer of a buffer, if it runs, ends a quiet interval after a given time or later. -/
def Respects (w : Workbench) (id : BufferId) (t : Nat) : Prop :=
  ∀ o d, w.session.get? id = some o → o.debouncer.deadline = some d → t + w.session.quiet ≤ d

theorem step_respects {w : Workbench} (hw : w.Reachable) {id : BufferId} {t : Nat}
    (h : w.Respects id t) {e : Event} (htime : ∀ now, e.time? = some now → t ≤ now) :
    (w.step e).Respects id t := by
  intro o' d ho' hd
  rw [(w.step_frame e).1]
  rcases touched_of_step hw.wellFormed ho' with ⟨o, ho, ht⟩ | ⟨-, -, b, now, hnow, rfl⟩
  · rcases ht.deadline_cases hd with hd | ⟨now, hnow, rfl⟩
    · exact h o d ho hd
    · -- the timer was set by the event
      rw [(hw.settled ho).quiet]
      exact Nat.add_le_add_right (htime now hnow) _
  · obtain rfl := Option.some.inj hd
    exact Nat.add_le_add_right (htime now hnow) _

theorem run_respects {w : Workbench} (hw : w.Reachable) {id : BufferId} {t : Nat}
    (h : w.Respects id t) (es : List Event) (htimes : ∀ n ∈ es.filterMap Event.time?, t ≤ n) :
    (w.run es).Respects id t := by
  induction es generalizing w with
  | nil => exact h
  | cons e es ih =>
    refine ih (hw.run [e]) (step_respects hw h fun now hnow => htimes now ?_) fun n hn =>
      htimes n ?_
    · exact List.mem_filterMap.mpr ⟨e, List.mem_cons_self, hnow⟩
    · obtain ⟨e', he', hn⟩ := List.mem_filterMap.mp hn
      exact List.mem_filterMap.mpr ⟨e', List.mem_cons_of_mem e he', hn⟩

theorem run_settings (w : Workbench) (es : List Event) :
    (w.run es).session.quiet = w.session.quiet ∧
      (w.run es).session.lintEnabled = w.session.lintEnabled := by
  refine run_induction (P := fun w' => w'.session.quiet = w.session.quiet ∧
    w'.session.lintEnabled = w.session.lintEnabled) ⟨rfl, rfl⟩ (fun w' e h => ?_) es
  obtain ⟨hq, hl, -⟩ := w'.step_frame e
  exact ⟨hq.trans h.1, hl.trans h.2⟩

/-! ### Edits and the next check -/

/-- Whether a poll issues a check of a buffer. -/
def Issues (w : Workbench) (now : Nat) (id : BufferId) : Prop :=
  ∃ r ∈ (w.session.poll w.fs now).2.2, r.buffer = id

theorem issues_iff {w : Workbench} (hs : w.session.WellFormed) (now : Nat) (id : BufferId) :
    w.Issues now id ↔ w.session.lintEnabled = true ∧
      ∃ o, w.session.get? id = some o ∧ o.wantsCheck now = true := by
  constructor
  · rintro ⟨r, hr, rfl⟩
    obtain ⟨hl, o, ho, hwants, -⟩ := hs.mem_poll_requests.mp hr
    exact ⟨hl, o, ho, hwants⟩
  · rintro ⟨hl, o, ho, hwants⟩
    exact ⟨o.request id, hs.mem_poll_requests.mpr ⟨hl, o, ho, hwants, rfl⟩, rfl⟩

/-- A check is issued only when the timer of its buffer is over. -/
theorem Respects.le_of_issues {w : Workbench} (hs : w.session.WellFormed) {id : BufferId}
    {t now : Nat} (h : w.Respects id t) (hi : w.Issues now id) : t + w.session.quiet ≤ now := by
  obtain ⟨-, o, ho, hwants⟩ := (issues_iff hs now id).mp hi
  have hdue : o.debouncer.deadline.any (· ≤ now) = true := (Bool.and_eq_true_iff.mp hwants).2
  obtain ⟨d, hd, hle⟩ := (Option.any_eq_true _ _).mp hdue
  exact Nat.le_trans (h o d ho hd) (of_decide_eq_true hle)

/-- What an edit makes of its buffer. -/
theorem get?_edit {w : Workbench} {id : BufferId} {t : Nat} {change : Change}
    {r : Session × Option Nat} (he : w.session.edit id t change = .ok r) :
    ∃ o b, w.session.get? id = some o ∧ (w.step (.edit id t change)).session.get? id
      = some ((o.changed b).armWhen (w.session.active = some id) t) := by
  obtain ⟨o, b, ho, -, hs⟩ := Session.edit_eq_ok he
  refine ⟨o, b, ho, ?_⟩
  have hstep : (w.step (.edit id t change)).session = r.1 := by rw [step, he]; rfl
  rw [hstep, hs, Session.get?_put_armIfActive, ho, Option.map_some, if_pos rfl]

/-- An edit is respected if its buffer has the focus, and otherwise only if the timer of the buffer
is set late enough already. -/
theorem respects_edit_iff {w : Workbench} (hw : w.Reachable) {id : BufferId} {t : Nat}
    {change : Change} {r : Session × Option Nat} (he : w.session.edit id t change = .ok r) :
    (w.step (.edit id t change)).Respects id t ↔
      w.session.active = some id ∨ w.Respects id t := by
  obtain ⟨o, b, ho, ho'⟩ := get?_edit he
  have hquiet := (w.step_frame (.edit id t change)).1
  by_cases focus : w.session.active = some id
  · -- the edit itself sets the timer
    refine iff_of_true (fun o₁ d ho₁ hd => ?_) (Or.inl focus)
    obtain rfl := Option.some.inj (ho'.symm.trans ho₁)
    rw [OpenBuffer.armWhen, if_pos focus] at hd
    obtain rfl := Option.some.inj hd
    rw [hquiet, ← (hw.settled ho).quiet]
    exact Nat.le_refl _
  · -- the timer is what it was before the edit
    rw [OpenBuffer.armWhen, if_neg focus] at ho'
    rw [or_iff_right focus, Respects, Respects, hquiet, ho, ho']
    constructor
    · intro h o₁ d ho₁ hd
      obtain rfl := Option.some.inj ho₁
      exact h _ d rfl hd
    · intro h o₁ d ho₁ hd
      obtain rfl := Option.some.inj ho₁
      exact h _ d rfl hd

/-- A hidden buffer that waits for a check goes on waiting as before when it is edited, and the
check comes when it was due. -/
theorem issues_after_hidden_edit {w : Workbench} (hw : w.Reachable) {id : BufferId} {t : Nat}
    {change : Change} {r : Session × Option Nat} (he : w.session.edit id t change = .ok r)
    (lint : w.session.lintEnabled = true) (hidden : w.session.active ≠ some id) {o : OpenBuffer}
    {d now : Nat} (ho : w.session.get? id = some o) (hd : o.debouncer.deadline = some d)
    (hle : d ≤ now) : (w.step (.edit id t change)).Issues now id := by
  obtain ⟨o₁, b, ho₁, ho'⟩ := get?_edit he
  obtain rfl := Option.some.inj (ho.symm.trans ho₁)
  rw [OpenBuffer.armWhen, if_neg hidden] at ho'
  -- the timer is the old one, and it is over
  have hwants : (o.changed b).wantsCheck now = true := by
    have hflag : o.inFlight = false := (hw.settled ho).hidden hidden d hd
    change (!o.inFlight && o.debouncer.deadline.any (· ≤ now)) = true
    rw [hflag, hd]
    exact decide_eq_true hle
  have hl : (w.step (.edit id t change)).session.lintEnabled = true :=
    (w.step_frame _).2.1.trans lint
  exact (issues_iff (step_wellFormed hw.wellFormed _) now id).mpr ⟨hl, _, ho', hwants⟩

/-- **After which edits no check comes too early.** In runs whose times never decrease, every check
of a buffer that is issued after an edit is issued a quiet interval after it or later if, and only
if, checking is switched off, the interval is nothing, the edited buffer has the focus, or its timer,
if it runs, already ends late enough. Where none of this holds, the very next poll may issue one. -/
theorem waits_after_edit_iff (quiet : Nat) (lint : Bool) (fs : FileSystem) (es : List Event)
    (id : BufferId) (t : Nat) (change : Change) {r : Session × Option Nat}
    (he : ((start quiet lint fs).run es).session.edit id t change = .ok r)
    (htimes : Timely (es ++ [.edit id t change])) :
    (∀ post now, Timely (es ++ .edit id t change :: post ++ [.poll now]) →
      ((start quiet lint fs).run (es ++ .edit id t change :: post)).Issues now id →
        t + quiet ≤ now) ↔
      lint = false ∨ quiet = 0 ∨
        ((start quiet lint fs).run es).session.active = some id ∨
        ∀ o d, ((start quiet lint fs).run es).session.get? id = some o →
          o.debouncer.deadline = some d → t + quiet ≤ d := by
  have hw : ((start quiet lint fs).run es).Reachable := ⟨quiet, lint, fs, es, rfl⟩
  obtain ⟨hquiet, hlint⟩ := run_settings (start quiet lint fs) es
  constructor
  · intro h
    refine or_iff_not_imp_left.mpr fun hl => or_iff_not_imp_left.mpr fun hq =>
      or_iff_not_imp_left.mpr fun hidden o d ho hd => ?_
    -- a poll as soon as time allows, once the old timer is over
    have hissues := issues_after_hidden_edit hw he (hlint.trans (eq_true_of_ne_false hl)) hidden
      ho hd (Nat.le_max_left d t)
    have htimes' : Timely (es ++ [.edit id t change] ++ [.poll (max d t)]) :=
      htimes.concat rfl rfl (Nat.le_max_right d t)
    have hle := h [] (max d t) htimes' (by rw [run_append]; exact hissues)
    omega
  · intro h post now htimes' hissues
    rw [List.append_assoc, List.cons_append] at htimes'
    have hlater := htimes'.le_of_mem rfl
    rw [List.filterMap_append] at hlater
    have hnow : t ≤ now := hlater now (List.mem_append_right _ (List.mem_singleton.mpr rfl))
    have hw' : ((start quiet lint fs).run (es ++ .edit id t change :: post)).Reachable :=
      ⟨quiet, lint, fs, _, rfl⟩
    rcases h with rfl | rfl | h
    · -- nothing is issued at all
      have hl := ((issues_iff hw'.wellFormed now id).mp hissues).1
      rw [(run_settings _ _).2] at hl
      cases hl
    · exact hnow
    · -- the timer respects the edit, and goes on doing so until the poll
      have hrespects : (((start quiet lint fs).run es).step (.edit id t change)).Respects id t := by
        refine (respects_edit_iff hw he).mpr (h.imp_right fun h o d ho hd => ?_)
        rw [hquiet]
        exact h o d ho hd
      have hend := run_respects (hw.run [.edit id t change]) hrespects post fun n hn =>
        hlater n (List.mem_append_left _ hn)
      rw [run_append, run_cons] at hissues
      have hle := hend.le_of_issues ((hw.run [.edit id t change]).run post).wellFormed hissues
      rw [(run_settings _ _).1, (run_settings _ _).1, hquiet] at hle
      exact hle

/-- A buffer is hidden by another one while its check is under way, and the check comes back. -/
def hiddenWhileChecked : List Event :=
  [.openBuffer ⟨⟨"a.py"⟩, "x\n", 0⟩ 0, .poll 5000, .openBuffer ⟨⟨"b.py"⟩, "y\n", 0⟩ 6000,
    .answer 0 [], .deliver 0 7000]

/-- The buffer with the focus is edited at 8000, and it has no check before 13000. -/
theorem waits_after_edit_iff_focused :
    Timely (hiddenWhileChecked ++ [.edit 1 8000 (.setText "z\n")] ++ [.poll 12999]) ∧
      ¬ ((start 5000 true {}).run
        (hiddenWhileChecked ++ [.edit 1 8000 (.setText "z\n")])).Issues 12999 1 := by
  obtain ⟨r, he⟩ : ∃ r, ((start 5000 true {}).run hiddenWhileChecked).session.edit 1 8000
    (.setText "z\n") = .ok r := ⟨_, rfl⟩
  have focus : ((start 5000 true {}).run hiddenWhileChecked).session.active = some 1 := by
    decide +kernel
  have htimes : Timely (hiddenWhileChecked ++ [.edit 1 8000 (.setText "z\n")]) := by
    unfold Timely
    decide +kernel
  have htimes' : Timely (hiddenWhileChecked ++ [.edit 1 8000 (.setText "z\n")] ++ [.poll 12999]) :=
    htimes.concat rfl rfl (by decide)
  refine ⟨htimes', fun hissues => ?_⟩
  have hle := (waits_after_edit_iff _ _ _ _ _ _ _ he htimes).mpr
    (Or.inr (Or.inr (Or.inl focus))) [] 12999 htimes' hissues
  exact absurd hle (by decide)

/-- The hidden buffer is edited at 8000, and its next check is issued at 12000 already. -/
theorem waits_after_edit_fails : ¬ ∀ quiet lint fs es id t change post now,
    (∃ r, ((start quiet lint fs).run es).session.edit id t change = .ok r) →
      Timely (es ++ .edit id t change :: post ++ [.poll now]) →
      ((start quiet lint fs).run (es ++ .edit id t change :: post)).Issues now id →
        t + quiet ≤ now := by
  intro h
  have hle := h 5000 true {} hiddenWhileChecked 0 8000 (.setText "z\n") [] 12000 ⟨_, rfl⟩
    (by unfold Timely; decide +kernel) (by unfold Issues; decide +kernel)
  exact absurd hle (by decide)

end Workbench

end EditorInsight
