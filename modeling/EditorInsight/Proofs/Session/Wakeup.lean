import EditorInsight.Proofs.Session.Quiet
import Mathlib.Order.Bounds.Basic

/-!
# Waking for deadlines

A host sleeps until the next deadline of its session, and then polls. The next deadline is the least
timer of the buffers without a check under way, and these are the buffers that a poll looks at, so a
poll uses up every deadline that is over. But a poll does nothing at all where checking is switched
off, while buffers are still armed there and their deadlines still given out: such a host wakes for
the same deadline again and again.

* `Session.Waits` are the deadlines that are given out, `Session.nextDeadline_eq_some_iff` says that
  the next one is the least of them, and `Session.waits_poll_iff` what a poll leaves of them.
* `Workbench.WakesAt` is the loop of a host that has nothing else to do.
* `Workbench.nextDeadline_poll_iff` is the exact condition for getting on.
-/

namespace EditorInsight

namespace Session

/-- Whether a buffer without a check under way has a timer that ends at the given time. -/
def Waits (s : Session) (d : Nat) : Prop :=
  ∃ id o, s.get? id = some o ∧ o.inFlight = false ∧ o.debouncer.deadline = some d

variable {s : Session}

theorem mem_deadlines_iff (hs : s.WellFormed) {d : Nat} :
    d ∈ s.buffers.filterMap (fun (_, o) => if o.inFlight then none else o.debouncer.deadline) ↔
      s.Waits d := by
  rw [List.mem_filterMap]
  constructor
  · rintro ⟨⟨id, o⟩, hm, hd⟩
    refine ⟨id, o, (hs.mem_buffers_iff id o).mp hm, ?_⟩
    cases hflag : o.inFlight with
    | true => simp [hflag] at hd
    | false => simpa [hflag] using hd
  · rintro ⟨id, o, ho, hflag, hd⟩
    exact ⟨(id, o), (hs.mem_buffers_iff id o).mpr ho, by simp [hflag, hd]⟩

/-- The next deadline is the least one. -/
theorem nextDeadline_eq_some_iff (hs : s.WellFormed) {d : Nat} :
    s.nextDeadline = some d ↔ IsLeast {d | s.Waits d} d := by
  rw [nextDeadline, List.min?_eq_some_iff]
  exact and_congr (mem_deadlines_iff hs) (forall_congr' fun d' => by rw [mem_deadlines_iff hs]; rfl)

/-- A poll leaves the deadlines that are still to come, and all of them where checking is switched
off. -/
theorem waits_poll_iff (fs : FileSystem) (now d : Nat) :
    (s.poll fs now).1.Waits d ↔ s.Waits d ∧ (s.lintEnabled = true → now < d) := by
  have hwants : ∀ {o : OpenBuffer}, o.inFlight = false → o.debouncer.deadline = some d →
      (o.wantsCheck now = true ↔ d ≤ now) := by
    intro o hflag hd
    simp [OpenBuffer.wantsCheck, Debouncer.isDue, hflag, hd]
  constructor
  · rintro ⟨id, o', ho', hflag, hd⟩
    rw [get?_poll] at ho'
    obtain ⟨o, ho, rfl⟩ := Option.map_eq_some_iff.mp ho'
    split at hflag
    · -- a check of it is under way now
      cases hflag
    · next hn =>
      rw [if_neg hn] at hd
      refine ⟨⟨id, o, ho, hflag, hd⟩, fun lint => ?_⟩
      exact Nat.lt_of_not_le fun hle => hn ⟨lint, (hwants hflag hd).mpr hle⟩
  · rintro ⟨⟨id, o, ho, hflag, hd⟩, hlater⟩
    refine ⟨id, o, ?_, hflag, hd⟩
    rw [get?_poll, ho, Option.map_some, if_neg]
    rintro ⟨lint, hw⟩
    exact absurd ((hwants hflag hd).mp hw) (Nat.not_le_of_lt (hlater lint))

end Session

namespace Workbench

/-- Whether a host that does nothing but sleep until the next deadline and poll may wake at the given
times, one after the other. It may oversleep. -/
def WakesAt (w : Workbench) : List Nat → Prop
  | [] => True
  | now :: times =>
    (∃ d, w.session.nextDeadline = some d ∧ d ≤ now) ∧ (w.step (.poll now)).WakesAt times

variable {w : Workbench}

/-- Where checking is switched off, a poll does nothing. -/
theorem step_poll_disabled (lint : w.session.lintEnabled = false) (now : Nat) :
    w.step (.poll now) = w := by
  have hpoll : w.session.poll w.fs now = (w.session, w.fs, []) := by
    rw [Session.poll, if_neg (by rw [lint]; exact Bool.false_ne_true)]
  rw [step, hpoll]
  exact congrArg (Workbench.mk w.session w.fs) (List.append_nil w.flights)

/-- Where checking is switched on, what is left to wait for after a poll is still to come. -/
theorem lt_of_nextDeadline_poll (hs : w.session.WellFormed) (lint : w.session.lintEnabled = true)
    {now d : Nat} (hd : (w.step (.poll now)).session.nextDeadline = some d) : now < d := by
  have hleast := (Session.nextDeadline_eq_some_iff (step_wellFormed hs (.poll now))).mp hd
  exact ((Session.waits_poll_iff w.fs now d).mp hleast.1).2 lint

/-- Waking for a deadline issues a check, if checking is switched on. -/
theorem issues_of_nextDeadline (hs : w.session.WellFormed) (lint : w.session.lintEnabled = true)
    {now d : Nat} (hd : w.session.nextDeadline = some d) (hle : d ≤ now) :
    ∃ id, w.Issues now id := by
  obtain ⟨id, o, ho, hflag, hdeadline⟩ := ((Session.nextDeadline_eq_some_iff hs).mp hd).1
  refine ⟨id, (issues_iff hs now id).mpr ⟨lint, o, ho, ?_⟩⟩
  rw [OpenBuffer.wantsCheck, Debouncer.isDue, hflag, hdeadline]
  exact decide_eq_true hle

/-- A host whose session checks buffers wakes later and later. -/
theorem WakesAt.pairwise_lt (hs : w.session.WellFormed) (lint : w.session.lintEnabled = true)
    {times : List Nat} (h : w.WakesAt times) : times.Pairwise (· < ·) := by
  induction times generalizing w with
  | nil => exact List.Pairwise.nil
  | cons now times ih =>
    obtain ⟨-, hrest⟩ := h
    have hs' := step_wellFormed hs (.poll now)
    have lint' := (w.step_frame (.poll now)).2.1.trans lint
    have hpairs := ih hs' lint' hrest
    refine List.pairwise_cons.mpr ⟨?_, hpairs⟩
    cases times with
    | nil => exact fun t ht => nomatch ht
    | cons next later =>
      -- the host slept until a deadline that the poll has left, and woke in order after that
      obtain ⟨⟨d, hd, hle⟩, -⟩ := hrest
      have hnext : now < next := Nat.lt_of_lt_of_le (lt_of_nextDeadline_poll hs lint hd) hle
      intro t ht
      rcases List.mem_cons.mp ht with rfl | ht
      · exact hnext
      · exact Nat.lt_trans hnext ((List.pairwise_cons.mp hpairs).1 t ht)

/-- A host whose session does not check buffers may wake at one instant as often as it likes. -/
theorem wakesAt_replicate (lint : w.session.lintEnabled = false) {now d : Nat}
    (hd : w.session.nextDeadline = some d) (hle : d ≤ now) (n : Nat) :
    w.WakesAt (List.replicate n now) := by
  induction n with
  | zero => exact trivial
  | succ n ih =>
    refine ⟨⟨d, hd, hle⟩, ?_⟩
    rwa [step_poll_disabled lint]

/-- **When the deadlines get on.** In every reachable state, no deadline that is over is left after a
poll if, and only if, checking is switched on or none was over before; a host that wakes for a
deadline has a check issued if, and only if, checking is switched on; and the host wakes later and
later if, and only if, checking is switched on or it does not wake at all. -/
theorem nextDeadline_poll_iff (hw : w.Reachable) :
    (∀ now, (∀ d, (w.step (.poll now)).session.nextDeadline = some d → now < d) ↔
      w.session.lintEnabled = true ∨ ∀ d, w.session.nextDeadline = some d → now < d) ∧
    (∀ now d, w.session.nextDeadline = some d → d ≤ now →
      ((∃ id, w.Issues now id) ↔ w.session.lintEnabled = true)) ∧
    ((∀ times, w.WakesAt times → times.Pairwise (· < ·)) ↔
      w.session.lintEnabled = true ∨ w.session.nextDeadline = none) := by
  have hs := hw.wellFormed
  refine ⟨fun now => ?_, fun now d hd hle => ⟨?_, ?_⟩, ?_, ?_⟩
  · cases lint : w.session.lintEnabled with
    | true => exact iff_of_true (fun d hd => lt_of_nextDeadline_poll hs lint hd) (Or.inl rfl)
    | false => rw [step_poll_disabled lint, or_iff_right Bool.false_ne_true]
  · rintro ⟨id, hi⟩
    exact ((issues_iff hs now id).mp hi).1
  · exact fun lint => issues_of_nextDeadline hs lint hd hle
  · intro h
    refine or_iff_not_imp_left.mpr fun hl => ?_
    by_contra hn
    obtain ⟨d, hd⟩ := Option.ne_none_iff_exists'.mp hn
    -- without checks, the host wakes twice for the same deadline
    have hpairs := h _ (wakesAt_replicate (eq_false_of_ne_true hl) hd (Nat.le_refl d) 2)
    exact absurd ((List.pairwise_cons.mp hpairs).1 d List.mem_cons_self) (Nat.lt_irrefl d)
  · rintro (lint | hn) times h
    · exact h.pairwise_lt hs lint
    · cases times with
      | nil => exact List.Pairwise.nil
      | cons now times =>
        obtain ⟨d, hd, -⟩ := h.1
        cases hn.symm.trans hd

/-- One buffer waits until 11000 and one until 12000. Waking for the first issues its check, and the
next deadline is later. -/
theorem nextDeadline_poll_iff_later :
    ((start 5000 true {}).run hiddenWhileChecked).Reachable ∧
      (((start 5000 true {}).run hiddenWhileChecked).step (.poll 11000)).session.nextDeadline
        = some 12000 ∧ 11000 < 12000 ∧
      ∃ id, ((start 5000 true {}).run hiddenWhileChecked).Issues 11000 id := by
  have hw : ((start 5000 true {}).run hiddenWhileChecked).Reachable := ⟨5000, true, {}, _, rfl⟩
  have lint : ((start 5000 true {}).run hiddenWhileChecked).session.lintEnabled = true := by
    decide +kernel
  have hfirst : ((start 5000 true {}).run hiddenWhileChecked).session.nextDeadline = some 11000 := by
    decide +kernel
  have hnext : (((start 5000 true {}).run hiddenWhileChecked).step
      (.poll 11000)).session.nextDeadline = some 12000 := by
    decide +kernel
  obtain ⟨hlater, hissues, -⟩ := nextDeadline_poll_iff hw
  exact ⟨hw, hnext, (hlater 11000).mpr (Or.inl lint) 12000 hnext,
    (hissues 11000 11000 hfirst (Nat.le_refl _)).mpr lint⟩

/-- Where checking is switched off, a deadline that is over is given out after the poll as well. -/
theorem nextDeadline_poll_over : ¬ ∀ quiet lint fs es now d,
    (((start quiet lint fs).run es).step (.poll now)).session.nextDeadline = some d → now < d := by
  intro h
  have hd : (((start 5000 false {}).run [.openBuffer ⟨⟨"a.py"⟩, "x\n", 0⟩ 0]).step
      (.poll 5000)).session.nextDeadline = some 5000 := by
    decide +kernel
  exact absurd (h _ _ _ _ _ _ hd) (Nat.lt_irrefl 5000)

end Workbench

end EditorInsight
