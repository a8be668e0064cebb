import EditorInsight.Proofs.Session.Focus
import EditorInsight.Proofs.Session.InFlight

/-!
# The buffer with the focus

A session checks the buffer that has the focus until nothing about it is left unchecked. Its timer
may be used up by a poll, held back by a check under way or stopped by a change of focus, and checks
may come back too late to count; but whatever the order, the text and the path that the buffer has
now are waiting to be checked, or are being checked, or were checked last.

* `Workbench.lastTaken` is the last check of a buffer that counted during a history.
* `Workbench.Attended` is the invariant, with one constructor for each of the three ways.
* `Touched.attended` is one event, and `Workbench.attended_of_focus` every run.
* `Workbench.waits_or_underWay_or_checked` says what this means for the buffer with the focus.
-/

namespace EditorInsight.Workbench

/-! ### Checks that come back -/

/-- Whether an event brings back a check of a buffer. -/
def Returns (w : Workbench) (id : BufferId) : Event → Prop
  | .deliver i _ => ∃ c, w.flights[i]? = some (.finished c) ∧ c.request.buffer = id
  | _ => False

/-- The check of a buffer that an event takes into account, if there is one: it comes back, and it
was done for the file and the text that the buffer has. -/
def taken? (w : Workbench) (id : BufferId) : Event → Option CheckCompleted
  | .deliver i _ =>
    match w.flights[i]? with
    | some (.finished c) =>
      if c.request.buffer = id ∧ (w.session.get? id).any (·.accepts c.request) = true then some c
      else none
    | _ => none
  | _ => none

/-- The last check of a buffer that was taken into account during a history. -/
def lastTaken (w : Workbench) (id : BufferId) : List Event → Option CheckCompleted
  | [] => none
  | e :: es => ((w.step e).lastTaken id es).or (w.taken? id e)

section Checks

variable {w : Workbench} {id : BufferId}

theorem lastTaken_concat (w : Workbench) (id : BufferId) (es : List Event) (e : Event) :
    w.lastTaken id (es ++ [e]) = ((w.run es).taken? id e).or (w.lastTaken id es) := by
  induction es generalizing w with
  | nil => simp [lastTaken]
  | cons x es ih => rw [List.cons_append, lastTaken, ih, Option.or_assoc, run_cons, lastTaken]

theorem taken?_deliver {i now : Nat} {c : CheckCompleted} {o : OpenBuffer}
    (flight : w.flights[i]? = some (.finished c)) (own : c.request.buffer = id)
    (ho : w.session.get? id = some o) :
    w.taken? id (.deliver i now) = if o.accepts c.request = true then some c else none := by
  simp only [taken?, flight, own, ho, Option.any_some, true_and]

theorem taken?_eq_none {e : Event} (h : ¬ w.Returns id e) : w.taken? id e = none := by
  cases e with
  | deliver i now =>
    rw [taken?]
    split
    · next c hc => exact if_neg fun hown => h ⟨c, hc, hown.1⟩
    · rfl
  | _ => rfl

/-- A check stays outstanding until it comes back. -/
theorem mem_outstanding_step {r : CheckRequest} (hr : r ∈ w.outstanding) {e : Event}
    (h : ¬ w.Returns r.buffer e) : r ∈ (w.step e).outstanding := by
  by_cases hp : ∃ now, e = .poll now
  · obtain ⟨now, rfl⟩ := hp
    rw [outstanding_poll]
    exact List.mem_append_left _ hr
  · by_cases hd : ∃ i now c, e = .deliver i now ∧ w.flights[i]? = some (.finished c)
    · obtain ⟨i, now, c, rfl, hc⟩ := hd
      -- another one came back
      rcases List.mem_cons.mp ((outstanding_deliver hc now).mem_iff.mp hr) with rfl | hr
      · exact absurd ⟨c, hc, rfl⟩ h
      · exact hr
    · rwa [outstanding_step (fun now he => hp ⟨now, he⟩)
        fun i now c he hc => hd ⟨i, now, c, he, hc⟩]

theorem Spares.not_returns {o : OpenBuffer} {e : Event} (spares : w.Spares id o e) :
    ¬ w.Returns id e := by
  cases e with
  | deliver i now =>
    rintro ⟨c, hc, own⟩
    exact spares c hc own
  | _ => exact fun h => h

end Checks

/-! ### The invariant -/

/-- Whether a buffer is looked after as it is, if `last` is the check of it that counted last. -/
inductive Attended (w : Workbench) (id : BufferId) (last : Option CheckCompleted)
    (o : OpenBuffer) : Prop where
  /-- A check of it is going to be issued. -/
  | waits (pending : o.debouncer.isPending = true)
  /-- A check of just this state has been issued and has not come back. -/
  | underWay (outstanding : o.request id ∈ w.outstanding)
  /-- The check that counted last was one of just this state. -/
  | checked {c : CheckCompleted} (idle : o.inFlight = false) (counted : last = some c)
      (request : c.request = o.request id)

/-- The timer, the flag and the buffer are all that matters. -/
theorem Attended.congr {w w' : Workbench} {id : BufferId} {last : Option CheckCompleted}
    {o o' : OpenBuffer} (h : w.Attended id last o)
    (timer : o'.debouncer.deadline = o.debouncer.deadline) (flag : o'.inFlight = o.inFlight)
    (buffer : o'.buffer = o.buffer)
    (outstanding : o.request id ∈ w.outstanding → o.request id ∈ w'.outstanding) :
    w'.Attended id last o' := by
  have hreq : o'.request id = o.request id := by rw [OpenBuffer.request, buffer]; rfl
  cases h with
  | waits pending =>
    refine .waits ?_
    rwa [Debouncer.isPending, timer]
  | underWay h => exact .underWay (hreq ▸ outstanding h)
  | checked idle counted request =>
    exact .checked (flag.trans idle) counted (request.trans hreq.symm)

section Steps

variable {w : Workbench} {id : BufferId} {o o' : OpenBuffer} {last : Option CheckCompleted}

/-- The check that comes back to a buffer that does not wait is the one of just this state, so it
counts. -/
theorem attended_deliver (hs : w.session.WellFormed) (ha : w.Accounted)
    (ho : w.session.get? id = some o) {i now : Nat} {c : CheckCompleted}
    (flight : w.flights[i]? = some (.finished c)) (own : c.request.buffer = id)
    (h : w.Attended id last o) :
    (w.step (.deliver i now)).Attended id ((w.taken? id (.deliver i now)).or last)
      (o.receive c now).1 := by
  have hout := outstanding_deliver flight now
  have hmem : c.request ∈ w.outstanding := hout.mem_iff.mpr List.mem_cons_self
  rcases o.receive_cases c now with ⟨hrec, -⟩ | ⟨hrec, -⟩
  · cases h with
    | waits pending => exact .waits (by rw [hrec]; exact pending)
    | underWay outstanding =>
      -- no other check of the buffer can be outstanding
      have hreq : c.request = o.request id := by
        rcases List.mem_cons.mp (hout.mem_iff.mp outstanding) with heq | hafter
        · exact heq.symm
        · have ht : Touched w id o (.deliver i now) (o.receive c now).1 :=
            .completed flight own
          have hcount := ht.counted hs ho (ha.counted id o ho)
          rw [OpenBuffer.receive_inFlight] at hcount
          have hpos := (underWay_pos_iff _ id).mpr ⟨_, hafter, rfl⟩
          exact absurd hcount (Nat.ne_of_gt hpos)
      have haccepts : o.accepts c.request = true := by
        rw [hreq]
        exact o.accepts_request id
      rw [taken?_deliver flight own ho, if_pos haccepts, Option.some_or, hrec]
      exact .checked rfl rfl hreq
    | checked idle =>
      rw [(ha.inFlight_iff ho).mpr ⟨_, hmem, own⟩] at idle
      cases idle
  · -- other findings set the timer
    exact .waits (by rw [hrec]; rfl)

/-- A buffer that has the focus after an event is looked after if it was so before, in case it had
the focus then. -/
theorem Touched.attended {e : Event} (hs : w.session.WellFormed) (ha : w.Accounted)
    (ho : w.session.get? id = some o) (ho' : (w.step e).session.get? id = some o')
    (ht : Touched w id o e o') (focus : (w.step e).session.active = some id)
    (h : w.session.active = some id → w.Attended id last o) :
    (w.step e).Attended id ((w.taken? id e).or last) o' := by
  -- an event that brings back no check of the buffer and leaves its timer, flag and text
  have hkept : ¬ w.Returns id e → o'.debouncer.deadline = o.debouncer.deadline →
      o'.inFlight = o.inFlight → o'.buffer = o.buffer → w.session.active = some id →
      (w.step e).Attended id ((w.taken? id e).or last) o' := by
    intro hn timer flag buffer hfocus
    rw [taken?_eq_none hn, Option.none_or]
    exact (h hfocus).congr timer flag buffer fun hr => mem_outstanding_step hr hn
  -- an operation that was meant to move the focus away and failed
  have hfailed : w.step e = w → ¬ w.Returns id e →
      (w.step e).Attended id ((w.taken? id e).or last) o' := by
    intro hw hn
    rw [hw] at ho' focus
    obtain rfl := Option.some.inj (ho.symm.trans ho')
    exact hkept hn rfl rfl rfl focus
  cases ht with
  | spared spares =>
    rcases focus_cases hs ho focus with hfocus | ⟨now, rfl⟩
    · exact hkept spares.not_returns rfl rfl rfl hfocus
    · exact absurd rfl spares.1
  | covered opens =>
    rcases step_opens (w := w) opens with hA | hw
    · have hid : id = w.session.nextId := Option.some.inj (focus.symm.trans hA)
      exact absurd (hs.lt_nextId ho) (hid ▸ Nat.lt_irrefl _)
    · refine hfailed hw fun hr => ?_
      cases e with
      | deliver i now => exact opens.elim
      | _ => exact hr
  | @left k now other =>
    rcases w.step_activate k now with hA | ⟨-, hw⟩
    · exact absurd (Option.some.inj (hA.symm.trans focus)) other
    · exact hfailed hw fun hr => hr
  | focused => exact .waits rfl
  | @edited now change b offset applied =>
    -- the focus stayed, so the buffer was armed
    have hfocus : w.session.active = some id :=
      (step_active (e := .edit id now change) fun h => h).symm.trans focus
    exact .waits (by rw [OpenBuffer.armWhen, if_pos hfocus]; rfl)
  | @renamed path now =>
    have hfocus : w.session.active = some id :=
      (step_active (e := .rename id path now) fun h => h).symm.trans focus
    exact .waits (by rw [OpenBuffer.armWhen, if_pos hfocus]; rfl)
  | @hovered offset =>
    exact hkept (fun h => h) rfl rfl rfl
      ((step_active (e := .hover id offset) fun h => h).symm.trans focus)
  | unhovered =>
    exact hkept (fun h => h) rfl rfl rfl
      ((step_active (e := .clearHover id) fun h => h).symm.trans focus)
  | @issued now enabled due =>
    -- the check of the state that the buffer keeps
    refine .underWay ?_
    rw [outstanding_poll]
    exact List.mem_append_right _ (hs.mem_poll_requests.mpr ⟨enabled, o, ho, due, rfl⟩)
  | @completed i now c flight own =>
    exact attended_deliver hs ha ho flight own
      (h ((step_active (e := .deliver i now) fun h => h).symm.trans focus))

end Steps

/-! ### Every run -/

theorem attended_of_focus (quiet : Nat) (lint : Bool) (fs : FileSystem) (es : List Event)
    {id : BufferId} {o : OpenBuffer}
    (ho : ((start quiet lint fs).run es).session.get? id = some o)
    (focus : ((start quiet lint fs).run es).session.active = some id) :
    ((start quiet lint fs).run es).Attended id ((start quiet lint fs).lastTaken id es) o := by
  induction es using List.reverseRecOn generalizing o with
  | nil => cases ho
  | append_singleton es e ih =>
    have hw : ((start quiet lint fs).run es).Reachable := ⟨quiet, lint, fs, es, rfl⟩
    rw [lastTaken_concat]
    rw [run_append] at ho focus ⊢
    rcases touched_of_step hw.wellFormed ho with ⟨o₁, ho₁, ht⟩ | ⟨-, -, b, now, -, rfl⟩
    · exact ht.attended hw.wellFormed hw.accounted ho₁ ho focus fun hfocus => ih ho₁ hfocus
    · -- a new buffer waits
      exact .waits rfl

/-- **No edit goes unchecked.** After every run, a buffer that has the focus is open, and its timer
runs, or a check has been issued for the generation and the path that it has and has not come back,
or the last check of it that was not discarded was done for the generation and the path that it
has. -/
theorem waits_or_underWay_or_checked (quiet : Nat) (lint : Bool) (fs : FileSystem)
    (es : List Event) (id : BufferId)
    (focus : ((start quiet lint fs).run es).session.active = some id) :
    ∃ o, ((start quiet lint fs).run es).session.get? id = some o ∧
      (o.debouncer.isPending = true ∨
        (∃ r ∈ ((start quiet lint fs).run es).outstanding, r.buffer = id ∧
          r.generation = o.buffer.generation ∧ r.path = o.buffer.path) ∨
        ∃ c, (start quiet lint fs).lastTaken id es = some c ∧ c.request.buffer = id ∧
          c.request.generation = o.buffer.generation ∧ c.request.path = o.buffer.path) := by
  have hs := run_wellFormed (start_wellFormed quiet lint fs) es
  obtain ⟨o, ho⟩ := (Session.mem_ids_iff _ id).mp (hs.focus id focus)
  refine ⟨o, ho, ?_⟩
  cases attended_of_focus quiet lint fs es ho focus with
  | waits pending => exact Or.inl pending
  | underWay outstanding => exact Or.inr (Or.inl ⟨_, outstanding, rfl, rfl, rfl⟩)
  | @checked c idle counted request =>
    refine Or.inr (Or.inr ⟨c, counted, ?_⟩)
    rw [request]
    exact ⟨rfl, rfl, rfl⟩

/-- A text is changed while a check is under way, so that check is discarded; the two checks after
it find nothing, and then again nothing. -/
def editedWhileChecked : List Event :=
  [.openBuffer ⟨⟨"a.py"⟩, "x\n", 0⟩ 0, .poll 5, .edit 0 6 (.setText "y\n"), .answer 0 [],
    .deliver 0 7, .poll 11, .answer 0 [], .deliver 0 12, .poll 17, .answer 0 [], .deliver 0 18]

/-- When the buffer neither waits nor has a check under way any more, the changed text has been
checked. -/
theorem waits_or_underWay_or_checked_edited :
    ((start 5 true {}).run editedWhileChecked).session.active = some 0 ∧
      ∃ c, (start 5 true {}).lastTaken 0 editedWhileChecked = some c ∧
        c.request.generation = 1 := by
  have focus : ((start 5 true {}).run editedWhileChecked).session.active = some 0 := by
    decide +kernel
  -- nothing is under way and nothing waits, so the last case is left
  have hout : ((start 5 true {}).run editedWhileChecked).outstanding = [] := by decide +kernel
  have hidle : (((start 5 true {}).run editedWhileChecked).session.get? 0).all
      (fun o => o.debouncer.isPending = false ∧ o.buffer.generation = 1) = true := by
    decide +kernel
  obtain ⟨o, ho, h⟩ := waits_or_underWay_or_checked 5 true {} editedWhileChecked 0 focus
  rw [ho, Option.all_some, decide_eq_true_iff] at hidle
  refine ⟨focus, ?_⟩
  rcases h with hp | ⟨r, hr, -⟩ | ⟨c, hc, -, hgen, -⟩
  · exact absurd (hidle.1.symm.trans hp) Bool.false_ne_true
  · rw [hout] at hr
    cases hr
  · exact ⟨c, hc, hgen.trans hidle.2⟩

end EditorInsight.Workbench
