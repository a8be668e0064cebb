import EditorInsight.Proofs.Session.Identity
import Mathlib.Data.List.Induction

/-!
# Runs of an editor

An editor owns a session, and while it works checks are under way outside the session: issued and
not started, being done by a worker, or done and not yet delivered. `Workbench` is the session
together with the files and these flights, `Event` is what happens next, and `Workbench.run` is a
whole history. The editor may do its operations in any order and at any time, with arguments that
make them fail; workers may take any time and end in any way, their completions are delivered in any
order, each at most once; and other programs may change the files at any moment.

* `Touched` lists everything that one event may do to one open buffer, and
  `Workbench.touched_of_step` says that the list is complete. Invariants of open buffers are proved
  by going through this list, and not through the operations.
* `Workbench.step_frame` and `Workbench.run_wellFormed` are what every run keeps around the buffers.
* Sessions that do their checks themselves need no events of their own, see
  `EditorInsight.Proofs.Session.Inline`.
-/

namespace EditorInsight

/-! ### Checks outside the session -/

/-- A check that the session has issued and has not been told about. -/
inductive Flight where
  /-- Nobody has started it. -/
  | issued (r : CheckRequest)
  /-- A worker is at it. -/
  | running (r : CheckRequest)
  /-- It is done, and its completion is on the way. -/
  | finished (c : CheckCompleted)
deriving Inhabited

namespace Flight

/-- What was asked for. -/
def request : Flight → CheckRequest
  | issued r => r
  | running r => r
  | finished c => c.request

/-- The check is handed to a worker. -/
def submit : Flight → Flight
  | issued r => running r
  | f => f

/-- The worker ends, in whatever way. -/
def finish (e : WorkerEnd) : Flight → Flight
  | running r => finished (e.complete r)
  | f => f

/-- The editor does the check itself. -/
def answer (ds : List Diagnostic) : Flight → Flight
  | issued r => finished (r.complete ds)
  | f => f

@[simp] theorem request_submit (f : Flight) : f.submit.request = f.request := by
  cases f <;> rfl

/-- A worker sends back what it was asked for, also when the linter fails or breaks off. -/
@[simp] theorem request_finish (e : WorkerEnd) (f : Flight) :
    (f.finish e).request = f.request := by
  cases f with
  | running r => cases e <;> rfl
  | issued r => rfl
  | finished c => rfl

@[simp] theorem request_answer (ds : List Diagnostic) (f : Flight) :
    (f.answer ds).request = f.request := by
  cases f <;> rfl

end Flight

/-! ### Events and workbenches -/

/-- What may happen next. Flights are named by their places in the list of flights. -/
inductive Event where
  | openFile (path : Path) (now : Nat)
  | openBuffer (b : Buffer) (now : Nat)
  | edit (id : BufferId) (now : Nat) (change : Change)
  | activate (id : BufferId) (now : Nat)
  | close (id : BufferId)
  | save (id : BufferId)
  | rename (id : BufferId) (path : Path) (now : Nat)
  | hover (id : BufferId) (offset : Nat)
  | clearHover (id : BufferId)
  | poll (now : Nat)
  /-- An issued check is handed to a worker. -/
  | submit (i : Nat)
  /-- A worker ends. -/
  | finish (i : Nat) (e : WorkerEnd)
  /-- The editor does an issued check itself. -/
  | answer (i : Nat) (ds : List Diagnostic)
  /-- A check that is done is given to the session. -/
  | deliver (i : Nat) (now : Nat)
  /-- Other programs change the files. -/
  | disk (fs : FileSystem)

namespace Event

/-- The time that the editor reads for an event, if it needs one. -/
def time? : Event → Option Nat
  | openFile _ now | openBuffer _ now | edit _ now _ | activate _ now | rename _ _ now | poll now
  | deliver _ now => some now
  | _ => none

/-- Whether the event may open a buffer. -/
def Opens : Event → Prop
  | openFile _ _ | openBuffer _ _ => True
  | _ => False

/-- Whether the event may move the focus. -/
def MovesFocus : Event → Prop
  | openFile _ _ | openBuffer _ _ | close _ | activate _ _ => True
  | _ => False

end Event

/-- A session with everything around it that a run of it can depend on. -/
structure Workbench where
  session : Session
  /-- The files. -/
  fs : FileSystem
  /-- The checks under way, in the order in which they were issued. -/
  flights : List Flight := []

namespace Workbench

/-- A session without buffers, by its settings; `Session.ofQuiet` and `Session.ofSettings` give
these. -/
def start (quiet : Nat) (lintEnabled : Bool) (fs : FileSystem) : Workbench where
  session := { quiet := quiet, lintEnabled := lintEnabled }
  fs := fs

example (quiet : Nat) (fs : FileSystem) : (start quiet true fs).session = .ofQuiet quiet := rfl

example (c : Config.Settings) (fs : FileSystem) :
    (start c.lint.quietInterval c.lint.enabled fs).session = .ofSettings c := rfl

/-- The workbench after an operation on the session, which may have failed. -/
def adopt (w : Workbench) : Except SessionError Session → Workbench
  | .ok s => { w with session := s }
  | .error _ => w

/-- One event. -/
def step (w : Workbench) : Event → Workbench
  | .openFile path now => w.adopt ((w.session.openFile w.fs path now).map (·.1))
  | .openBuffer b now => { w with session := (w.session.openBuffer b now).1 }
  | .edit id now change => w.adopt ((w.session.edit id now change).map (·.1))
  | .activate id now => w.adopt (w.session.activate id now)
  | .close id =>
    match w.session.close w.fs id with
    | .ok (s, fs, _) => { w with session := s, fs := fs }
    | .error _ => w
  | .save id =>
    match w.session.save w.fs id with
    | .ok fs => { w with fs := fs }
    | .error _ => w
  | .rename id path now => w.adopt (w.session.rename id path now)
  | .hover id offset => w.adopt ((w.session.hover id offset).map (·.1))
  | .clearHover id => w.adopt (w.session.clearHover id)
  | .poll now =>
    let (s, fs, requests) := w.session.poll w.fs now
    { session := s, fs := fs, flights := w.flights ++ requests.map .issued }
  | .submit i => { w with flights := w.flights.modify i Flight.submit }
  | .finish i e => { w with flights := w.flights.modify i (Flight.finish e) }
  | .answer i ds => { w with flights := w.flights.modify i (Flight.answer ds) }
  | .deliver i now =>
    match w.flights[i]? with
    | some (.finished c) =>
      { w with session := (w.session.completeCheck c now).1, flights := w.flights.eraseIdx i }
    | _ => w
  | .disk fs => { w with fs := fs }

/-- A whole history. -/
def run (w : Workbench) (es : List Event) : Workbench := es.foldl step w

@[simp] theorem run_nil (w : Workbench) : w.run [] = w := rfl

@[simp] theorem run_cons (w : Workbench) (e : Event) (es : List Event) :
    w.run (e :: es) = (w.step e).run es := rfl

theorem run_append (w : Workbench) (es es' : List Event) : w.run (es ++ es') = (w.run es).run es' :=
  List.foldl_append

/-- What was asked for and not yet delivered. -/
def outstanding (w : Workbench) : List CheckRequest := w.flights.map Flight.request

/-- **Invariants of runs.** What holds at the start and is kept by every event holds after every
run. -/
theorem run_induction {P : Workbench → Prop} {w : Workbench} (start : P w)
    (step : ∀ w e, P w → P (w.step e)) (es : List Event) : P (w.run es) := by
  induction es generalizing w with
  | nil => exact start
  | cons e es ih => exact ih (step w e start)

/-! ### Operations that may fail -/

/-- A failed operation leaves everything as it was. -/
theorem adopt_cases (w : Workbench) (r : Except SessionError Session) :
    (∃ s, r = .ok s ∧ w.adopt r = { w with session := s }) ∨ w.adopt r = w := by
  cases r with
  | ok s => exact Or.inl ⟨s, rfl, rfl⟩
  | error e => exact Or.inr rfl

theorem adopt_map_cases {α : Type} (w : Workbench) (r : Except SessionError (Session × α)) :
    (∃ p, r = .ok p ∧ w.adopt (r.map (·.1)) = { w with session := p.1 }) ∨
      w.adopt (r.map (·.1)) = w := by
  cases r with
  | ok p => exact Or.inl ⟨p, rfl, rfl⟩
  | error e => exact Or.inr rfl

/-- A file that is opened is opened as a buffer. -/
theorem step_openFile (w : Workbench) (path : Path) (now : Nat) :
    (∃ b, w.step (.openFile path now) = w.step (.openBuffer b now)) ∨
      w.step (.openFile path now) = w := by
  rcases w.adopt_map_cases (w.session.openFile w.fs path now) with ⟨p, hp, hw⟩ | hw
  · obtain ⟨b, -, hr⟩ := bind_eq_ok hp
    refine Or.inl ⟨b, hw.trans ?_⟩
    rw [← Except.ok.inj hr]
    rfl
  · exact Or.inr hw

/-! ### What an event keeps around the buffers -/

theorem sameFrame_adopt {w : Workbench} {r : Except SessionError Session}
    (h : ∀ s, r = .ok s → Session.SameFrame w.session s) :
    Session.SameFrame w.session (w.adopt r).session := by
  rcases w.adopt_cases r with ⟨s, hs, hw⟩ | hw
  · rw [hw]
    exact h s hs
  · rw [hw]
    exact Session.SameFrame.refl _

theorem sameFrame_adopt_map {α : Type} {w : Workbench} {r : Except SessionError (Session × α)}
    (h : ∀ p, r = .ok p → Session.SameFrame w.session p.1) :
    Session.SameFrame w.session (w.adopt (r.map (·.1))).session := by
  rcases w.adopt_map_cases r with ⟨p, hp, hw⟩ | hw
  · rw [hw]
    exact h p hp
  · rw [hw]
    exact Session.SameFrame.refl _

/-- Outside the states of its buffers, a session is changed by opening, closing and focusing
alone. -/
theorem step_frame_cases (w : Workbench) (e : Event) :
    Session.SameFrame w.session (w.step e).session ∨
      (∃ b now, e.Opens ∧ e.time? = some now ∧
        (w.step e).session = (w.session.openBuffer b now).1) ∨
      (∃ id r, e = .close id ∧ w.session.close w.fs id = .ok r ∧ (w.step e).session = r.1) ∨
      ∃ id now s, e = .activate id now ∧ w.session.activate id now = .ok s ∧
        (w.step e).session = s := by
  cases e with
  | openFile path now =>
    rcases w.step_openFile path now with ⟨b, hw⟩ | hw
    · exact Or.inr (Or.inl ⟨b, now, trivial, rfl, by rw [hw]; rfl⟩)
    · rw [hw]
      exact Or.inl (Session.SameFrame.refl _)
  | openBuffer b now => exact Or.inr (Or.inl ⟨b, now, trivial, rfl, rfl⟩)
  -- an operation on one buffer puts that buffer back
  | edit id now change =>
    refine Or.inl (sameFrame_adopt_map fun p hp => ?_)
    obtain ⟨o, b, -, -, hs⟩ := Session.edit_eq_ok hp
    exact hs ▸ Session.SameFrame.put_armIfActive w.session id _ now
  | activate id now =>
    rcases w.adopt_cases (w.session.activate id now) with ⟨s, hs, hw⟩ | hw
    · exact Or.inr (Or.inr (Or.inr ⟨id, now, s, rfl, hs, by rw [step, hw]⟩))
    · rw [step, hw]
      exact Or.inl (Session.SameFrame.refl _)
  | close id =>
    cases hc : w.session.close w.fs id with
    | ok r => exact Or.inr (Or.inr (Or.inl ⟨id, r, rfl, hc, by rw [step, hc]⟩))
    | error e =>
      rw [step, hc]
      exact Or.inl (Session.SameFrame.refl _)
  | save id =>
    refine Or.inl ?_
    rw [step]
    split <;> exact Session.SameFrame.refl _
  | rename id path now =>
    refine Or.inl (sameFrame_adopt fun s hs => ?_)
    obtain ⟨o, -, rfl⟩ := Session.rename_eq_ok hs
    exact Session.SameFrame.put_armIfActive w.session id _ now
  | hover id offset =>
    refine Or.inl (sameFrame_adopt_map fun p hp => ?_)
    obtain ⟨o, -, hs⟩ := Session.hover_eq_ok hp
    exact hs ▸ Session.SameFrame.put w.session id _
  | clearHover id =>
    refine Or.inl (sameFrame_adopt fun s hs => ?_)
    obtain ⟨o, -, rfl⟩ := Session.clearHover_eq_ok hs
    exact Session.SameFrame.put w.session id _
  | poll now => exact Or.inl (Session.SameFrame.poll w.session w.fs now)
  -- what happens outside the session
  | submit i => exact Or.inl (Session.SameFrame.refl _)
  | finish i e => exact Or.inl (Session.SameFrame.refl _)
  | answer i ds => exact Or.inl (Session.SameFrame.refl _)
  | deliver i now =>
    refine Or.inl ?_
    rw [step]
    split
    · exact Session.SameFrame.completeCheck w.session _ now
    · exact Session.SameFrame.refl _
  | disk fs => exact Or.inl (Session.SameFrame.refl _)

theorem step_wellFormed {w : Workbench} (h : w.session.WellFormed) (e : Event) :
    (w.step e).session.WellFormed := by
  rcases w.step_frame_cases e with hf | ⟨b, now, -, -, hs⟩ | ⟨id, r, -, hr, hs⟩ |
    ⟨id, now, s, -, hr, hs⟩
  · exact h.of_sameFrame hf
  · rw [hs]; exact h.openBuffer b now
  · rw [hs]; exact h.close hr
  · rw [hs]; exact h.activate hr

/-- The settings stay, and identities are used up but never given back. -/
theorem step_frame (w : Workbench) (e : Event) :
    (w.step e).session.quiet = w.session.quiet ∧
      (w.step e).session.lintEnabled = w.session.lintEnabled ∧
      w.session.nextId ≤ (w.step e).session.nextId := by
  rcases w.step_frame_cases e with hf | ⟨b, now, -, -, hs⟩ | ⟨id, r, -, hr, hs⟩ |
    ⟨id, now, s, -, hr, hs⟩
  · exact ⟨hf.quiet, hf.lintEnabled, Nat.le_of_eq hf.nextId.symm⟩
  · have hf := Session.openBuffer_frame (s := w.session) b now
    rw [hs, hf.quiet, hf.lintEnabled, hf.nextId]
    exact ⟨rfl, rfl, Nat.le_succ _⟩
  · obtain ⟨o, -, rfl⟩ := Session.close_eq_ok hr
    rw [hs]
    exact ⟨rfl, rfl, Nat.le_refl _⟩
  · have hf := (Session.activate_frame hr).2
    rw [hs, hf.quiet, hf.lintEnabled, hf.nextId]
    exact ⟨rfl, rfl, Nat.le_refl _⟩

/-- The focus stays where it is unless a buffer is opened, closed or given the focus. -/
theorem step_active {w : Workbench} {e : Event} (h : ¬ e.MovesFocus) :
    (w.step e).session.active = w.session.active := by
  rcases w.step_frame_cases e with hf | ⟨b, now, opens, -⟩ | ⟨id, r, rfl, -⟩ | ⟨id, now, s, rfl, -⟩
  · exact hf.active
  · cases e with
    | openFile path now => exact absurd trivial h
    | openBuffer b now => exact absurd trivial h
    | _ => exact opens.elim
  · exact absurd trivial h
  · exact absurd trivial h

/-- Opening moves the focus to the new buffer, unless it fails. -/
theorem step_opens {w : Workbench} {e : Event} (opens : e.Opens) :
    (w.step e).session.active = some w.session.nextId ∨ w.step e = w := by
  have hopen : ∀ b now,
      (w.step (.openBuffer b now)).session.active = some w.session.nextId := by
    intro b now
    exact (Session.openBuffer_frame b now).active
  cases e with
  | openFile path now =>
    rcases w.step_openFile path now with ⟨b, hw⟩ | hw
    · rw [hw]
      exact Or.inl (hopen b now)
    · exact Or.inr hw
  | openBuffer b now => exact Or.inl (hopen b now)
  | _ => exact opens.elim

/-- A buffer that is asked for gets the focus, unless it is not open. -/
theorem step_activate (w : Workbench) (id : BufferId) (now : Nat) :
    (w.step (.activate id now)).session.active = some id ∨
      (w.session.get? id = none ∧ w.step (.activate id now) = w) := by
  cases hr : w.session.activate id now with
  | ok s =>
    left
    rw [step, hr]
    exact (Session.activate_frame hr).2.active
  | error e =>
    right
    refine ⟨?_, by rw [step, hr]; rfl⟩
    cases ho : w.session.get? id with
    | none => rfl
    | some o => exact absurd hr (Session.activate_ne_error ho)

theorem active_step_activate {w : Workbench} {id : BufferId} {o : OpenBuffer}
    (ho : w.session.get? id = some o) (now : Nat) :
    (w.step (.activate id now)).session.active = some id := by
  rcases w.step_activate id now with hA | ⟨hn, -⟩
  · exact hA
  · cases hn.symm.trans ho

/-- A buffer that was open and has the focus after an event had it before, or was asked for. -/
theorem focus_cases {w : Workbench} (hs : w.session.WellFormed) {id : BufferId} {o : OpenBuffer}
    (ho : w.session.get? id = some o) {e : Event}
    (focus : (w.step e).session.active = some id) :
    w.session.active = some id ∨ ∃ now, e = .activate id now := by
  rcases w.step_frame_cases e with hf | ⟨b, now, opens, -⟩ | ⟨k, r, rfl, hr, hstep⟩ |
    ⟨k, now, s, rfl, hr, hstep⟩
  · exact Or.inl (hf.active.symm.trans focus)
  · -- the buffer that was opened has another identity
    rcases step_opens (w := w) opens with hA | hw
    · have hid : id = w.session.nextId := Option.some.inj (focus.symm.trans hA)
      exact absurd (hs.lt_nextId ho) (hid ▸ Nat.lt_irrefl _)
    · exact Or.inl (hw ▸ focus)
  · left
    obtain ⟨o₁, -, rfl⟩ := Session.close_eq_ok hr
    rw [hstep] at focus
    replace focus : (if w.session.active = some k then none else w.session.active) = some id :=
      focus
    split at focus
    · cases focus
    · exact focus
  · right
    rw [hstep, (Session.activate_frame hr).2.active] at focus
    obtain rfl := Option.some.inj focus
    exact ⟨now, rfl⟩

theorem start_wellFormed (quiet : Nat) (lintEnabled : Bool) (fs : FileSystem) :
    (start quiet lintEnabled fs).session.WellFormed where
  ascending := List.Pairwise.nil
  below := fun id hid => by cases hid
  focus := fun id hid => by cases hid

theorem run_wellFormed {w : Workbench} (h : w.session.WellFormed) (es : List Event) :
    (w.run es).session.WellFormed :=
  run_induction (P := fun w => w.session.WellFormed) h (fun _ e hw => step_wellFormed hw e) es

/-- A state that some history leads to. -/
def Reachable (w : Workbench) : Prop :=
  ∃ quiet lint fs es, w = (start quiet lint fs).run es

theorem Reachable.run {w : Workbench} (h : w.Reachable) (es : List Event) :
    (w.run es).Reachable := by
  obtain ⟨quiet, lint, fs, es₀, rfl⟩ := h
  exact ⟨quiet, lint, fs, es₀ ++ es, (run_append _ es₀ es).symm⟩

/-- **Invariants.** What holds at the start and is kept by every event in every reachable state holds
in every reachable state. -/
theorem Reachable.induction {P : Workbench → Prop} {w : Workbench} (h : w.Reachable)
    (start : ∀ quiet lint fs, P (start quiet lint fs))
    (step : ∀ w e, w.Reachable → P w → P (w.step e)) : P w := by
  obtain ⟨quiet, lint, fs, es, rfl⟩ := h
  refine (run_induction (P := fun w => w.Reachable ∧ P w) ?_ (fun w e hw => ?_) es).2
  · exact ⟨⟨quiet, lint, fs, [], rfl⟩, start quiet lint fs⟩
  · exact ⟨hw.1.run [e], step w e hw.1 hw.2⟩

/-- A session without buffers, with some checks on the way from the beginning. -/
def startWith (quiet : Nat) (lintEnabled : Bool) (fs : FileSystem) (flights : List Flight) :
    Workbench :=
  { start quiet lintEnabled fs with flights := flights }

/-- A state that some history leads to if the session may be given any completions, also some that no
poll has asked for, and any of them twice. They are on the way from the beginning. -/
def Possible (w : Workbench) : Prop :=
  ∃ quiet lint fs flights es, w = (startWith quiet lint fs flights).run es

theorem Reachable.possible {w : Workbench} (h : w.Reachable) : w.Possible := by
  obtain ⟨quiet, lint, fs, es, rfl⟩ := h
  exact ⟨quiet, lint, fs, [], es, rfl⟩

theorem Possible.run {w : Workbench} (h : w.Possible) (es : List Event) : (w.run es).Possible := by
  obtain ⟨quiet, lint, fs, flights, es₀, rfl⟩ := h
  exact ⟨quiet, lint, fs, flights, es₀ ++ es, (run_append _ es₀ es).symm⟩

/-- What holds of sessions without buffers and is kept by every event in every possible state holds in
every possible state. -/
theorem Possible.induction {P : Workbench → Prop} {w : Workbench} (h : w.Possible)
    (start : ∀ quiet lint fs flights, P (startWith quiet lint fs flights))
    (step : ∀ w e, w.Possible → P w → P (w.step e)) : P w := by
  obtain ⟨quiet, lint, fs, flights, es, rfl⟩ := h
  induction es using List.reverseRecOn with
  | nil => exact start quiet lint fs flights
  | append_singleton es e ih =>
    rw [run_append]
    exact step _ e ⟨quiet, lint, fs, flights, es, rfl⟩ ih

theorem Possible.wellFormed {w : Workbench} (h : w.Possible) : w.session.WellFormed :=
  h.induction (P := fun w => w.session.WellFormed)
    (fun quiet lint fs _ => start_wellFormed quiet lint fs) fun _ e _ hs => step_wellFormed hs e

theorem Reachable.wellFormed {w : Workbench} (h : w.Reachable) : w.session.WellFormed :=
  h.possible.wellFormed

/-! ### What an event does to one buffer -/

/-- Whether an event leaves an open buffer alone, whatever else it does. -/
def Spares (w : Workbench) (id : BufferId) (o : OpenBuffer) : Event → Prop
  | .openFile path now => w.session.active = some id → w.step (.openFile path now) = w
  | .openBuffer _ _ => w.session.active ≠ some id
  | .edit k _ change => k = id → ∃ e, o.buffer.apply change = .error e
  | .activate k _ => k ≠ id ∧ (w.session.active = some id → w.session.get? k = none)
  | .close k => k ≠ id
  | .rename k _ _ => k ≠ id
  | .poll now => ¬ (w.session.lintEnabled = true ∧ o.wantsCheck now = true)
  | .deliver i _ => ∀ c, w.flights[i]? = some (.finished c) → c.request.buffer ≠ id
  | _ => True

/-- **What one event may do to one open buffer.** `Touched w id o e o'` says that `o'` is a state
that the buffer `id` may have after the event `e`, if its state was `o` before. -/
inductive Touched (w : Workbench) (id : BufferId) (o : OpenBuffer) : Event → OpenBuffer → Prop where
  | spared {e : Event} (spares : w.Spares id o e) : Touched w id o e o
  /-- Another buffer is opened and takes the focus. -/
  | covered {e : Event} (opens : e.Opens) (focus : w.session.active = some id) :
      Touched w id o e o.cancel
  /-- Another buffer is given the focus. -/
  | left {id' : BufferId} {now : Nat} (other : id' ≠ id) (focus : w.session.active = some id) :
      Touched w id o (.activate id' now) o.cancel.clearUnderline
  | focused {now : Nat} : Touched w id o (.activate id now) (o.arm now)
  | edited {now : Nat} {change : Change} {b : Buffer} {offset : Option Nat}
      (applied : o.buffer.apply change = .ok (b, offset)) :
      Touched w id o (.edit id now change)
        ((o.changed b).armWhen (w.session.active = some id) now)
  | renamed {path : Path} {now : Nat} :
      Touched w id o (.rename id path now)
        ((o.renamed path).armWhen (w.session.active = some id) now)
  | hovered {offset : Nat} : Touched w id o (.hover id offset) (o.hovered offset)
  | unhovered : Touched w id o (.clearHover id) o.clearUnderline
  | issued {now : Nat} (enabled : w.session.lintEnabled = true) (due : o.wantsCheck now = true) :
      Touched w id o (.poll now) o.issued
  | completed {i now : Nat} {c : CheckCompleted} (flight : w.flights[i]? = some (.finished c))
      (own : c.request.buffer = id) : Touched w id o (.deliver i now) (o.receive c now).1

/-! One lemma for each event that can change a buffer. Each finds the buffer before the event and the
item of the list. -/

section Items

variable {w : Workbench} {id : BufferId} {o' : OpenBuffer}

private theorem touched_of_openBuffer (h : w.session.WellFormed) {e : Event} (opens : e.Opens)
    {b : Buffer} {now : Nat} (time : e.time? = some now)
    (spares : w.session.active ≠ some id → ∀ o, w.Spares id o e)
    (ho' : (w.session.openBuffer b now).1.get? id = some o') :
    (∃ o, w.session.get? id = some o ∧ Touched w id o e o') ∨
      (id = w.session.nextId ∧ e.Opens ∧ ∃ b now, e.time? = some now ∧
        o' = OpenBuffer.arm { buffer := b, debouncer := { quiet := w.session.quiet } } now) := by
  rw [Session.get?_openBuffer _ _ _ _ h.nextId_free] at ho'
  by_cases hid : id = w.session.nextId
  · rw [if_pos hid] at ho'
    exact Or.inr ⟨hid, opens, b, now, time, (Option.some.inj ho').symm⟩
  · -- a buffer that was open before, which may have had the focus
    rw [if_neg hid] at ho'
    obtain ⟨o, ho, rfl⟩ := Option.map_eq_some_iff.mp ho'
    refine Or.inl ⟨o, ho, ?_⟩
    split
    · next focus => exact .covered opens focus
    · next focus => exact .spared (spares focus o)

/-- The event replaces the state of one buffer. -/
private theorem touched_of_replaced {e : Event} {k : BufferId} {o₁ o₂ : OpenBuffer}
    (hk : w.session.get? k = some o₁)
    (ho' : ((w.session.get? id).map fun o => if id = k then o₂ else o) = some o')
    (own : id = k → Touched w id o₁ e o₂) (other : id ≠ k → ∀ o, w.Spares id o e) :
    ∃ o, w.session.get? id = some o ∧ Touched w id o e o' := by
  obtain ⟨o, ho, rfl⟩ := Option.map_eq_some_iff.mp ho'
  refine ⟨o, ho, ?_⟩
  by_cases hid : id = k
  · rw [if_pos hid]
    -- both lookups found the same buffer
    have hsame : o₁ = o := Option.some.inj (hk.symm.trans (hid ▸ ho))
    exact hsame ▸ own hid
  · rw [if_neg hid]
    exact .spared (other hid o)

private theorem touched_of_edit {k : BufferId} {now : Nat} {change : Change}
    (ho' : (w.step (.edit k now change)).session.get? id = some o') :
    ∃ o, w.session.get? id = some o ∧ Touched w id o (.edit k now change) o' := by
  rw [step] at ho'
  cases hr : w.session.edit k now change with
  | ok r =>
    obtain ⟨o₁, b, hk, applied, hs⟩ := Session.edit_eq_ok hr
    rw [hr] at ho'
    replace ho' : r.1.get? id = some o' := ho'
    rw [hs, Session.get?_put_armIfActive] at ho'
    refine touched_of_replaced hk ho' (fun hid => ?_) fun hid _ hk => absurd hk.symm hid
    subst hid
    exact .edited applied
  | error e =>
    -- the change was refused, if this is the buffer at all
    rw [hr] at ho'
    refine ⟨o', ho', .spared fun hk => ?_⟩
    subst hk
    exact Session.apply_eq_error ho' hr

private theorem touched_of_activate {k : BufferId} {now : Nat}
    (ho' : (w.step (.activate k now)).session.get? id = some o') :
    ∃ o, w.session.get? id = some o ∧ Touched w id o (.activate k now) o' := by
  rw [step] at ho'
  cases hr : w.session.activate k now with
  | ok s =>
    rw [hr] at ho'
    replace ho' : s.get? id = some o' := ho'
    rw [Session.get?_activate hr] at ho'
    obtain ⟨o, ho, rfl⟩ := Option.map_eq_some_iff.mp ho'
    refine ⟨o, ho, ?_⟩
    split
    · next hid => exact hid ▸ .focused
    · next hid =>
      split
      · next focus => exact .left (Ne.symm hid) focus
      · next focus => exact .spared ⟨Ne.symm hid, fun hf => absurd hf focus⟩
  | error e =>
    -- it failed, so it named a buffer that is not open
    rw [hr] at ho'
    refine ⟨o', ho', .spared ⟨?_, fun _ => ?_⟩⟩
    · exact fun hk => Session.activate_ne_error (hk ▸ ho') hr
    · cases hk : w.session.get? k with
      | none => rfl
      | some o => exact absurd hr (Session.activate_ne_error hk)

private theorem touched_of_close {k : BufferId}
    (ho' : (w.step (.close k)).session.get? id = some o') :
    ∃ o, w.session.get? id = some o ∧ Touched w id o (.close k) o' := by
  rw [step] at ho'
  cases hr : w.session.close w.fs k with
  | ok r =>
    rw [hr] at ho'
    replace ho' : r.1.get? id = some o' := ho'
    rw [Session.get?_close hr] at ho'
    split at ho'
    · cases ho'
    · next hid => exact ⟨o', ho', .spared (Ne.symm hid)⟩
  | error e =>
    rw [hr] at ho'
    exact ⟨o', ho', .spared fun hk => Session.close_ne_error (hk ▸ ho') hr⟩

private theorem touched_of_rename {k : BufferId} {path : Path} {now : Nat}
    (ho' : (w.step (.rename k path now)).session.get? id = some o') :
    ∃ o, w.session.get? id = some o ∧ Touched w id o (.rename k path now) o' := by
  rw [step] at ho'
  cases hr : w.session.rename k path now with
  | ok s =>
    obtain ⟨o₁, hk, rfl⟩ := Session.rename_eq_ok hr
    rw [hr] at ho'
    replace ho' : ((w.session.put k (o₁.renamed path)).armIfActive k now).get? id = some o' := ho'
    rw [Session.get?_put_armIfActive] at ho'
    refine touched_of_replaced hk ho' (fun hid => ?_) fun hid _ hk => hid hk.symm
    subst hid
    exact .renamed
  | error e =>
    -- an open buffer is not refused a new path, so it was another one
    rw [hr] at ho'
    exact ⟨o', ho', .spared fun hk => Session.rename_ne_error (hk ▸ ho') hr⟩

private theorem touched_of_hover {k : BufferId} {offset : Nat}
    (ho' : (w.step (.hover k offset)).session.get? id = some o') :
    ∃ o, w.session.get? id = some o ∧ Touched w id o (.hover k offset) o' := by
  rw [step] at ho'
  rcases w.adopt_map_cases (w.session.hover k offset) with ⟨p, hp, hw⟩ | hw
  · obtain ⟨o₁, hk, hs⟩ := Session.hover_eq_ok hp
    rw [hw, hs, Session.get?_put] at ho'
    refine touched_of_replaced hk ho' (fun hid => ?_) fun _ _ => trivial
    subst hid
    exact .hovered
  · rw [hw] at ho'
    exact ⟨o', ho', .spared trivial⟩

private theorem touched_of_clearHover {k : BufferId}
    (ho' : (w.step (.clearHover k)).session.get? id = some o') :
    ∃ o, w.session.get? id = some o ∧ Touched w id o (.clearHover k) o' := by
  rw [step] at ho'
  rcases w.adopt_cases (w.session.clearHover k) with ⟨s, hs, hw⟩ | hw
  · obtain ⟨o₁, hk, rfl⟩ := Session.clearHover_eq_ok hs
    rw [hw, Session.get?_put] at ho'
    refine touched_of_replaced hk ho' (fun hid => ?_) fun _ _ => trivial
    subst hid
    exact .unhovered
  · rw [hw] at ho'
    exact ⟨o', ho', .spared trivial⟩

private theorem touched_of_poll {now : Nat}
    (ho' : (w.step (.poll now)).session.get? id = some o') :
    ∃ o, w.session.get? id = some o ∧ Touched w id o (.poll now) o' := by
  replace ho' : (w.session.poll w.fs now).1.get? id = some o' := ho'
  rw [Session.get?_poll] at ho'
  obtain ⟨o, ho, rfl⟩ := Option.map_eq_some_iff.mp ho'
  refine ⟨o, ho, ?_⟩
  split
  · next hw => exact .issued hw.1 hw.2
  · next hw => exact .spared hw

private theorem touched_of_deliver {i now : Nat}
    (ho' : (w.step (.deliver i now)).session.get? id = some o') :
    ∃ o, w.session.get? id = some o ∧ Touched w id o (.deliver i now) o' := by
  rw [step] at ho'
  split at ho'
  · next c hc =>
    replace ho' : (w.session.completeCheck c now).1.get? id = some o' := ho'
    rw [Session.get?_completeCheck] at ho'
    obtain ⟨o, ho, rfl⟩ := Option.map_eq_some_iff.mp ho'
    refine ⟨o, ho, ?_⟩
    split
    · next hid => exact .completed hc hid.symm
    · next hid =>
      refine .spared fun c' hc' own => ?_
      obtain rfl := Flight.finished.inj (Option.some.inj (hc.symm.trans hc'))
      exact hid own.symm
  · -- nothing is finished at this place
    next hn => exact ⟨o', ho', .spared fun c hc => absurd hc (hn c)⟩

end Items

/-- **The list is complete.** A buffer that is open after an event was open before it and is touched
by it as listed, or has just been opened under the next identity and is armed. -/
theorem touched_of_step {w : Workbench} (h : w.session.WellFormed) {e : Event} {id : BufferId}
    {o' : OpenBuffer} (ho' : (w.step e).session.get? id = some o') :
    (∃ o, w.session.get? id = some o ∧ Touched w id o e o') ∨
      (id = w.session.nextId ∧ e.Opens ∧ ∃ b now, e.time? = some now ∧
        o' = OpenBuffer.arm { buffer := b, debouncer := { quiet := w.session.quiet } } now) := by
  -- only opening can add a buffer
  cases e with
  | openFile path now =>
    rcases w.step_openFile path now with ⟨b, hw⟩ | hw
    · rw [hw] at ho'
      exact touched_of_openBuffer (e := .openFile path now) h trivial rfl
        (fun hidden _ focus => absurd focus hidden) ho'
    · -- the file cannot be read
      rw [hw] at ho'
      exact Or.inl ⟨o', ho', .spared fun _ => hw⟩
  | openBuffer b now =>
    exact touched_of_openBuffer (e := .openBuffer b now) h trivial rfl (fun focus _ => focus) ho'
  | edit k now change => exact Or.inl (touched_of_edit ho')
  | activate k now => exact Or.inl (touched_of_activate ho')
  | close k => exact Or.inl (touched_of_close ho')
  | rename k path now => exact Or.inl (touched_of_rename ho')
  | hover k offset => exact Or.inl (touched_of_hover ho')
  | clearHover k => exact Or.inl (touched_of_clearHover ho')
  | poll now => exact Or.inl (touched_of_poll ho')
  | deliver i now => exact Or.inl (touched_of_deliver ho')
  -- what does not reach the session
  | save k =>
    rw [step] at ho'
    split at ho' <;> exact Or.inl ⟨o', ho', .spared trivial⟩
  | submit i => exact Or.inl ⟨o', ho', .spared trivial⟩
  | finish i e => exact Or.inl ⟨o', ho', .spared trivial⟩
  | answer i ds => exact Or.inl ⟨o', ho', .spared trivial⟩
  | disk fs => exact Or.inl ⟨o', ho', .spared trivial⟩

end Workbench

end EditorInsight
