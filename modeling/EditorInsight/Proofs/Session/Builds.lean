import EditorInsight.Proofs.Painting.Builds
import EditorInsight.Proofs.Session.Inline

/-!
# Sessions in every build

A session paints in two places: when a text is edited over which something is painted, and when a check
comes back with other findings than the last ones. A build that checks its sums may stop there, and
nowhere else. As long as it does not stop, it does what a build without checks does. So what is proved of
the runs of a build without checks holds of the runs of every build.

* `Session.edit?_eq_none_iff` and `Session.completeCheck?_eq_none_iff` say when a build stops;
  `Session.edit?_eq_some`, `Session.completeCheck?_eq_some` and `Session.runDueChecks?_eq_some` say that
  otherwise it does as the others do.
* `Workbench.run?` is a history in any build, and `Workbench.run?_eq_some` the same for histories.
-/

namespace EditorInsight

/-- What a build does with the annotations of findings, if it gets that far. -/
theorem map_paintInWords? {α : Type} (build : Arithmetic) (f : List Annotation → α) (text : String)
    (ds : List Diagnostic) : f <$> paintInWords? build text ds
      = (paintInWords? build text ds).map fun _ => f (paintInWords text ds) := by
  cases h : paintInWords? build text ds with
  | none => rfl
  | some xs =>
    obtain rfl := eq_paintInWords h
    rfl

/-! ### Painting first -/

section PaintingFirst

variable {α β : Type} {p : Prop} [Decidable p] {painted : Option α} {b b' : β}

/-- What is done behind painting is not reached if something is painted and the build stops there. -/
theorem ite_map_eq_none_iff :
    (if p then painted.map fun _ => b else some b) = none ↔ p ∧ painted = none := by
  split
  · next hp => rw [Option.map_eq_none_iff, and_iff_right hp]
  · next hp => exact iff_of_false (Option.some_ne_none b) fun h => hp h.1

/-- If it is reached, it does not matter whether something was painted. -/
theorem eq_of_ite_map_eq_some (h : (if p then painted.map fun _ => b else some b) = some b') :
    b' = b := by
  split at h
  · obtain ⟨-, -, hb⟩ := Option.map_eq_some_iff.mp h
    exact hb.symm
  · exact (Option.some.inj h).symm

end PaintingFirst

/-! ### One buffer -/

namespace OpenBuffer

variable (build : Arithmetic) (o : OpenBuffer)

theorem changedBy_build (b : Buffer) : o.changedBy (paintInWords? build) b
    = if o.layers.annotations ≠ [] then
        (paintInWords? build b.text o.diagnostics).map fun _ => o.changed b
      else some (o.changed b) := by
  rw [changedBy_eq, changed_eq, ite_not]
  split
  · rfl
  · exact map_paintInWords? build _ b.text o.diagnostics

theorem receiveBy_build (c : CheckCompleted) (now : Nat) : o.receiveBy (paintInWords? build) c now
    = if o.Repaints c then
        (paintInWords? build o.buffer.text c.diagnostics).map fun _ => o.receive c now
      else some (o.receive c now) := by
  rw [receiveBy_eq, receive_eq]
  split
  · exact map_paintInWords? build _ o.buffer.text c.diagnostics
  · rfl

end OpenBuffer

/-! ### Operations -/

namespace Session

variable {build : Arithmetic} {s : Session} {id : BufferId} {now : Nat} {change : Change}
  {c : CheckCompleted}

/-- An edit that is not refused paints if something is painted. -/
theorem edit?_of_prepareEdit {o : OpenBuffer} {b : Buffer} {offset : Option Nat}
    (h : s.prepareEdit id change = .ok (o, b, offset)) : s.edit? build id now change
      = if o.layers.annotations ≠ [] then
          (paintInWords? build b.text o.diagnostics).map fun _ => s.edit id now change
        else some (s.edit id now change) := by
  have hedit : s.edit id now change = .ok ((s.put id (o.changed b)).armIfActive id now, offset) := by
    rw [edit, editBy, h]
    rfl
  rw [hedit, edit?, editBy, h]
  dsimp only
  rw [o.changedBy_build build b]
  split
  · cases paintInWords? build b.text o.diagnostics <;> rfl
  · rfl

theorem edit?_of_error {e : SessionError} (h : s.prepareEdit id change = .error e) :
    s.edit? build id now change = some (s.edit id now change) := by
  rw [edit, editBy, h, edit?, editBy, h]
  rfl

/-- A build stops at an edit if the edit is not refused, something is painted, and painting it again over
the new text stops. -/
theorem edit?_eq_none_iff : s.edit? build id now change = none ↔
    ∃ o b offset, s.get? id = some o ∧ o.buffer.apply change = .ok (b, offset) ∧
      o.layers.annotations ≠ [] ∧ paintInWords? build b.text o.diagnostics = none := by
  constructor
  · intro hnone
    cases hready : s.prepareEdit id change with
    | error e =>
      rw [edit?_of_error hready] at hnone
      cases hnone
    | ok r =>
      obtain ⟨o, b, offset⟩ := r
      obtain ⟨ho, happly⟩ := prepareEdit_eq_ok_iff.mp hready
      rw [edit?_of_prepareEdit hready, ite_map_eq_none_iff] at hnone
      exact ⟨o, b, offset, ho, happly, hnone⟩
  · rintro ⟨o, b, offset, ho, happly, hstops⟩
    rw [edit?_of_prepareEdit (prepareEdit_eq_ok_iff.mpr ⟨ho, happly⟩)]
    exact ite_map_eq_none_iff.mpr hstops

theorem edit?_eq_some {r : Except SessionError (Session × Option Nat)}
    (h : s.edit? build id now change = some r) : r = s.edit id now change := by
  cases hready : s.prepareEdit id change with
  | error e =>
    rw [edit?_of_error hready] at h
    exact (Option.some.inj h).symm
  | ok p =>
    obtain ⟨o, b, offset⟩ := p
    rw [edit?_of_prepareEdit hready] at h
    exact eq_of_ite_map_eq_some h

theorem edit?_wrapping (s : Session) (id : BufferId) (now : Nat) (change : Change) :
    s.edit? .wrapping id now change = some (s.edit id now change) := by
  cases h : s.edit? .wrapping id now change with
  | none =>
    obtain ⟨o, b, offset, -, -, -, hpaint⟩ := edit?_eq_none_iff.mp h
    cases (paintInWords?_wrapping b.text o.diagnostics).symm.trans hpaint
  | some r => rw [edit?_eq_some h]

/-- A check that is done paints if it counts and has other findings than the last ones. -/
theorem completeCheck?_of_get? {o : OpenBuffer} (ho : s.get? c.request.buffer = some o) :
    s.completeCheck? build c now
      = if o.Repaints c then
          (paintInWords? build o.buffer.text c.diagnostics).map fun _ => s.completeCheck c now
        else some (s.completeCheck c now) := by
  rw [completeCheck?, completeCheckBy_eq, completeCheck_eq, ho]
  dsimp only
  rw [o.receiveBy_build build]
  split
  · cases paintInWords? build o.buffer.text c.diagnostics <;> rfl
  · rfl

theorem completeCheck?_of_closed (hclosed : s.get? c.request.buffer = none) :
    s.completeCheck? build c now = some (s.completeCheck c now) := by
  rw [completeCheck?, completeCheckBy_eq, completeCheck_eq, hclosed]
  rfl

/-- A build stops at a check that is done if the check counts, has other findings than the last ones, and
painting these stops. -/
theorem completeCheck?_eq_none_iff : s.completeCheck? build c now = none ↔
    ∃ o, s.get? c.request.buffer = some o ∧ o.Repaints c ∧
      paintInWords? build o.buffer.text c.diagnostics = none := by
  constructor
  · intro hnone
    cases ho : s.get? c.request.buffer with
    | none =>
      rw [completeCheck?_of_closed ho] at hnone
      cases hnone
    | some o =>
      rw [completeCheck?_of_get? ho, ite_map_eq_none_iff] at hnone
      exact ⟨o, rfl, hnone⟩
  · rintro ⟨o, ho, hstops⟩
    rw [completeCheck?_of_get? ho]
    exact ite_map_eq_none_iff.mpr hstops

theorem completeCheck?_eq_some {r : Session × Bool} (h : s.completeCheck? build c now = some r) :
    r = s.completeCheck c now := by
  cases ho : s.get? c.request.buffer with
  | none =>
    rw [completeCheck?_of_closed ho] at h
    exact (Option.some.inj h).symm
  | some o =>
    rw [completeCheck?_of_get? ho] at h
    exact eq_of_ite_map_eq_some h

theorem completeCheck?_wrapping (s : Session) (c : CheckCompleted) (now : Nat) :
    s.completeCheck? .wrapping c now = some (s.completeCheck c now) := by
  cases h : s.completeCheck? .wrapping c now with
  | none =>
    obtain ⟨o, -, -, hpaint⟩ := completeCheck?_eq_none_iff.mp h
    cases (paintInWords?_wrapping o.buffer.text c.diagnostics).symm.trans hpaint
  | some r => rw [completeCheck?_eq_some h]

/-! ### Checks done at once -/

section DueChecks

variable {m : Type → Type} [Monad m] [LawfulMonad m] {σ : Type}

/-- Where a linter has effects, taking a check has still no other one than to stop. -/
theorem completeCheckBy_ofBuild (build : Arithmetic) (s : Session) (c : CheckCompleted) (now : Nat) :
    s.completeCheckBy (.ofBuild build : Painter (OptionT m)) c now
      = OptionT.mk (pure (s.completeCheck? build c now)) := by
  -- what may stop is embedded without effects, and so is what is made of it
  have hmap : ∀ {α β : Type} (f : α → β) (x : Option α),
      f <$> (OptionT.mk (pure x) : OptionT m α) = OptionT.mk (pure (f <$> x)) := by
    intro α β f x
    cases x <;> simp [OptionT.ext_iff]
  rw [completeCheck?, completeCheckBy_eq, completeCheckBy_eq]
  cases s.get? c.request.buffer with
  | none => rfl
  | some o =>
    dsimp only
    rw [OpenBuffer.receiveBy_eq, OpenBuffer.receiveBy_eq]
    split
    · rw [Painter.ofBuild, hmap, hmap]
    · rw [map_pure, map_pure]
      rfl

variable (check : Path → StateM σ (List Diagnostic)) (now : Nat) (s : Session) (a : σ)

/-- Runs checks in a build that may stop. -/
abbrev runChecks? (build : Arithmetic) (requests : List CheckRequest) :
    OptionT (StateM σ) (Session × Nat) :=
  runChecksBy (.ofBuild build) (fun p => OptionT.lift (check p)) now s requests

theorem runChecks?_cons (build : Arithmetic) (r : CheckRequest) (requests : List CheckRequest) :
    (runChecks? check now s build (r :: requests)).run a
      = match s.completeCheck? build (r.complete (check r.path a).1) now with
        | none => (none, (check r.path a).2)
        | some done =>
          let rest := (runChecks? check now done.1 build requests).run (check r.path a).2
          (rest.1.map fun p => (p.1, if done.2 then p.2 + 1 else p.2), rest.2) := by
  rw [runChecks?, runChecksBy]
  simp only [completeCheckBy_ofBuild]
  -- the linter comes first, and the session is not concerned
  change (OptionT.mk (pure (s.completeCheck? build (r.complete (check r.path a).1) now)) >>= _ :
    OptionT (StateM σ) _).run (check r.path a).2 = _
  cases s.completeCheck? build (r.complete (check r.path a).1) now with
  | none => rfl
  | some done =>
    -- what is left is done after it, and the count is the only thing to be changed
    change ((fun p : Session × Nat => (p.1, if done.2 then p.2 + 1 else p.2)) <$>
      runChecks? check now done.1 build requests).run (check r.path a).2 = _
    rw [OptionT.run_map]
    rfl

theorem runChecks?_eq_some {build : Arithmetic} {requests : List CheckRequest} {r : Session × Nat}
    {b : σ} (h : (runChecks? check now s build requests).run a = (some r, b)) :
    runChecks check now s requests a = (r, b) := by
  induction requests generalizing s a r with
  | nil =>
    obtain ⟨hr, hb⟩ := Prod.mk.inj h
    obtain rfl := Option.some.inj hr
    obtain rfl := hb
    rfl
  | cons q requests ih =>
    rw [runChecks?_cons] at h
    cases hc : s.completeCheck? build (q.complete (check q.path a).1) now with
    | none =>
      rw [hc] at h
      cases congrArg Prod.fst h
    | some done =>
      rw [hc] at h
      obtain ⟨hr, hb⟩ := Prod.mk.inj h
      obtain ⟨p, hp, rfl⟩ := Option.map_eq_some_iff.mp hr
      -- this check did not stop, and by induction those behind it did not either
      have hrest := ih done.1 (check q.path a).2 (Prod.ext hp hb)
      rw [completeCheck?_eq_some hc] at hrest ⊢
      rw [runChecks_cons]
      dsimp only
      rw [hrest]

/-- As long as a build does not stop, it runs the due checks as the others do. -/
theorem runDueChecks?_eq_some {build : Arithmetic}
    {check : FileSystem → Path → StateM σ (List Diagnostic)} {fs : FileSystem}
    {r : Session × FileSystem × Nat} {b : σ}
    (h : (s.runDueChecks? build check fs now).run a = (some r, b)) :
    s.runDueChecks check fs now a = (r, b) := by
  change ((fun p : Session × Nat => (p.1, (s.poll fs now).2.1, p.2)) <$>
    runChecks? (check (s.poll fs now).2.1) now (s.poll fs now).1 build
      (s.poll fs now).2.2).run a = (some r, b) at h
  rw [OptionT.run_map] at h
  obtain ⟨hr, hb⟩ := Prod.mk.inj h
  obtain ⟨p, hp, rfl⟩ := Option.map_eq_some_iff.mp hr
  have hchecks := runChecks?_eq_some _ now _ a (Prod.ext hp hb)
  rw [runDueChecks_apply]
  dsimp only
  rw [hchecks]

end DueChecks

end Session

namespace Workbench

/-! ### Histories -/

variable {build : Arithmetic} {w w' : Workbench}

/-- One event in a build that may stop. -/
def step? (build : Arithmetic) (w : Workbench) : Event → Option Workbench
  | .edit id now change =>
    (w.session.edit? build id now change).map fun r => w.adopt (r.map (·.1))
  | .deliver i now =>
    match w.flights[i]? with
    | some (.finished c) =>
      (w.session.completeCheck? build c now).map fun r =>
        { w with session := r.1, flights := w.flights.eraseIdx i }
    | _ => some w
  | e => some (w.step e)

/-- A whole history in a build that may stop. -/
def run? (build : Arithmetic) (w : Workbench) (es : List Event) : Option Workbench :=
  es.foldlM (step? build) w

theorem step?_eq_some {e : Event} (h : w.step? build e = some w') : w' = w.step e := by
  cases e with
  | edit id now change =>
    obtain ⟨r, hr, rfl⟩ := Option.map_eq_some_iff.mp h
    rw [Session.edit?_eq_some hr]
    rfl
  | deliver i now =>
    rw [step?] at h
    split at h
    · next c flight =>
      obtain ⟨r, hr, rfl⟩ := Option.map_eq_some_iff.mp h
      rw [Session.completeCheck?_eq_some hr, step, flight]
    · next hother =>
      -- where no check comes back, nothing happens in either
      obtain rfl := Option.some.inj h
      rw [step]
      split
      · next c flight => exact absurd flight (hother c)
      · rfl
  | _ => exact (Option.some.inj h).symm

theorem step?_wrapping (w : Workbench) (e : Event) : w.step? .wrapping e = some (w.step e) := by
  have hsome : ∃ w', w.step? .wrapping e = some w' := by
    cases e with
    | edit id now change =>
      rw [step?, Session.edit?_wrapping]
      exact ⟨_, rfl⟩
    | deliver i now =>
      rw [step?]
      split
      · rw [Session.completeCheck?_wrapping]
        exact ⟨_, rfl⟩
      · exact ⟨_, rfl⟩
    | _ => exact ⟨_, rfl⟩
  obtain ⟨w', hw'⟩ := hsome
  rw [hw', step?_eq_some hw']

/-- **As long as a build does not stop, it runs as the others do.** -/
theorem run?_eq_some {es : List Event} (h : w.run? build es = some w') : w' = w.run es := by
  induction es generalizing w with
  | nil => exact (Option.some.inj h).symm
  | cons e es ih =>
    obtain ⟨w₁, hstep, hrest⟩ := Option.bind_eq_some_iff.mp h
    obtain rfl := step?_eq_some hstep
    exact ih hrest

/-- A build without checks never stops. -/
theorem run?_wrapping (w : Workbench) (es : List Event) : w.run? .wrapping es = some (w.run es) := by
  induction es generalizing w with
  | nil => rfl
  | cons e es ih =>
    rw [run?, List.foldlM_cons, step?_wrapping]
    exact ih (w.step e)

theorem Possible.of_run? {quiet : Nat} {lint : Bool} {fs : FileSystem} {flights : List Flight}
    {es : List Event} (h : (startWith quiet lint fs flights).run? build es = some w) : w.Possible :=
  ⟨quiet, lint, fs, flights, es, run?_eq_some h⟩

end Workbench

end EditorInsight
