import EditorInsight.Proofs.Buffer
import EditorInsight.Proofs.Session.Workbench

/-!
# Stale checks

The request of a check carries the identity of the buffer, its path and its generation. While the
buffer stays open, its generation stands for one text, and when it is closed its identity is never
given away again. So a check that comes back, however late, counts only for the text and the file
that it was issued for.

* `Workbench.run_follows`: two moments of an open buffer with one generation have one text.
* `Workbench.run_closed`: a buffer that was closed stays closed.
* `Workbench.completeCheck_of_issued`: what becomes of a check at any later moment.
-/

namespace EditorInsight.Workbench

/-! ### Texts of an open buffer -/

theorem Touched.follows {w : Workbench} {id : BufferId} {e : Event} {o o' : OpenBuffer}
    (ht : Touched w id o e o') : o.buffer.Follows o'.buffer := by
  cases ht with
  | edited applied =>
    rw [OpenBuffer.armWhen_buffer]
    exact Buffer.follows_of_apply applied
  | renamed =>
    rw [OpenBuffer.armWhen_buffer]
    exact ⟨Nat.le_refl _, fun _ => rfl⟩
  | @completed i now c =>
    rcases o.receive_cases c now with ⟨hrec, -⟩ | ⟨hrec, -⟩ <;>
    · rw [hrec]
      exact Buffer.Follows.refl _
  | _ => exact Buffer.Follows.refl _

/-- A closed buffer is not opened again by any event: new buffers get new identities. -/
theorem step_closed {w : Workbench} (h : w.session.WellFormed) {id : BufferId}
    (hlt : id < w.session.nextId) (hc : w.session.get? id = none) (e : Event) :
    (w.step e).session.get? id = none := by
  cases ho' : (w.step e).session.get? id with
  | none => rfl
  | some o' =>
    rcases touched_of_step h ho' with ⟨o, ho, -⟩ | ⟨rfl, -⟩
    · rw [hc] at ho
      cases ho
    · exact absurd hlt (Nat.lt_irrefl _)

theorem run_closed {w : Workbench} (h : w.session.WellFormed) {id : BufferId}
    (hlt : id < w.session.nextId) (hc : w.session.get? id = none) (es : List Event) :
    (w.run es).session.get? id = none := by
  induction es generalizing w with
  | nil => exact hc
  | cons e es ih =>
    exact ih (step_wellFormed h e) (Nat.lt_of_lt_of_le hlt (w.step_frame e).2.2)
      (step_closed h hlt hc e)

/-- An open buffer stays open until it is closed. -/
theorem exists_step {w : Workbench} {id : BufferId} {o : OpenBuffer}
    (ho : w.session.get? id = some o) {e : Event} (h : e ≠ .close id) :
    ∃ o', (w.step e).session.get? id = some o' := by
  have hid : id ∈ w.session.ids := (w.session.mem_ids_iff id).mpr ⟨o, ho⟩
  refine (Session.mem_ids_iff _ id).mp ?_
  rcases w.step_frame_cases e with hf | ⟨b, now, -, -, hs⟩ | ⟨k, r, rfl, hr, hs⟩ |
    ⟨k, now, s, -, hr, hs⟩
  · rw [hf.ids]
    exact hid
  · rw [hs, Session.ids_openBuffer]
    exact List.mem_append_left _ hid
  · -- another buffer was closed
    have hk : id ≠ k := fun hk => h (congrArg Event.close hk.symm)
    rw [hs, Session.ids_close hr]
    exact List.mem_filter.mpr ⟨hid, bne_iff_ne.mpr hk⟩
  · rw [hs, (Session.activate_frame hr).2.ids]
    exact hid

/-- A buffer that is open now and at the end of a history has been open in between, and the first
event touched it. -/
theorem exists_touched_of_run {w : Workbench} (h : w.session.WellFormed) {id : BufferId}
    {o o' : OpenBuffer} (ho : w.session.get? id = some o) {e : Event} {es : List Event}
    (ho' : (w.run (e :: es)).session.get? id = some o') :
    ∃ o₁, (w.step e).session.get? id = some o₁ ∧ Touched w id o e o₁ := by
  have hlt : id < w.session.nextId := h.lt_nextId ho
  cases ho₁ : (w.step e).session.get? id with
  | none =>
    -- closed by the event, it would still be closed at the end
    rw [run_cons, run_closed (step_wellFormed h e)
      (Nat.lt_of_lt_of_le hlt (w.step_frame e).2.2) ho₁ es] at ho'
    cases ho'
  | some o₁ =>
    -- it is the same buffer, since its identity is not a new one
    rcases touched_of_step h ho₁ with ⟨o₀, ho₀, ht⟩ | ⟨rfl, -⟩
    · obtain rfl := Option.some.inj (ho.symm.trans ho₀)
      exact ⟨o₁, rfl, ht⟩
    · exact absurd hlt (Nat.lt_irrefl _)

theorem run_follows {w : Workbench} (h : w.session.WellFormed) {id : BufferId} {o o' : OpenBuffer}
    (ho : w.session.get? id = some o) (es : List Event)
    (ho' : (w.run es).session.get? id = some o') : o.buffer.Follows o'.buffer := by
  induction es generalizing w o with
  | nil =>
    obtain rfl := Option.some.inj (ho.symm.trans ho')
    exact Buffer.Follows.refl _
  | cons e es ih =>
    obtain ⟨o₁, ho₁, ht⟩ := exists_touched_of_run h ho ho'
    exact ht.follows.trans (ih (step_wellFormed h e) ho₁ ho')

/-! ### The end of a check -/

/-- A check that counts is recorded, whether or not its findings are other ones. -/
theorem receive_debouncer {o : OpenBuffer} {c : CheckCompleted} (h : o.accepts c.request = true)
    (now : Nat) : (o.receive c now).1.debouncer = (o.debouncer.record c.diagnostics now).1 := by
  unfold Debouncer.record
  rcases o.receive_cases c now with ⟨hrec, hwhy⟩ | ⟨hrec, -, hother⟩
  · -- it counts, so its findings are the last ones
    have hsame : o.debouncer.lastFired = some c.diagnostics :=
      hwhy.resolve_left fun hdiscarded => Bool.false_ne_true (hdiscarded.symm.trans h)
    rw [hrec, if_pos hsame]
  · rw [hrec, if_neg hother]
    rfl

/-- A check that does not count ends, and that is all. -/
theorem completeCheck_discarded {s : Session} (hs : s.WellFormed) {c : CheckCompleted}
    (h : ∀ o, s.get? c.request.buffer = some o → o.accepts c.request = false) (now : Nat) :
    s.completeCheck c now
      = (s.modify c.request.buffer fun o => { o with inFlight := false }, false) := by
  rw [Session.completeCheck_eq]
  cases ho : s.get? c.request.buffer with
  | none => rw [s.modify_of_get?_eq_none ho]
  | some o =>
    have hrec : o.receive c now = ({ o with inFlight := false }, false) := by
      rcases o.receive_cases c now with ⟨hrec, -⟩ | ⟨-, ha, -⟩
      · exact hrec
      · rw [h o ho] at ha
        cases ha
    simp only [hrec, hs.put_eq_modify ho fun o => { o with inFlight := false }]

/-- **A late check counts only for what it was issued for.** Let a poll issue a check, and let
anything happen after it. If the check is done then, its buffer may be open with the path of the
request and with the generation of the request, hence with the text that it had when the check was
issued; the findings are recorded. Otherwise the answer is that nothing was painted, and nothing
changes but that no check of this buffer is under way any more. The check never meets another
buffer under the same identity: identities that have been given out are those below the next one,
and of these one that is not open any more is never open again. -/
theorem completeCheck_of_issued {w w' : Workbench} (hw : w.Reachable) {now : Nat}
    {r : CheckRequest} (hr : r ∈ (w.session.poll w.fs now).2.2) (es : List Event)
    (hw' : w' = (w.step (.poll now)).run es) (ds : List Diagnostic) (later : Nat) :
    (∃ o, w.session.get? r.buffer = some o ∧ r.path = o.buffer.path ∧
      ((∃ o₁ o₂, w'.session.get? r.buffer = some o₁ ∧ o₁.buffer.path.same r.path = true ∧
          o₁.buffer.generation = r.generation ∧ o₁.buffer.text = o.buffer.text ∧
          (w'.session.completeCheck (r.complete ds) later).1.get? r.buffer = some o₂ ∧
          o₂.debouncer = (o₁.debouncer.record ds later).1) ∨
        ((∀ o₁, w'.session.get? r.buffer = some o₁ →
            o₁.buffer.path.same r.path = false ∨ o₁.buffer.generation ≠ r.generation) ∧
          w'.session.completeCheck (r.complete ds) later
            = (w'.session.modify r.buffer fun o₁ => { o₁ with inFlight := false }, false)))) ∧
      (∀ k o₁, w'.session.get? k = some o₁ → k < w'.session.nextId) ∧
      ∀ k, k < w'.session.nextId → w'.session.get? k = none →
        ∀ more, (w'.run more).session.get? k = none := by
  have hs : w.session.WellFormed := hw.wellFormed
  have hs₁ : (w.step (.poll now)).session.WellFormed := step_wellFormed hs _
  have hs' : w'.session.WellFormed := hw' ▸ run_wellFormed hs₁ es
  refine ⟨?_, fun k o₁ hk => hs'.lt_nextId hk, fun k hk hc more => run_closed hs' hk hc more⟩
  obtain ⟨hlint, o, ho, hdue, hreq⟩ := hs.mem_poll_requests.mp hr
  have hgen : r.generation = o.buffer.generation := by rw [hreq]; rfl
  have hpath : r.path = o.buffer.path := by rw [hreq]; rfl
  refine ⟨o, ho, hpath, ?_⟩
  -- the buffer right after the poll still has the text that was checked
  have ho₁ : (w.step (.poll now)).session.get? r.buffer = some o.issued := by
    refine (w.session.get?_poll w.fs now r.buffer).trans ?_
    rw [ho, Option.map_some, if_pos ⟨hlint, hdue⟩]
  cases ho' : w'.session.get? r.buffer with
  | none =>
    -- closed in the meantime
    refine Or.inr ⟨fun o₁ h => (nomatch h), completeCheck_discarded hs' (fun o₁ h => ?_) later⟩
    exact nomatch ho'.symm.trans h
  | some o' =>
    have hf : o.buffer.Follows o'.buffer := run_follows (o := o.issued) hs₁ ho₁ es (hw' ▸ ho')
    cases ha : o'.accepts r with
    | true =>
      obtain ⟨hsame, hgen'⟩ := Bool.and_eq_true_iff.mp ha
      replace hgen' : o'.buffer.generation = r.generation := beq_iff_eq.mp hgen'
      refine Or.inl ⟨o', _, rfl, hsame, hgen', hf.text_eq (hgen'.trans hgen), ?_,
        receive_debouncer (c := r.complete ds) ha later⟩
      rw [Session.get?_completeCheck, ho', Option.map_some]
      exact congrArg some (if_pos rfl)
    | false =>
      refine Or.inr ⟨fun o₁ h => ?_, completeCheck_discarded hs' (fun o₁ h => ?_) later⟩
      · obtain rfl := Option.some.inj h
        rcases Bool.and_eq_false_iff.mp ha with hsame | hgen'
        · exact Or.inl hsame
        · exact Or.inr (beq_eq_false_iff_ne.mp hgen')
      · obtain rfl := Option.some.inj (ho'.symm.trans h)
        exact ha

/-- A buffer with a short text, whose first check is due at 5. -/
def shortText : Workbench := (start 5 true {}).run [.openBuffer ⟨⟨"a.py"⟩, "x\n", 0⟩ 0]

/-- The text is changed while its check is under way. -/
theorem completeCheck_of_issued_edited :
    shortText.Reachable ∧
      ⟨0, 0, ⟨"a.py"⟩⟩ ∈ (shortText.session.poll shortText.fs 5).2.2 ∧
      (((shortText.step (.poll 5)).run [.edit 0 6 (.setText "y\n")]).session.completeCheck
        (CheckRequest.complete ⟨0, 0, ⟨"a.py"⟩⟩ []) 7).2 = false := by
  have hw : shortText.Reachable := ⟨5, true, {}, _, rfl⟩
  have hr : ⟨0, 0, ⟨"a.py"⟩⟩ ∈ (shortText.session.poll shortText.fs 5).2.2 := by decide +kernel
  obtain ⟨⟨o, -, -, h⟩, -⟩ :=
    completeCheck_of_issued hw hr [.edit 0 6 (.setText "y\n")] rfl [] 7
  refine ⟨hw, hr, ?_⟩
  rcases h with ⟨o₁, o₂, ho₁, -, hgen, -⟩ | ⟨-, h⟩
  · -- the change raised the generation, so the check cannot count
    have hg : (((shortText.step (.poll 5)).run [.edit 0 6 (.setText "y\n")]).session.get? 0).all
        (·.buffer.generation = 1) = true := by
      decide +kernel
    rw [ho₁, Option.all_some, decide_eq_true_iff] at hg
    exact absurd (hg.symm.trans hgen) Nat.one_ne_zero
  · exact congrArg Prod.snd h

end EditorInsight.Workbench
