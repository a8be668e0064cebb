import EditorInsight.Proofs.Identifier
import EditorInsight.Proofs.LineIndex
import EditorInsight.Proofs.Session.Painting

/-!
# What can be drawn

Findings are painted and words are underlined as stretches of bytes, and these belong to the text that
they were found in. An editor draws them over the text that the buffer has now. So every operation that
may give the buffer another text has to find them again or to drop them: an edit does the first with
what is painted and the second with the underline, a new path keeps the text, and a check counts only
for the text that it was done for.

* What is underlined is a word (`Span.IsWord`), and what is painted lies in its text
  (`mem_paintInWords_bounds`), whatever columns the linter gave.
* `OpenBuffer.Drawable` is the invariant of open buffers, `Touched.drawable` says that every event
  keeps it.
* `Workbench.drawn_within_text` puts everything together for all states that a session can get into in
  any build.
-/

namespace EditorInsight

/-! ### Open buffers -/

namespace OpenBuffer

/-- Whether everything that belongs to a buffer can be drawn over the text it has now. -/
structure Drawable (o : OpenBuffer) : Prop where
  annotations : ∀ x ∈ o.layers.annotations,
    x.span.start ≤ x.span.stop ∧ x.span.stop ≤ o.buffer.length
  underline : ∀ span, o.layers.underline = some span → span.IsWord o.buffer.chars

/-- Only the text and the layers matter. -/
theorem Drawable.of_eq {o o' : OpenBuffer} (h : o.Drawable)
    (text : o'.buffer.text = o.buffer.text) (layers : o'.layers = o.layers) : o'.Drawable where
  annotations := by
    unfold Buffer.length
    rw [text, layers]
    exact h.annotations
  underline := by
    unfold Buffer.chars
    rw [text, layers]
    exact h.underline

theorem Drawable.clearUnderline {o : OpenBuffer} (h : o.Drawable) : o.clearUnderline.Drawable where
  annotations := h.annotations
  underline := fun _ hspan => nomatch hspan

theorem changed_underline (o : OpenBuffer) (b : Buffer) : (o.changed b).layers.underline = none := by
  rw [changed_eq]
  dsimp only
  split <;> rfl

theorem renamed_underline (o : OpenBuffer) (path : Path) :
    (o.renamed path).layers.underline = o.layers.underline := by
  unfold renamed Layers.clear
  dsimp only
  split <;> rfl

/-- An edit finds what was painted again in the new text, and drops the underline. -/
theorem changed_drawable (o : OpenBuffer) (b : Buffer) : (o.changed b).Drawable where
  annotations := by
    intro x hx
    rw [changed_annotations] at hx
    split at hx
    · cases hx
    · exact mem_paintInWords_bounds hx
  underline := by
    intro span hspan
    rw [changed_underline] at hspan
    cases hspan

/-- A new path drops what was painted, but the word that is underlined is still there. -/
theorem Drawable.renamed {o : OpenBuffer} (h : o.Drawable) (path : Path) :
    (o.renamed path).Drawable where
  annotations := by
    intro x hx
    rw [renamed_annotations] at hx
    cases hx
  underline := by
    intro span hspan
    rw [renamed_underline] at hspan
    exact h.underline span hspan

theorem Drawable.hovered {o : OpenBuffer} (h : o.Drawable) (offset : Nat) :
    (o.hovered offset).Drawable where
  annotations := h.annotations
  underline := by
    intro span hspan
    obtain ⟨⟨start, stop⟩, hword, rfl⟩ := Option.map_eq_some_iff.mp hspan
    exact isWord_of_identifierAt? hword

theorem Drawable.receive {o : OpenBuffer} (h : o.Drawable) (c : CheckCompleted) (now : Nat) :
    (o.receive c now).1.Drawable := by
  rcases o.receive_cases c now with ⟨hrec, -⟩ | ⟨hrec, -⟩
  · rw [hrec]
    exact h.of_eq rfl rfl
  · -- the findings are painted over the text that the buffer has
    rw [hrec]
    exact ⟨fun x hx => mem_paintInWords_bounds hx, h.underline⟩

end OpenBuffer

namespace Workbench

/-! ### One event, and every state -/

theorem Touched.drawable {w : Workbench} {id : BufferId} {e : Event} {o o' : OpenBuffer}
    (h : o.Drawable) (ht : Touched w id o e o') : o'.Drawable := by
  cases ht with
  | spared => exact h
  | covered => exact h.of_eq rfl rfl
  | left =>
    have hcancelled : o.cancel.Drawable := h.of_eq rfl rfl
    exact hcancelled.clearUnderline
  | focused => exact h.of_eq rfl rfl
  | @edited now change b offset applied =>
    have hb := o.changed_drawable b
    exact hb.of_eq (by rw [OpenBuffer.armWhen_buffer]) (by rw [OpenBuffer.armWhen_layers])
  | @renamed path now =>
    have hr := h.renamed path
    exact hr.of_eq (by rw [OpenBuffer.armWhen_buffer]) (by rw [OpenBuffer.armWhen_layers])
  | hovered => exact h.hovered _
  | unhovered => exact h.clearUnderline
  | issued => exact h.of_eq rfl rfl
  | completed => exact h.receive _ _

theorem Possible.drawable {w : Workbench} (hw : w.Possible) {id : BufferId} {o : OpenBuffer}
    (ho : w.session.get? id = some o) : o.Drawable := by
  refine hw.induction (P := fun w => ∀ id o, w.session.get? id = some o → o.Drawable)
    ?_ ?_ id o ho
  · intro quiet lint fs flights id o ho
    cases ho
  · intro w e hw ih id o' ho'
    rcases touched_of_step hw.wellFormed ho' with ⟨o, ho, ht⟩ | ⟨-, -, b, now, -, rfl⟩
    · exact ht.drawable (ih id o ho)
    · -- nothing is drawn over a new buffer
      exact ⟨fun _ hx => (nomatch hx), fun _ hspan => (nomatch hspan)⟩

/-- **What the editor draws.** After every run of a session, in whatever build and whatever checks it was
told about, and for every open buffer: what is painted starts no later than it stops and stops in the
text that the buffer has now, and the underline, if there is one, is a stretch of this text that is not
empty and starts and stops where characters do. -/
theorem drawn_within_text (build : Arithmetic) (quiet : Nat) (lint : Bool) (fs : FileSystem)
    (flights : List Flight) (es : List Event) (w : Workbench)
    (hw : (startWith quiet lint fs flights).run? build es = some w) (id : BufferId) (o : OpenBuffer)
    (ho : w.session.get? id = some o) :
    (∀ x ∈ o.layers.annotations, x.span.start ≤ x.span.stop ∧ x.span.stop ≤ o.buffer.length) ∧
    ∀ span, o.layers.underline = some span →
      span.start < span.stop ∧ span.stop ≤ o.buffer.length ∧
        Text.isBoundary o.buffer.chars span.start = true ∧
        Text.isBoundary o.buffer.chars span.stop = true := by
  have hdraw := (Possible.of_run? hw).drawable ho
  refine ⟨hdraw.annotations, ?_⟩
  intro span hspan
  exact (hdraw.underline span hspan).bounds

/-- A text that gets shorter while a finding is painted and another word is underlined. -/
theorem drawn_within_text_shorter :
    ∃ w o, (startWith 5000 true {} []).run? .checked
        (checkedOnce ++ [.edit 0 6000 (.setText "x = 1\n__"), .hover 0 7]) = some w ∧
      w.session.get? 0 = some o ∧ o.layers.annotations.length = 1 ∧
      (∀ x ∈ o.layers.annotations, x.span.stop ≤ 8) ∧ o.layers.underline = some ⟨6, 8⟩ := by
  have hall : ((startWith 5000 true {} []).run? .checked (checkedOnce ++
      [.edit 0 6000 (.setText "x = 1\n__"), .hover 0 7])).any (fun w => (w.session.get? 0).any
        fun o => o.layers.annotations.length = 1 ∧ o.buffer.length = 8 ∧
          o.layers.underline = some ⟨6, 8⟩) = true := by
    decide +kernel
  obtain ⟨w, hw, hall⟩ := (Option.any_eq_true _ _).mp hall
  obtain ⟨o, ho, hall⟩ := (Option.any_eq_true _ _).mp hall
  obtain ⟨hone, hlength, hword⟩ := of_decide_eq_true hall
  obtain ⟨hpainted, -⟩ := drawn_within_text .checked 5000 true {} [] _ w hw 0 o ho
  refine ⟨w, o, hw, ho, hone, ?_, hword⟩
  intro x hx
  rw [← hlength]
  exact (hpainted x hx).2

end Workbench

end EditorInsight
