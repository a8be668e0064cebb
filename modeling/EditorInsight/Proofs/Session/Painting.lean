import EditorInsight.Proofs.Session.Builds
import Mathlib.Data.List.Induction

/-!
# What is painted

The layer of a buffer is painted again after every change of its text, but only if something is
painted. So findings follow their lines as long as each text on the way shows at least one of them;
once a text shows none, the layer stays empty until findings other than the last ones arrive, even
if the lines come back.

* `Workbench.WentBlank` says of a history that a text of the buffer showed none of its findings at
  some moment since it got them.
* `Workbench.annotations_cases`: the layer is empty after such a moment, and otherwise it is what
  painting the findings over the text from scratch would give.
* `Workbench.annotations_eq_paint_iff` is the exact condition for the latter in every build, together
  with what it means for single findings.
-/

namespace EditorInsight

namespace OpenBuffer

/-- Whether the layer is what painting the findings over the text from scratch gives. -/
def FreshlyPainted (o : OpenBuffer) : Prop :=
  o.layers.annotations = paintInWords o.buffer.text o.diagnostics

/-- Whether the text shows none of the findings. -/
def Blank (o : OpenBuffer) : Prop := paintInWords o.buffer.text o.diagnostics = []

theorem changed_annotations (o : OpenBuffer) (b : Buffer) :
    (o.changed b).layers.annotations
      = if o.layers.annotations = [] then [] else paintInWords b.text o.diagnostics := by
  rw [changed_eq]
  dsimp only
  split
  · next h => exact h
  · rfl

theorem renamed_annotations (o : OpenBuffer) (path : Path) :
    (o.renamed path).layers.annotations = [] := by
  simp only [renamed, Layers.clear, List.isEmpty_iff]
  split
  · next h => exact h
  · rfl

end OpenBuffer

namespace Workbench

/-- Whether an event gives a buffer other findings: it is renamed, which drops them, or a check is
delivered whose findings are not the last ones. -/
def Replaces (w : Workbench) (id : BufferId) : Event → Prop
  | .rename k _ _ => k = id
  | .deliver i now => ∃ c, w.flights[i]? = some (.finished c) ∧ c.request.buffer = id ∧
      (w.session.completeCheck c now).2 = true
  | _ => False

/-- Whether a buffer has the same findings all through a history. -/
def KeepsFindings (w : Workbench) (id : BufferId) : List Event → Prop
  | [] => True
  | e :: es => ¬ w.Replaces id e ∧ (w.step e).KeepsFindings id es

/-- Whether at some moment of a history the text of a buffer showed none of the findings that the
buffer still has at the end. -/
def WentBlank (w : Workbench) (id : BufferId) (es : List Event) : Prop :=
  ∃ pre post o, es = pre ++ post ∧ (w.run pre).session.get? id = some o ∧ o.Blank ∧
    (w.run pre).KeepsFindings id post

/-! ### One event -/

/-- A buffer that gets other findings has them painted. -/
theorem Touched.freshlyPainted {w : Workbench} {id : BufferId} {e : Event} {o o' : OpenBuffer}
    (ho : w.session.get? id = some o) (ht : Touched w id o e o') (hr : w.Replaces id e) :
    o'.FreshlyPainted := by
  unfold OpenBuffer.FreshlyPainted
  cases ht with
  | spared spares =>
    -- an event that spares the buffer does not give it findings
    cases e with
    | rename k path now => exact absurd hr spares
    | deliver i now =>
      obtain ⟨c, hc, own, -⟩ := hr
      exact absurd own (spares c hc)
    | _ => exact hr.elim
  | covered opens =>
    cases e with
    | openFile path now => exact hr.elim
    | openBuffer b now => exact hr.elim
    | _ => exact opens.elim
  | renamed =>
    rw [OpenBuffer.armWhen_layers, OpenBuffer.armWhen_diagnostics, o.renamed_annotations]
    exact (paintInWords_nil _).symm
  | @completed i now c flight own =>
    -- the answer says that the findings were painted
    obtain ⟨c', hc', -, hp⟩ := hr
    obtain rfl := Flight.finished.inj (Option.some.inj (flight.symm.trans hc'))
    subst own
    rw [Session.completeCheck_snd _ ho] at hp
    rcases o.receive_cases c now with ⟨hrec, -⟩ | ⟨hrec, -⟩
    · rw [hrec] at hp
      cases hp
    · rw [hrec]
      rfl
  | _ => exact hr.elim

/-- A buffer that keeps its findings has them painted again if something was painted, and otherwise
nothing is painted. -/
theorem Touched.annotations {w : Workbench} {id : BufferId} {e : Event} {o o' : OpenBuffer}
    (ho : w.session.get? id = some o) (ht : Touched w id o e o') (hr : ¬ w.Replaces id e) :
    (o.layers.annotations = [] → o'.layers.annotations = []) ∧
      (o.layers.annotations ≠ [] → o.FreshlyPainted → o'.FreshlyPainted) := by
  unfold OpenBuffer.FreshlyPainted
  cases ht with
  | edited applied =>
    rw [OpenBuffer.armWhen_layers, OpenBuffer.armWhen_diagnostics, OpenBuffer.armWhen_buffer,
      o.changed_annotations]
    exact ⟨fun h => if_pos h, fun h _ => if_neg h⟩
  | renamed => exact absurd rfl hr
  | @completed i now c flight own =>
    subst own
    rcases o.receive_cases c now with ⟨hrec, -⟩ | ⟨hrec, -⟩
    · -- discarded or unchanged, so the layer is left alone
      rw [hrec]
      exact ⟨id, fun _ => id⟩
    · refine absurd ⟨c, flight, rfl, ?_⟩ hr
      rw [Session.completeCheck_snd _ ho, hrec]
  | _ => exact ⟨fun h => h, fun _ h => h⟩

/-! ### Histories -/

variable {w : Workbench} {id : BufferId}

theorem keepsFindings_concat (w : Workbench) (id : BufferId) (es : List Event) (e : Event) :
    w.KeepsFindings id (es ++ [e]) ↔ w.KeepsFindings id es ∧ ¬ (w.run es).Replaces id e := by
  induction es generalizing w with
  | nil => simp [KeepsFindings]
  | cons x es ih => simp only [List.cons_append, KeepsFindings, ih, run_cons, and_assoc]

theorem wentBlank_of_blank {es : List Event} {o : OpenBuffer}
    (ho : (w.run es).session.get? id = some o) (h : o.Blank) : w.WentBlank id es :=
  ⟨es, [], o, (List.append_nil es).symm, ho, h, trivial⟩

/-- A history went blank with its last event, or it had gone blank before and the last event left
the findings as they were. -/
theorem wentBlank_concat (es : List Event) (e : Event) :
    w.WentBlank id (es ++ [e]) ↔
      (∃ o, (w.run (es ++ [e])).session.get? id = some o ∧ o.Blank) ∨
        (w.WentBlank id es ∧ ¬ (w.run es).Replaces id e) := by
  constructor
  · rintro ⟨pre, post, o, hsplit, ho, hb, hk⟩
    -- the blank moment is the last one, or an event comes after it
    rcases List.eq_nil_or_concat post with rfl | ⟨post, x, rfl⟩
    · rw [List.append_nil] at hsplit
      exact Or.inl ⟨o, hsplit ▸ ho, hb⟩
    · rw [List.concat_eq_append, ← List.append_assoc] at hsplit
      obtain ⟨rfl, hx⟩ := List.append_inj' hsplit rfl
      obtain rfl := (List.cons.inj hx).1
      rw [List.concat_eq_append, keepsFindings_concat, ← run_append] at hk
      exact Or.inr ⟨⟨pre, post, o, rfl, ho, hb, hk.1⟩, hk.2⟩
  · rintro (⟨o, ho, hb⟩ | ⟨⟨pre, post, o, rfl, ho, hb, hk⟩, hr⟩)
    · exact wentBlank_of_blank ho hb
    · refine ⟨pre, post ++ [e], o, List.append_assoc _ _ _, ho, hb, ?_⟩
      rw [keepsFindings_concat, ← run_append]
      exact ⟨hk, hr⟩

/-- **The layer after every run.** It is empty if the text went blank since the buffer got its
findings, and otherwise it is what painting them from scratch gives. -/
theorem annotations_cases (quiet : Nat) (lint : Bool) (fs : FileSystem) (es : List Event)
    (id : BufferId) (o : OpenBuffer)
    (ho : ((start quiet lint fs).run es).session.get? id = some o) :
    ((start quiet lint fs).WentBlank id es → o.layers.annotations = []) ∧
      (¬ (start quiet lint fs).WentBlank id es → o.FreshlyPainted) := by
  induction es using List.reverseRecOn generalizing o with
  | nil => cases ho
  | append_singleton es e ih =>
    have hw := run_wellFormed (start_wellFormed quiet lint fs) es
    have hstep := ho
    rw [run_append] at hstep
    rcases touched_of_step hw hstep with ⟨o₁, ho₁, ht⟩ | ⟨-, -, b, now, -, rfl⟩
    · by_cases hr : ((start quiet lint fs).run es).Replaces id e
      · -- the findings are new, so only the present text can be blank
        have hp := ht.freshlyPainted ho₁ hr
        refine ⟨fun hb => ?_, fun _ => hp⟩
        rcases (wentBlank_concat es e).mp hb with ⟨o₂, ho₂, hb⟩ | ⟨-, hn⟩
        · obtain rfl := Option.some.inj (ho.symm.trans ho₂)
          exact hp.trans hb
        · exact absurd hr hn
      · obtain ⟨hempty, hpaint⟩ := ht.annotations ho₁ hr
        by_cases hb₁ : (start quiet lint fs).WentBlank id es
        · have hb : (start quiet lint fs).WentBlank id (es ++ [e]) :=
            (wentBlank_concat es e).mpr (Or.inr ⟨hb₁, hr⟩)
          exact ⟨fun _ => hempty ((ih o₁ ho₁).1 hb₁), fun hn => absurd hb hn⟩
        · -- something was painted before, and it is painted again
          have hp₁ := (ih o₁ ho₁).2 hb₁
          have hne : o₁.layers.annotations ≠ [] := fun h₀ =>
            hb₁ (wentBlank_of_blank ho₁ (hp₁.symm.trans h₀))
          have hp := hpaint hne hp₁
          refine ⟨fun hb => ?_, fun _ => hp⟩
          rcases (wentBlank_concat es e).mp hb with ⟨o₂, ho₂, hb⟩ | ⟨hb, -⟩
          · obtain rfl := Option.some.inj (ho.symm.trans ho₂)
            exact hp.trans hb
          · exact absurd hb hb₁
    · -- a new buffer has no findings and nothing painted
      exact ⟨fun _ => rfl, fun _ => (paintInWords_nil _).symm⟩

/-- **When the layer shows the findings.** After every run, in whatever build, and for every open buffer
the layer is what painting the stored findings over the present text gives if, and only if, that is
nothing or no text since the buffer got these findings showed none of them; failing that, the layer is
empty. Where it is so, each finding that is drawn, starts in the text and does not end before its start
is painted, if the sum for its end is a word. -/
theorem annotations_eq_paint_iff (build : Arithmetic) (quiet : Nat) (lint : Bool) (fs : FileSystem)
    (es : List Event) (w : Workbench) (hw : (start quiet lint fs).run? build es = some w)
    (id : BufferId) (o : OpenBuffer) (ho : w.session.get? id = some o) :
    (o.layers.annotations = paintInWords o.buffer.text o.diagnostics ↔
      paintInWords o.buffer.text o.diagnostics = [] ∨ ¬ (start quiet lint fs).WentBlank id es) ∧
    (o.layers.annotations ≠ paintInWords o.buffer.text o.diagnostics → o.layers.annotations = []) ∧
    (o.layers.annotations = paintInWords o.buffer.text o.diagnostics →
      Text.IsStorable o.buffer.text → ∀ d ∈ o.diagnostics, d.EndFits o.buffer.text →
        d.isRendered = true → d.range.start ≤ d.range.resolvedEnd →
          ∀ a, (LineIndex.ofText o.buffer.text).offset? d.range.start = .ok a →
            ∃ x ∈ o.layers.annotations,
              x.style = d.style ∧ x.code = d.code ∧ x.message = d.message) := by
  obtain rfl := run?_eq_some hw
  obtain ⟨hblank, hfresh⟩ := annotations_cases quiet lint fs es id o ho
  refine ⟨⟨fun hp => ?_, ?_⟩, fun hn => ?_, fun hp htext d hd hfits hr hle a ha => ?_⟩
  · by_cases hb : (start quiet lint fs).WentBlank id es
    · exact Or.inl (hp.symm.trans (hblank hb))
    · exact Or.inr hb
  · rintro (hp | hb)
    · exact (hblank (wentBlank_of_blank ho hp)).trans hp.symm
    · exact hfresh hb
  · -- the layer is either empty or freshly painted
    by_contra hne
    exact hn (hfresh fun hb => hne (hblank hb))
  · rw [hp]
    refine exists_mem_paintInWords htext hd hfits hr ha fun e he => ?_
    rwa [Range.resolvedEnd, he] at hle

/-- A finding in the second line. -/
def unusedImport : Diagnostic where
  severity := .warning
  range := ⟨⟨2, 0⟩, some ⟨2, 9⟩⟩
  code := "W0611"
  message := "Unused import os"
  symbol := none

/-- A buffer is opened, and at 5000 its check comes back with a finding. -/
def checkedOnce : List Event :=
  [.openBuffer ⟨⟨"main.py"⟩, "x = 1\nimport os\n", 0⟩ 0, .poll 5000, .answer 0 [unusedImport],
    .deliver 0 5000]

/-- An edit that keeps the second line keeps the finding painted. -/
theorem annotations_eq_paint_iff_longer :
    ∃ w o, (start 5000 true {}).run? .checked
        (checkedOnce ++ [.edit 0 6000 (.setText "x = 12\nimport os\n")]) = some w ∧
      w.session.get? 0 = some o ∧ ∃ x ∈ o.layers.annotations, x.code = "W0611" := by
  have hall : ((start 5000 true {}).run? .checked
      (checkedOnce ++ [.edit 0 6000 (.setText "x = 12\nimport os\n")])).any
        (fun w => (w.session.get? 0).any
          fun o => o.layers.annotations = paintInWords o.buffer.text o.diagnostics ∧
            o.diagnostics = [unusedImport] ∧ o.buffer.text = "x = 12\nimport os\n") = true := by
    decide +kernel
  obtain ⟨w, hw, hall⟩ := (Option.any_eq_true _ _).mp hall
  obtain ⟨o, ho, hall⟩ := (Option.any_eq_true _ _).mp hall
  obtain ⟨hpaint, hds, htext⟩ := of_decide_eq_true hall
  obtain ⟨-, -, hfind⟩ := annotations_eq_paint_iff .checked _ _ _ _ w hw 0 o ho
  rw [htext] at hfind
  have hstart : (LineIndex.ofText "x = 12\nimport os\n").offset? unusedImport.range.start = .ok 7 := by
    decide +kernel
  have hfits : unusedImport.EndFits "x = 12\nimport os\n" := by
    refine endFits_of_le fun e he => ?_
    obtain rfl := Option.some.inj he
    decide
  obtain ⟨x, hx, -, hcode, -⟩ := hfind (htext ▸ hpaint) (by decide) unusedImport
    (hds ▸ List.mem_singleton.mpr rfl) hfits (by decide) (by decide) 7 hstart
  exact ⟨w, o, hw, ho, x, hx, hcode⟩

/-- A moment without the second line takes the finding away for good: the line comes back, and so
does a check with the same finding, but the layer stays empty. -/
theorem annotations_ne_paint : ¬ ∀ build quiet lint fs es w id o,
    (start quiet lint fs).run? build es = some w → w.session.get? id = some o →
      o.layers.annotations = paintInWords o.buffer.text o.diagnostics := by
  intro h
  have hne : ((start 5000 true {}).run? .checked (checkedOnce ++ [.edit 0 6000 (.setText "x = 1"),
      .edit 0 7000 (.setText "x = 1\nimport os\n"), .poll 12000, .answer 0 [unusedImport],
      .deliver 0 12000])).any (fun w => (w.session.get? 0).any
        fun o => o.layers.annotations ≠ paintInWords o.buffer.text o.diagnostics) = true := by
    decide +kernel
  obtain ⟨w, hw, hne⟩ := (Option.any_eq_true _ _).mp hne
  obtain ⟨o, ho, hne⟩ := (Option.any_eq_true _ _).mp hne
  exact of_decide_eq_true hne (h _ _ _ _ _ w 0 o hw ho)

end Workbench

end EditorInsight
