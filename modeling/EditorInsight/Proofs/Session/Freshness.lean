import EditorInsight.Proofs.Session.Staleness
import EditorInsight.Proofs.Session.Writes

/-!
# What a check has read

A check that is done elsewhere reads the file of its request at some moment after the poll that
issued it, and it is judged by path and generation when it comes back. Until it has read the file,
buffers may be edited, saved, closed and pointed at other files, and any of these may write the file
that is going to be read. The generation of the buffer does not tell: pointing a buffer at another
file leaves it as it is, and so does pointing it back.

* `Workbench.text_eq_of_mem_writesOf`: the buffer itself writes only the text that the check was
  issued for, as long as the check would count.
* `Workbench.readText_eq_text_iff`: what was read is the text of the buffer unless another buffer
  wrote another text last. No other buffer does so as long as none leads to that file.
* `Workbench.readText_ne_text` is the history in which one does: the buffer makes room for another
  one and comes back.
-/

namespace EditorInsight

/-- Whether a path has an extension, and which, is a matter of its components. -/
theorem Buffer.isReadOnly_of_same {b b' : Buffer} (h : b.path.same b'.path = true) :
    b.isReadOnly = b'.isReadOnly := by
  have hcomponents : b.path.components = b'.path.components := beq_iff_eq.mp h
  rw [isReadOnly, isReadOnly, Path.extension?, Path.extension?, Path.fileName?, Path.fileName?,
    hcomponents]

namespace Workbench

/-! ### Every moment of a run -/

/-- Whether something holds at the start of a run, between its events and at its end. -/
def Throughout (P : Workbench → Prop) (w : Workbench) : List Event → Prop
  | [] => P w
  | e :: es => P w ∧ (w.step e).Throughout P es

instance Throughout.decidable (P : Workbench → Prop) [DecidablePred P] (w : Workbench) :
    ∀ es, Decidable (w.Throughout P es)
  | [] => inferInstanceAs (Decidable (P w))
  | e :: es =>
    have := Throughout.decidable P (w.step e) es
    inferInstanceAs (Decidable (P w ∧ (w.step e).Throughout P es))

theorem Throughout.at_run {P : Workbench → Prop} {w : Workbench} {before after : List Event}
    (h : w.Throughout P (before ++ after)) : P (w.run before) := by
  induction before generalizing w with
  | nil =>
    cases after with
    | nil => exact h
    | cons e after => exact h.1
  | cons e before ih => exact ih h.2

/-- Whether no two open buffers have the same path. -/
def DifferentPaths (w : Workbench) : Prop :=
  w.session.buffers.Pairwise fun p q => p.2.buffer.path.same q.2.buffer.path = false

instance : DecidablePred DifferentPaths := fun w =>
  inferInstanceAs (Decidable (w.session.buffers.Pairwise _))

/-- Whether no open buffer but one leads to the file that a path leads to. -/
def KeepsOff (fs : FileSystem) (p : Path) (id : BufferId) (w : Workbench) : Prop :=
  ∀ k o, w.session.get? k = some o → fs.location? o.buffer.path = fs.location? p → k = id

/-! ### Between a poll and the end of a check -/

/-- A poll that issues a check of a buffer writes the buffer, unless it is read-only. -/
theorem write_mem_writes_poll {w : Workbench} (hs : w.session.WellFormed) {now : Nat}
    {id : BufferId} {o : OpenBuffer} (ho : w.session.get? id = some o)
    (hlint : w.session.lintEnabled = true) (hdue : o.wantsCheck now = true)
    (hwritable : o.buffer.isReadOnly = false) : o.write id ∈ w.writes (.poll now) := by
  rw [writes, if_pos hlint]
  refine List.mem_flatMap.mpr ⟨(id, o), ?_, ?_⟩
  · exact List.mem_filter.mpr ⟨(hs.mem_buffers_iff id o).mpr ho, hdue⟩
  · rw [OpenBuffer.flushed, if_neg (Bool.eq_false_iff.mp hwritable)]
    exact List.mem_singleton.mpr rfl

/-- Between two moments with one generation a buffer writes the text that it has at both. -/
theorem text_eq_of_mem_writesOf {w : Workbench} (hs : w.session.WellFormed) {id : BufferId}
    {o o' : OpenBuffer} (ho : w.session.get? id = some o) {es es' : List Event}
    (ho' : ((w.run es).run es').session.get? id = some o')
    (hgen : o'.buffer.generation = o.buffer.generation) {x : Write} (hx : x ∈ w.writesOf es)
    (hid : x.buffer = id) : x.text = o'.buffer.text := by
  obtain ⟨before, after, o₁, rfl, ho₁, hx⟩ := exists_of_mem_writesOf hs hx
  rw [hid] at ho₁ hx
  rw [run_append, ← run_append] at ho'
  -- the generation at the write is between those at the two moments, which are the same
  have hfirst : o.buffer.Follows o₁.buffer := run_follows hs ho before ho₁
  have hthen : o₁.buffer.Follows o'.buffer :=
    run_follows (run_wellFormed hs before) ho₁ (after ++ es') ho'
  have hsame : o'.buffer.generation = o₁.buffer.generation :=
    Nat.le_antisymm (hgen ▸ hfirst.generation_le) hthen.generation_le
  rw [hx, OpenBuffer.write_text]
  exact (hthen.text_eq hsame).symm

/-- **What a check has read.** Let a poll issue a check and let anything happen but that other
programs change files or that a write fails; then the file of the request is read, and then let
anything happen. If the check would count then, and its buffer may be written, what was read is the
text of the buffer if, and only if, the last write to that file was not one of another buffer with
another text. In particular it is if no other open buffer led to that file until it was read. -/
theorem readText_eq_text_iff {w w₁ w₂ : Workbench} (hw : w.Reachable) (hcur : w.fs.HasCurrent)
    {now : Nat} {r : CheckRequest} (hr : r ∈ (w.session.poll w.fs now).2.2) {es es' : List Event}
    (hw₁ : w₁ = w.run (.poll now :: es)) (hfiles : w.Undisturbed (.poll now :: es))
    (hw₂ : w₂ = w₁.run es') {o : OpenBuffer} (ho : w₂.session.get? r.buffer = some o)
    (hwritable : o.buffer.isReadOnly = false) (ha : o.accepts r = true) :
    (w₁.fs.readText r.path = .ok o.buffer.text ↔
      ∀ x, w.fs.lastWrite? r.path (w.writesOf (.poll now :: es)) = some x →
        x.buffer ≠ r.buffer → x.text = o.buffer.text) ∧
    (w.Throughout (KeepsOff w.fs r.path r.buffer) (.poll now :: es) →
      w₁.fs.readText r.path = .ok o.buffer.text) := by
  have hs : w.session.WellFormed := hw.wellFormed
  obtain ⟨hlint, o₀, ho₀, hdue, hreq⟩ := hs.mem_poll_requests.mp hr
  have hpath : r.path = o₀.buffer.path := by rw [hreq]; rfl
  have hgen : r.generation = o₀.buffer.generation := by rw [hreq]; rfl
  obtain ⟨hsame, hgen'⟩ := Bool.and_eq_true_iff.mp ha
  replace hgen' : o.buffer.generation = o₀.buffer.generation := (beq_iff_eq.mp hgen').trans hgen
  -- the buffer could be written when its check was issued as well, so the poll wrote it
  have hro : o₀.buffer.isReadOnly = false :=
    (Buffer.isReadOnly_of_same (hpath ▸ hsame)).symm.trans hwritable
  have hpoll : o₀.write r.buffer ∈ w.writesOf (.poll now :: es) :=
    List.mem_append_left _ (write_mem_writes_poll hs ho₀ hlint hdue hro)
  obtain ⟨l, hl⟩ := FileSystem.exists_location_of_writeAll hcur (run_files hfiles) hpoll
  rw [OpenBuffer.write_path, ← hpath] at hl
  -- hence there is a last write, and that is what was read
  obtain ⟨x, hx⟩ : ∃ x, w.fs.lastWrite? r.path (w.writesOf (.poll now :: es)) = some x := by
    refine FileSystem.exists_lastWrite? hpoll ?_
    rw [OpenBuffer.write_path, hpath]
  have hread : w₁.fs.readText r.path = .ok x.text := by
    rw [hw₁, readText_run hcur hfiles hl, hx]
    rfl
  obtain ⟨hxmem, hxloc⟩ := FileSystem.mem_of_lastWrite? hx
  have ho' : ((w.run (.poll now :: es)).run es').session.get? r.buffer = some o := by
    rw [← hw₁, ← hw₂]
    exact ho
  have hown : x.buffer = r.buffer → x.text = o.buffer.text :=
    text_eq_of_mem_writesOf hs ho₀ ho' hgen' hxmem
  refine ⟨?_, fun hoff => ?_⟩
  · rw [hread, hx]
    constructor
    · intro htext y hy _
      rw [← Option.some.inj hy]
      exact Except.ok.inj htext
    · intro hother
      by_cases hid : x.buffer = r.buffer
      · rw [hown hid]
      · rw [hother x rfl hid]
  · -- who wrote last led to the file, so it was the buffer itself
    obtain ⟨before, after, o₁, hsplit, ho₁, hx₁⟩ := exists_of_mem_writesOf hs hxmem
    rw [hsplit] at hoff
    have hloc : w.fs.location? o₁.buffer.path = w.fs.location? r.path := by
      rw [← hxloc, hx₁, OpenBuffer.write_path]
    rw [hread, hown (hoff.at_run x.buffer o₁ ho₁ hloc)]

/-- While a check of a buffer is under way and the buffer is away from its file, another buffer is
opened and closed. -/
def closedMeanwhile (path : Path) : List Event :=
  [.poll 5, .rename 0 ⟨"b.py"⟩ 6, .openBuffer ⟨path, "y\n", 0⟩ 7, .close 1]

theorem requests_shortText :
    (shortText.session.poll shortText.fs 5).2.2 = [⟨0, 0, ⟨"a.py"⟩⟩] := by
  decide +kernel

theorem accepts_of_unchanged {o : OpenBuffer} (h : o.buffer = ⟨⟨"a.py"⟩, "x\n", 0⟩) :
    o.buffer.isReadOnly = false ∧ o.accepts ⟨0, 0, ⟨"a.py"⟩⟩ = true := by
  rw [OpenBuffer.accepts, h]
  decide +kernel

theorem location?_a : FileSystem.location? {} ⟨"a.py"⟩ = some ["a.py"] :=
  FileSystem.location?_of_isPlainName (by decide +kernel) rfl

/-- If the other buffer has a file of its own, the check has read the text of the buffer. -/
theorem readText_eq_text_iff_elsewhere :
    (shortText.run (closedMeanwhile ⟨"c.py"⟩)).fs.readText ⟨"a.py"⟩ = .ok "x\n" := by
  have hw : shortText.Reachable := ⟨5, true, {}, _, rfl⟩
  have hr : ⟨0, 0, ⟨"a.py"⟩⟩ ∈ (shortText.session.poll shortText.fs 5).2.2 := by
    rw [requests_shortText]
    exact List.mem_singleton_self _
  have hwrites : shortText.writesOf (closedMeanwhile ⟨"c.py"⟩)
      = [⟨0, ⟨"a.py"⟩, "x\n"⟩, ⟨1, ⟨"c.py"⟩, "y\n"⟩] := by
    decide +kernel
  have hback : (((shortText.run (closedMeanwhile ⟨"c.py"⟩)).run
      [.rename 0 ⟨"a.py"⟩ 8]).session.get? 0).any (·.buffer = ⟨⟨"a.py"⟩, "x\n", 0⟩) = true := by
    decide +kernel
  obtain ⟨o, ho, hbuf⟩ := (Option.any_eq_true _ _).mp hback
  replace hbuf : o.buffer = ⟨⟨"a.py"⟩, "x\n", 0⟩ := of_decide_eq_true hbuf
  have hcur : shortText.fs.HasCurrent := FileSystem.isDirectoryAt_nil {}
  have ha : shortText.fs.location? ⟨"a.py"⟩ = some ["a.py"] := location?_a
  have hc : shortText.fs.location? ⟨"c.py"⟩ = some ["c.py"] :=
    FileSystem.location?_of_isPlainName (by decide +kernel) rfl
  have hfiles : shortText.Undisturbed (closedMeanwhile ⟨"c.py"⟩) := by
    refine undisturbed_of_locations hcur ?_ ?_
    · simp [closedMeanwhile, Event.IsForeign]
    · rw [hwrites]
      simp only [List.mem_cons, List.not_mem_nil, or_false, forall_eq_or_imp, forall_eq]
      exact ⟨⟨_, ha⟩, ⟨_, hc⟩⟩
  obtain ⟨hwritable, haccepts⟩ := accepts_of_unchanged hbuf
  obtain ⟨hiff, -⟩ := readText_eq_text_iff hw hcur hr rfl hfiles rfl ho hwritable haccepts
  rw [hbuf] at hiff
  refine hiff.mpr fun x hx hid => ?_
  -- the other buffer wrote another file
  obtain ⟨hmem, hloc⟩ := FileSystem.mem_of_lastWrite? hx
  have hmem' : x ∈ shortText.writesOf (closedMeanwhile ⟨"c.py"⟩) := hmem
  rw [hwrites, List.mem_cons, List.mem_singleton] at hmem'
  rcases hmem' with rfl | rfl
  · exact absurd rfl hid
  · rw [hc, ha] at hloc
    exact absurd hloc (by decide)

/-- If the other buffer has taken the path that the buffer comes back to, the check has read the text
of the other buffer, and counts. -/
theorem readText_ne_text : ¬ ∀ (w w₁ w₂ : Workbench) (quiet : Nat) (lint : Bool) (fs : FileSystem)
    (before es es' : List Event) (now : Nat) (r : CheckRequest) (o : OpenBuffer),
    w = (start quiet lint fs).run before → r ∈ (w.session.poll w.fs now).2.2 →
    w₁ = w.run (.poll now :: es) → w₂ = w₁.run es' →
    fs.HasCurrent → (start quiet lint fs).Undisturbed (before ++ .poll now :: es ++ es') →
    (start quiet lint fs).Throughout DifferentPaths (before ++ .poll now :: es ++ es') →
    w₂.session.get? r.buffer = some o → o.buffer.isReadOnly = false → o.accepts r = true →
    w₁.fs.readText r.path = .ok o.buffer.text := by
  intro h
  have hr : ⟨0, 0, ⟨"a.py"⟩⟩ ∈ (shortText.session.poll shortText.fs 5).2.2 := by
    rw [requests_shortText]
    exact List.mem_singleton_self _
  have hpaths : (start 5 true {}).Throughout DifferentPaths
      ([.openBuffer ⟨⟨"a.py"⟩, "x\n", 0⟩ 0] ++ closedMeanwhile ⟨"a.py"⟩ ++
        [.rename 0 ⟨"a.py"⟩ 8]) := by
    decide +kernel
  have hall : (start 5 true {}).writesOf
      ([.openBuffer ⟨⟨"a.py"⟩, "x\n", 0⟩ 0] ++ closedMeanwhile ⟨"a.py"⟩ ++
        [.rename 0 ⟨"a.py"⟩ 8]) = [⟨0, ⟨"a.py"⟩, "x\n"⟩, ⟨1, ⟨"a.py"⟩, "y\n"⟩] := by
    decide +kernel
  have hback : (((shortText.run (closedMeanwhile ⟨"a.py"⟩)).run
      [.rename 0 ⟨"a.py"⟩ 8]).session.get? 0).any (·.buffer = ⟨⟨"a.py"⟩, "x\n", 0⟩) = true := by
    decide +kernel
  obtain ⟨o, ho, hbuf⟩ := (Option.any_eq_true _ _).mp hback
  replace hbuf : o.buffer = ⟨⟨"a.py"⟩, "x\n", 0⟩ := of_decide_eq_true hbuf
  have hcur : FileSystem.HasCurrent {} := FileSystem.isDirectoryAt_nil {}
  have hfiles : (start 5 true {}).Undisturbed
      ([.openBuffer ⟨⟨"a.py"⟩, "x\n", 0⟩ 0] ++ closedMeanwhile ⟨"a.py"⟩ ++
        [.rename 0 ⟨"a.py"⟩ 8]) := by
    refine undisturbed_of_locations hcur ?_ ?_
    · simp [closedMeanwhile, Event.IsForeign]
    · rw [hall]
      simp only [List.mem_cons, List.not_mem_nil, or_false, forall_eq_or_imp, forall_eq]
      exact ⟨⟨_, location?_a⟩, ⟨_, location?_a⟩⟩
  -- the check counts, so the file ought to have had the text of the buffer
  obtain ⟨hwritable, haccepts⟩ := accepts_of_unchanged hbuf
  have htext := h shortText _ _ 5 true {} [.openBuffer ⟨⟨"a.py"⟩, "x\n", 0⟩ 0]
    (closedMeanwhile ⟨"a.py"⟩).tail [.rename 0 ⟨"a.py"⟩ 8] 5 ⟨0, 0, ⟨"a.py"⟩⟩ o rfl hr rfl rfl hcur
    hfiles hpaths ho hwritable haccepts
  -- the last event writes nothing, so what is there at the end was there when the file was read
  have hread : (shortText.run (closedMeanwhile ⟨"a.py"⟩)).fs.readText ⟨"a.py"⟩ = .ok "y\n" := by
    have hlast : FileSystem.lastWrite? {} ⟨"a.py"⟩
        [⟨0, ⟨"a.py"⟩, "x\n"⟩, ⟨1, ⟨"a.py"⟩, "y\n"⟩] = some ⟨1, ⟨"a.py"⟩, "y\n"⟩ := by
      rw [FileSystem.lastWrite?, List.filter_eq_self.mpr (by simp)]
      rfl
    refine (readText_run hcur hfiles location?_a).trans ?_
    rw [hall]
    exact congrArg (Option.elim · _ _) hlast
  rw [hbuf] at htext
  exact absurd (Except.ok.inj (hread.symm.trans htext)) (by decide)

end Workbench

end EditorInsight
