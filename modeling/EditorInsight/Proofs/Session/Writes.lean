import EditorInsight.Proofs.FileSystem
import EditorInsight.Proofs.Session.Workbench
import Mathlib.Data.List.Induction

/-!
# What a session writes

Three events write files: closing a buffer and polling flush buffers that are not read-only, and
saving writes a buffer in any case. Where nobody else changes the files and every write succeeds, the
files after a run are those before it with these writes done in their order, so what is read from a
file is the last text that was written to it.

* `Workbench.writes` lists the writes of one event, `Workbench.writesOf` those of a run, and
  `Workbench.Undisturbed` is the assumption on the run.
* `Workbench.readText_run`: what is read after a run.
* `Workbench.readText_close_iff`: closing a buffer leaves its text in its file if the buffer is not
  read-only, and writes nothing otherwise, be it edited or not. A buffer that was edited and then
  pointed at a stub file is such a buffer.
-/

namespace EditorInsight

/-- A text that a buffer writes to a file. -/
structure Write where
  buffer : BufferId
  path : Path
  text : String
deriving DecidableEq, Repr

namespace OpenBuffer

/-- The write of a buffer as it is. -/
def write (id : BufferId) (o : OpenBuffer) : Write := ⟨id, o.buffer.path, o.buffer.text⟩

@[simp] theorem write_path (id : BufferId) (o : OpenBuffer) :
    (o.write id).path = o.buffer.path := rfl

@[simp] theorem write_text (id : BufferId) (o : OpenBuffer) :
    (o.write id).text = o.buffer.text := rfl

/-- What flushing a buffer writes. -/
def flushed (id : BufferId) (o : OpenBuffer) : List Write :=
  if o.buffer.isReadOnly then [] else [o.write id]

end OpenBuffer

/-! ### Writes one after the other -/

namespace FileSystem

/-- The files after some writes, if none of them fails. -/
def writeAll (fs : FileSystem) (ws : List Write) : Except OsError FileSystem :=
  ws.foldlM (fun fs x => fs.writeText x.path x.text) fs

/-- The last one of some writes that goes where a path leads to. -/
def lastWrite? (fs : FileSystem) (p : Path) (ws : List Write) : Option Write :=
  (ws.filter fun x => fs.location? x.path = fs.location? p).getLast?

variable {fs fs' : FileSystem}

theorem writeAll_append (fs : FileSystem) (ws ws' : List Write) :
    fs.writeAll (ws ++ ws') = fs.writeAll ws >>= fun fs => fs.writeAll ws' :=
  List.foldlM_append

theorem writeAll_cons_eq_ok {x : Write} {ws : List Write} (h : fs.writeAll (x :: ws) = .ok fs') :
    ∃ fs₁, fs.writeText x.path x.text = .ok fs₁ ∧ fs₁.writeAll ws = .ok fs' := by
  rw [writeAll, List.foldlM_cons] at h
  exact bind_eq_ok h

theorem writeAll_append_eq_ok {ws ws' : List Write} (h : fs.writeAll (ws ++ ws') = .ok fs') :
    ∃ fs₁, fs.writeAll ws = .ok fs₁ ∧ fs₁.writeAll ws' = .ok fs' := by
  rw [writeAll_append] at h
  exact bind_eq_ok h

theorem hasCurrent_writeAll {ws : List Write} (hcur : fs.HasCurrent)
    (h : fs.writeAll ws = .ok fs') : fs'.HasCurrent := by
  induction ws generalizing fs with
  | nil => rwa [← Except.ok.inj h]
  | cons x ws ih =>
    obtain ⟨fs₁, hx, hws⟩ := writeAll_cons_eq_ok h
    exact ih (hasCurrent_writeText hcur hx) hws

theorem location?_writeAll {ws : List Write} (hcur : fs.HasCurrent)
    (h : fs.writeAll ws = .ok fs') (q : Path) : fs'.location? q = fs.location? q := by
  induction ws generalizing fs with
  | nil => rw [← Except.ok.inj h]
  | cons x ws ih =>
    obtain ⟨fs₁, hx, hws⟩ := writeAll_cons_eq_ok h
    rw [ih (hasCurrent_writeText hcur hx) hws, location?_writeText hcur hx]

/-- What is written leads somewhere. -/
theorem exists_location_of_writeAll {ws : List Write} (hcur : fs.HasCurrent)
    (h : fs.writeAll ws = .ok fs') {x : Write} (hx : x ∈ ws) : ∃ l, fs.location? x.path = some l := by
  induction ws generalizing fs with
  | nil => cases hx
  | cons y ws ih =>
    obtain ⟨fs₁, hy, hws⟩ := writeAll_cons_eq_ok h
    rcases List.mem_cons.mp hx with rfl | hx
    · obtain ⟨l, -, hl, -⟩ := writeText_eq_ok hcur hy
      exact ⟨l, hl⟩
    · rw [← location?_writeText hcur hy]
      exact ih (hasCurrent_writeText hcur hy) hws hx

/-- Writes succeed if their paths lead to files, or to places for them, before the first one. -/
theorem writeAll_isOk {ws : List Write} (hcur : fs.HasCurrent)
    (h : ∀ x ∈ ws, ∃ l, fs.location? x.path = some l) : ∃ fs', fs.writeAll ws = .ok fs' := by
  induction ws generalizing fs with
  | nil => exact ⟨fs, rfl⟩
  | cons x ws ih =>
    obtain ⟨l, hl⟩ := h x List.mem_cons_self
    obtain ⟨fs₁, hx⟩ := writeText_isOk hl x.text
    obtain ⟨fs', hws⟩ := ih (hasCurrent_writeText hcur hx) fun y hy => by
      rw [location?_writeText hcur hx]
      exact h y (List.mem_cons_of_mem x hy)
    refine ⟨fs', ?_⟩
    rw [writeAll, List.foldlM_cons, hx]
    exact hws

theorem mem_of_lastWrite? {p : Path} {ws : List Write} {x : Write}
    (h : fs.lastWrite? p ws = some x) : x ∈ ws ∧ fs.location? x.path = fs.location? p := by
  obtain ⟨hx, hloc⟩ := List.mem_filter.mp (List.mem_of_getLast? h)
  exact ⟨hx, of_decide_eq_true hloc⟩

theorem exists_lastWrite? {p : Path} {ws : List Write} {x : Write} (hx : x ∈ ws)
    (hloc : fs.location? x.path = fs.location? p) : ∃ y, fs.lastWrite? p ws = some y := by
  refine Option.ne_none_iff_exists'.mp fun hnone => ?_
  rw [lastWrite?, List.getLast?_eq_none_iff] at hnone
  exact List.ne_nil_of_mem (List.mem_filter.mpr ⟨hx, decide_eq_true hloc⟩) hnone

/-- **The last write counts.** -/
theorem readText_writeAll {ws : List Write} (hcur : fs.HasCurrent) (h : fs.writeAll ws = .ok fs')
    {q : Path} {l : List String} (hq : fs.location? q = some l) :
    fs'.readText q = (fs.lastWrite? q ws).elim (fs.readText q) fun x => .ok x.text := by
  -- from the end, since later writes hide earlier ones
  induction ws using List.reverseRecOn generalizing fs' with
  | nil =>
    rw [← Except.ok.inj h]
    rfl
  | append_singleton ws x ih =>
    obtain ⟨fs₁, hws, hlast⟩ := writeAll_append_eq_ok h
    obtain ⟨fs₂, hx, hnil⟩ := writeAll_cons_eq_ok hlast
    obtain rfl : fs₂ = fs' := Except.ok.inj hnil
    have hq₁ : fs₁.location? q = some l := (location?_writeAll hcur hws q).trans hq
    rw [readText_writeText (hasCurrent_writeAll hcur hws) hx hq₁, ih hws,
      location?_writeAll hcur hws, lastWrite?, lastWrite?, List.filter_append, hq]
    by_cases hloc : fs.location? x.path = some l
    · rw [if_pos hloc, List.filter_cons, if_pos (decide_eq_true hloc), List.filter_nil,
        List.getLast?_concat]
      rfl
    · rw [if_neg hloc, List.filter_cons, if_neg (by simpa using hloc), List.filter_nil,
        List.append_nil]

end FileSystem

/-! ### The writes of a run -/

/-- Whether an event is the doing of other programs. -/
def Event.IsForeign : Event → Prop
  | .disk _ => True
  | _ => False

/-- Flushing a buffer does what it writes. -/
theorem OpenBuffer.flush_eq {id : BufferId} {o : OpenBuffer} {fs fs' : FileSystem}
    (h : fs.writeAll (o.flushed id) = .ok fs') : o.flush fs = fs' := by
  unfold flushed at h
  unfold flush
  by_cases hro : o.buffer.isReadOnly = true
  · rw [if_pos hro] at h ⊢
    exact Except.ok.inj h
  · rw [if_neg hro] at h ⊢
    obtain ⟨fs₁, hsave, hnil⟩ := FileSystem.writeAll_cons_eq_ok h
    replace hsave : o.buffer.save fs = .ok fs₁ := hsave
    rw [hsave]
    exact Except.ok.inj hnil

/-- Polling does what the buffers that want a check write. -/
theorem Session.pollBuffers_files {now : Nat} {bs : List (BufferId × OpenBuffer)}
    {fs fs' : FileSystem}
    (h : fs.writeAll ((bs.filter fun p => p.2.wantsCheck now).flatMap fun p => p.2.flushed p.1)
      = .ok fs') : (pollBuffers now fs bs).2.1 = fs' := by
  induction bs generalizing fs with
  | nil => exact Except.ok.inj h
  | cons p bs ih =>
    rw [pollBuffers]
    by_cases hw : p.2.wantsCheck now = true
    · rw [List.filter_cons, if_pos hw, List.flatMap_cons] at h
      -- this buffer is written first, and the others over what it leaves
      obtain ⟨fs₁, hp, hbs⟩ := FileSystem.writeAll_append_eq_ok h
      rw [if_pos hw]
      change (pollBuffers now (p.2.flush fs) bs).2.1 = fs'
      rw [OpenBuffer.flush_eq hp]
      exact ih hbs
    · rw [List.filter_cons, if_neg hw] at h
      rw [if_neg hw]
      exact ih h

namespace Workbench

/-- What an event writes. -/
def writes (w : Workbench) : Event → List Write
  | .close id => (w.session.get? id).toList.flatMap (·.flushed id)
  | .save id => (w.session.get? id).toList.map (·.write id)
  | .poll now =>
    if w.session.lintEnabled then
      (w.session.buffers.filter fun p => p.2.wantsCheck now).flatMap fun p => p.2.flushed p.1
    else []
  | _ => []

/-- What a run writes, in order. -/
def writesOf (w : Workbench) : List Event → List Write
  | [] => []
  | e :: es => w.writes e ++ (w.step e).writesOf es

/-- Whether nobody else changes the files during a run, and every write of the session succeeds. -/
def Undisturbed (w : Workbench) : List Event → Prop
  | [] => True
  | e :: es => ¬ e.IsForeign ∧ (∃ fs, w.fs.writeAll (w.writes e) = .ok fs) ∧
    (w.step e).Undisturbed es

theorem fs_adopt (w : Workbench) (r : Except SessionError Session) : (w.adopt r).fs = w.fs := by
  cases r <;> rfl

theorem step_close_files {w : Workbench} {id : BufferId} {fs : FileSystem}
    (h : w.fs.writeAll (w.writes (.close id)) = .ok fs) : (w.step (.close id)).fs = fs := by
  rw [writes] at h
  rw [step]
  cases ho : w.session.get? id with
  | none =>
    -- nothing is closed
    rw [ho] at h
    have hclose : w.session.close w.fs id = .error (.unknownBuffer id) := by
      rw [Session.close, Session.get, ho]
      rfl
    rw [hclose]
    exact Except.ok.inj h
  | some o =>
    rw [ho, Option.toList_some, List.flatMap_singleton] at h
    cases hr : w.session.close w.fs id with
    | error e => exact absurd hr (Session.close_ne_error ho)
    | ok r =>
      obtain ⟨o', ho', rfl⟩ := Session.close_eq_ok hr
      obtain rfl := Option.some.inj (ho.symm.trans ho')
      exact OpenBuffer.flush_eq h

theorem step_save_files {w : Workbench} {id : BufferId} {fs : FileSystem}
    (h : w.fs.writeAll (w.writes (.save id)) = .ok fs) : (w.step (.save id)).fs = fs := by
  rw [writes] at h
  rw [step]
  cases ho : w.session.get? id with
  | none =>
    -- nothing is saved
    rw [ho] at h
    have hsave : w.session.save w.fs id = .error (.unknownBuffer id) := by
      rw [Session.save, Session.get, ho]
      rfl
    rw [hsave]
    exact Except.ok.inj h
  | some o =>
    rw [ho, Option.toList_some, List.map_singleton] at h
    obtain ⟨fs₁, hx, hnil⟩ := FileSystem.writeAll_cons_eq_ok h
    replace hx : o.buffer.save w.fs = .ok fs₁ := hx
    have hsave : w.session.save w.fs id = .ok fs₁ := by
      refine (Session.get_bind ho _).trans ?_
      rw [hx]
      rfl
    rw [hsave]
    exact Except.ok.inj hnil

/-- After an event the files are those before it with its writes. -/
theorem step_files {w : Workbench} {e : Event} (he : ¬ e.IsForeign) {fs : FileSystem}
    (h : w.fs.writeAll (w.writes e) = .ok fs) : (w.step e).fs = fs := by
  cases e with
  | close id => exact step_close_files h
  | save id => exact step_save_files h
  | poll now =>
    rw [writes] at h
    change (w.session.poll w.fs now).2.1 = fs
    unfold Session.poll
    by_cases hl : w.session.lintEnabled = true
    · rw [if_pos hl] at h ⊢
      exact Session.pollBuffers_files h
    · rw [if_neg hl] at h ⊢
      exact Except.ok.inj h
  | disk fs => exact absurd trivial he
  | deliver i now =>
    rw [step]
    split <;> exact Except.ok.inj h
  | openBuffer b now => exact Except.ok.inj h
  | submit i => exact Except.ok.inj h
  | finish i e => exact Except.ok.inj h
  | answer i ds => exact Except.ok.inj h
  -- the other operations leave the files alone, whether or not they fail
  | _ => exact (fs_adopt _ _).trans (Except.ok.inj h)

theorem run_files {w : Workbench} {es : List Event} (h : w.Undisturbed es) :
    w.fs.writeAll (w.writesOf es) = .ok (w.run es).fs := by
  induction es generalizing w with
  | nil => rfl
  | cons e es ih =>
    obtain ⟨he, ⟨fs, hfs⟩, hes⟩ := h
    rw [writesOf, FileSystem.writeAll_append, hfs, run_cons, ← ih hes, step_files he hfs]
    rfl

/-- **What is read after a run** from a path that leads to a file is the last text that the run wrote
there, or, if it wrote none, what was read before. -/
theorem readText_run {w : Workbench} {es : List Event} (hcur : w.fs.HasCurrent)
    (h : w.Undisturbed es) {q : Path} {l : List String} (hq : w.fs.location? q = some l) :
    (w.run es).fs.readText q
      = (w.fs.lastWrite? q (w.writesOf es)).elim (w.fs.readText q) fun x => .ok x.text :=
  FileSystem.readText_writeAll hcur (run_files h) hq

/-- What an event writes is an open buffer as it is before the event. -/
theorem exists_of_mem_writes {w : Workbench} (hs : w.session.WellFormed) {e : Event} {x : Write}
    (hx : x ∈ w.writes e) : ∃ o, w.session.get? x.buffer = some o ∧ x = o.write x.buffer := by
  -- flushing a buffer writes that buffer, if anything
  have hflushed : ∀ {id : BufferId} {o : OpenBuffer}, x ∈ o.flushed id → x = o.write id := by
    intro id o hx
    rw [OpenBuffer.flushed] at hx
    split at hx
    · cases hx
    · exact List.mem_singleton.mp hx
  cases e with
  | close id =>
    obtain ⟨o, ho, hx⟩ := List.mem_flatMap.mp hx
    obtain rfl := hflushed hx
    exact ⟨o, Option.mem_toList.mp ho, rfl⟩
  | save id =>
    obtain ⟨o, ho, rfl⟩ := List.mem_map.mp hx
    exact ⟨o, Option.mem_toList.mp ho, rfl⟩
  | poll now =>
    rw [writes] at hx
    split at hx
    · obtain ⟨p, hp, hx⟩ := List.mem_flatMap.mp hx
      obtain rfl := hflushed hx
      exact ⟨p.2, (hs.mem_buffers_iff p.1 p.2).mp (List.mem_filter.mp hp).1, rfl⟩
    · cases hx
  | _ => cases hx

/-- What a run writes is an open buffer as it is at some moment of the run. -/
theorem exists_of_mem_writesOf {w : Workbench} (hs : w.session.WellFormed) {es : List Event}
    {x : Write} (hx : x ∈ w.writesOf es) :
    ∃ before after o, es = before ++ after ∧
      (w.run before).session.get? x.buffer = some o ∧ x = o.write x.buffer := by
  induction es generalizing w with
  | nil => cases hx
  | cons e es ih =>
    rcases List.mem_append.mp hx with hx | hx
    · obtain ⟨o, ho, hx⟩ := exists_of_mem_writes hs hx
      exact ⟨[], e :: es, o, rfl, ho, hx⟩
    · obtain ⟨before, after, o, rfl, ho, hx⟩ := ih (step_wellFormed hs e) hx
      exact ⟨e :: before, after, o, rfl, ho, hx⟩

/-- A run whose writes all lead somewhere is not disturbed by them. -/
theorem undisturbed_of_locations {w : Workbench} {es : List Event} (hcur : w.fs.HasCurrent)
    (hown : ∀ e ∈ es, ¬ e.IsForeign)
    (hloc : ∀ x ∈ w.writesOf es, ∃ l, w.fs.location? x.path = some l) : w.Undisturbed es := by
  induction es generalizing w with
  | nil => trivial
  | cons e es ih =>
    have he : ¬ e.IsForeign := hown e List.mem_cons_self
    obtain ⟨fs, hfs⟩ := FileSystem.writeAll_isOk hcur fun x hx =>
      hloc x (List.mem_append_left _ hx)
    have hstep : (w.step e).fs = fs := step_files he hfs
    refine ⟨he, ⟨fs, hfs⟩, ih ?_ (fun e' he' => hown e' (List.mem_cons_of_mem _ he')) ?_⟩
    · rw [hstep]
      exact FileSystem.hasCurrent_writeAll hcur hfs
    · -- the writes so far have moved no path
      intro x hx
      rw [hstep, FileSystem.location?_writeAll hcur hfs]
      exact hloc x (List.mem_append_right _ hx)

/-! ### Closing -/

/-- **What closing leaves in the file.** If the current directory is there and the buffer can be written,
its file holds its text after it was closed if, and only if, the buffer is not read-only or the file
held the text before: the path that the buffer has as it is closed decides, whatever edits and paths it
had earlier. -/
theorem readText_close_iff {w : Workbench} {id : BufferId} {o : OpenBuffer}
    (ho : w.session.get? id = some o) (hcur : w.fs.HasCurrent)
    (hsave : ∃ fs, o.buffer.save w.fs = .ok fs) :
    (w.step (.close id)).fs.readText o.buffer.path = .ok o.buffer.text ↔
      o.buffer.isReadOnly = false ∨ w.fs.readText o.buffer.path = .ok o.buffer.text := by
  obtain ⟨fs, hsave⟩ := hsave
  have hwrites : w.writes (.close id) = o.flushed id := by
    rw [writes, ho, Option.toList_some, List.flatMap_singleton]
  have hforeign : ¬ Event.IsForeign (.close id) := fun h => h
  cases hro : o.buffer.isReadOnly with
  | true =>
    -- nothing is written
    have hfiles : (w.step (.close id)).fs = w.fs := by
      refine step_files hforeign ?_
      rw [hwrites, OpenBuffer.flushed, if_pos hro]
      rfl
    rw [hfiles, or_iff_right Bool.noConfusion]
  | false =>
    have hfiles : (w.step (.close id)).fs = fs := by
      refine step_files hforeign ?_
      rw [hwrites, OpenBuffer.flushed, if_neg (Bool.eq_false_iff.mp hro), FileSystem.writeAll,
        List.foldlM_cons]
      change (o.buffer.save w.fs >>= fun fs => List.foldlM _ fs []) = _
      rw [hsave]
      rfl
    obtain ⟨l, -, hl, -⟩ := FileSystem.writeText_eq_ok hcur hsave
    rw [hfiles, FileSystem.readText_writeText hcur hsave hl, if_pos hl]
    exact iff_of_true rfl (Or.inl rfl)

/-- A buffer that is edited and then pointed at another file. -/
def editedThenRenamed (path : Path) : Workbench :=
  (start 5 true {}).run [.openBuffer ⟨⟨"a.py"⟩, "x\n", 0⟩ 0, .edit 0 1 (.setText "y\n"),
    .rename 0 path 2]

/-- The new text is in the new file. -/
theorem readText_close_iff_renamed :
    ((editedThenRenamed ⟨"b.py"⟩).step (.close 0)).fs.readText ⟨"b.py"⟩ = .ok "y\n" := by
  have hopen : ((editedThenRenamed ⟨"b.py"⟩).session.get? 0).any
      (·.buffer = ⟨⟨"b.py"⟩, "y\n", 1⟩) = true := by
    decide +kernel
  obtain ⟨o, ho, hbuf⟩ := (Option.any_eq_true _ _).mp hopen
  replace hbuf : o.buffer = ⟨⟨"b.py"⟩, "y\n", 1⟩ := of_decide_eq_true hbuf
  have hplace : FileSystem.location? {} ⟨"b.py"⟩ = some ["b.py"] :=
    FileSystem.location?_of_isPlainName (by decide +kernel) rfl
  have hsave : ∃ fs, Buffer.save {} ⟨⟨"b.py"⟩, "y\n", 1⟩ = .ok fs :=
    FileSystem.writeText_isOk hplace "y\n"
  have hclose := readText_close_iff ho (FileSystem.isDirectoryAt_nil _) (hbuf ▸ hsave)
  rw [hbuf] at hclose
  have hwritable : Buffer.isReadOnly ⟨⟨"b.py"⟩, "y\n", 1⟩ = false := by decide +kernel
  exact hclose.mpr (Or.inl hwritable)

/-- A stub file is not written, so what was edited before the buffer was pointed at it is lost. -/
theorem readText_close_fails : ¬ ∀ (w w₁ w₂ : Workbench) (id now : Nat) (change : Change)
    (more : List Event) (o₀ o₁ o₂ : OpenBuffer),
    w.Reachable → w₁ = w.step (.edit id now change) → w₂ = w₁.run more →
    w.session.get? id = some o₀ → w₁.session.get? id = some o₁ → w₂.session.get? id = some o₂ →
    o₁.buffer.text ≠ o₀.buffer.text →
    w₂.fs.HasCurrent → (∃ fs, o₂.buffer.save w₂.fs = .ok fs) →
    (w₂.step (.close id)).fs.readText o₂.buffer.path = .ok o₂.buffer.text := by
  intro h
  have hopen : (((start 5 true {}).run [.openBuffer ⟨⟨"a.py"⟩, "x\n", 0⟩ 0]).session.get? 0).any
      (·.buffer.text = "x\n") = true := by
    decide +kernel
  have hedited : (((start 5 true {}).run [.openBuffer ⟨⟨"a.py"⟩, "x\n", 0⟩ 0,
      .edit 0 1 (.setText "y\n")]).session.get? 0).any (·.buffer.text = "y\n") = true := by
    decide +kernel
  have hrenamed : ((editedThenRenamed ⟨"a.pyi"⟩).session.get? 0).any
      (·.buffer = ⟨⟨"a.pyi"⟩, "y\n", 1⟩) = true := by
    decide +kernel
  obtain ⟨o₀, ho₀, htext₀⟩ := (Option.any_eq_true _ _).mp hopen
  obtain ⟨o₁, ho₁, htext₁⟩ := (Option.any_eq_true _ _).mp hedited
  obtain ⟨o₂, ho₂, hbuf⟩ := (Option.any_eq_true _ _).mp hrenamed
  replace htext₀ : o₀.buffer.text = "x\n" := of_decide_eq_true htext₀
  replace htext₁ : o₁.buffer.text = "y\n" := of_decide_eq_true htext₁
  replace hbuf : o₂.buffer = ⟨⟨"a.pyi"⟩, "y\n", 1⟩ := of_decide_eq_true hbuf
  have hplace : FileSystem.location? {} ⟨"a.pyi"⟩ = some ["a.pyi"] :=
    FileSystem.location?_of_isPlainName (by decide +kernel) rfl
  have hsave : ∃ fs, Buffer.save {} ⟨⟨"a.pyi"⟩, "y\n", 1⟩ = .ok fs :=
    FileSystem.writeText_isOk hplace "y\n"
  have hclosed := h _ _ (editedThenRenamed ⟨"a.pyi"⟩) 0 1 (.setText "y\n")
    [.rename 0 ⟨"a.pyi"⟩ 2] o₀ o₁ o₂ ⟨5, true, {}, _, rfl⟩ rfl rfl ho₀ ho₁ ho₂
    (by rw [htext₀, htext₁]; decide) (FileSystem.isDirectoryAt_nil _) (hbuf ▸ hsave)
  -- the file is not even there
  have hmissing : FileSystem.readText {} ⟨"a.pyi"⟩ = .error .notFound :=
    FileSystem.readText_eq (FileSystem.isDirectoryAt_nil {}) hplace
  have hfiles : ((editedThenRenamed ⟨"a.pyi"⟩).step (.close 0)).fs = {} := by
    have hforeign : ¬ Event.IsForeign (.close 0) := fun h => h
    refine step_files hforeign ?_
    rw [writes, ho₂, Option.toList_some, List.flatMap_singleton, OpenBuffer.flushed, hbuf,
      if_pos (by decide +kernel)]
    rfl
  rw [hfiles, hbuf, hmissing] at hclosed
  cases hclosed

end Workbench

end EditorInsight
