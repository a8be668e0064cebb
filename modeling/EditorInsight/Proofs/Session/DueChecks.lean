import EditorInsight.Proofs.Session.Deliveries
import EditorInsight.Proofs.Session.Freshness
import EditorInsight.Proofs.Session.Inline
import EditorInsight.Proofs.Session.Repainting

/-!
# What checks done at once have read

An editor that does the due checks itself writes all due buffers first and begins with the linter
afterwards. So what the linter finds in the file of a buffer may have been written by another buffer
that was due as well, if that one leads to the same file; and the file of a buffer that was not due may
have been written. Paths that are spelled differently may lead to one file, so it does not help that no
two buffers have the same path.

* `Consultation` is one use of the linter, and `recorded` is a linter that keeps a record of its uses.
  `Workbench.runChecks_recorded` says what is in the record and that keeping it changes nothing else.
* `Workbench.DifferentFiles` is what the buffers have to satisfy.
* `Workbench.due_checks_read_text`: then the linter has read the texts of the due buffers, its findings
  are recorded for these texts, and nothing else is written.
* `Workbench.due_checks_write_elsewhere` is what happens otherwise.
-/

namespace EditorInsight

/-- One use of the linter: the files as they were, the path that it was given and what it found. -/
structure Consultation where
  fs : FileSystem
  path : Path
  findings : List Diagnostic

/-- The use of the linter that a check was done with. -/
def CheckCompleted.consultation (fs : FileSystem) (c : CheckCompleted) : Consultation :=
  ⟨fs, c.request.path, c.diagnostics⟩

/-- A linter that works like another one, with a state of its own, and keeps a record of its uses. -/
def recorded {σ : Type} (check : FileSystem → Path → StateM σ (List Diagnostic)) (fs : FileSystem)
    (path : Path) : StateM (σ × List Consultation) (List Diagnostic) := fun (a, record) =>
  let (ds, a) := check fs path a
  (ds, (a, record ++ [⟨fs, path, ds⟩]))

namespace Workbench

/-- Whether no two open buffers lead to one file, however their paths are spelled. -/
def DifferentFiles (w : Workbench) : Prop :=
  ∀ id o k o', w.session.get? id = some o → w.session.get? k = some o' →
    ∀ l, w.fs.location? o.buffer.path = some l → w.fs.location? o'.buffer.path = some l → k = id

/-! ### The record -/

section Record

variable {σ : Type} (check : FileSystem → Path → StateM σ (List Diagnostic)) (fs : FileSystem)
  (now : Nat)

/-- **Keeping a record changes nothing else.** The linter is used once for each request, in their
order and with the same files, and its findings are delivered. -/
theorem runChecks_recorded (requests : List CheckRequest) (s : Session) (a : σ)
    (record : List Consultation) :
    ∃ done : List CheckCompleted, done.map (·.request) = requests ∧
      Session.runChecks (recorded check fs) now s requests (a, record)
        = ((Session.runChecks (check fs) now s requests a).1,
            (Session.runChecks (check fs) now s requests a).2,
            record ++ done.map (·.consultation fs)) ∧
      (Session.runChecks (check fs) now s requests a).1 = s.deliverAll now done := by
  induction requests generalizing s a record with
  | nil => exact ⟨[], rfl, by rw [List.map_nil, List.append_nil]; rfl, rfl⟩
  | cons r requests ih =>
    -- the rest begins where the first use leaves the session, the linter and the record
    have hfirst : recorded check fs r.path (a, record)
        = ((check fs r.path a).1, (check fs r.path a).2,
            record ++ [⟨fs, r.path, (check fs r.path a).1⟩]) := rfl
    obtain ⟨done, hrequests, hrecord, hdeliver⟩ :=
      ih (s.completeCheck (r.complete (check fs r.path a).1) now).1 (check fs r.path a).2
        (record ++ [⟨fs, r.path, (check fs r.path a).1⟩])
    refine ⟨r.complete (check fs r.path a).1 :: done, ?_, ?_, ?_⟩
    · rw [List.map_cons, hrequests]
      rfl
    · rw [Session.runChecks_cons, hfirst, Session.runChecks_cons]
      dsimp only
      rw [hrecord, List.append_assoc]
      rfl
    · rw [Session.runChecks_cons, Session.deliverAll_cons, ← hdeliver]

/-- The due checks are a poll, and then uses of the linter with the files that the poll leaves. -/
theorem runDueChecks_recorded (w : Workbench) (a : σ) :
    ∃ (done : List CheckCompleted) (a' : σ),
      done.map (·.request) = (w.session.poll w.fs now).2.2 ∧
      w.session.runDueChecks check w.fs now a
        = ((((w.step (.poll now)).session.deliverAll now done).1, (w.step (.poll now)).fs,
            ((w.step (.poll now)).session.deliverAll now done).2), a') ∧
      w.session.runDueChecks (recorded check) w.fs now (a, [])
        = ((((w.step (.poll now)).session.deliverAll now done).1, (w.step (.poll now)).fs,
            ((w.step (.poll now)).session.deliverAll now done).2),
          (a', done.map (·.consultation (w.step (.poll now)).fs))) := by
  -- stated for any state of a linter, since the recorded one has another
  have hparts : ∀ {τ : Type} (check : FileSystem → Path → StateM τ (List Diagnostic)) (b : τ),
      w.session.runDueChecks check w.fs now b
        = let rest := Session.runChecks (check (w.step (.poll now)).fs) now
            (w.step (.poll now)).session (w.session.poll w.fs now).2.2 b
          ((rest.1.1, (w.step (.poll now)).fs, rest.1.2), rest.2) := fun _ _ => rfl
  obtain ⟨done, hrequests, hrecord, hdeliver⟩ :=
    runChecks_recorded check (w.step (.poll now)).fs now (w.session.poll w.fs now).2.2
      (w.step (.poll now)).session a []
  refine ⟨done, (Session.runChecks (check (w.step (.poll now)).fs) now
    (w.step (.poll now)).session (w.session.poll w.fs now).2.2 a).2, hrequests, ?_, ?_⟩
  · rw [hparts]
    dsimp only
    rw [hdeliver]
  · rw [hparts]
    dsimp only
    rw [hrecord, hdeliver, List.nil_append]

end Record

/-! ### What a poll writes -/

section Poll

variable {w : Workbench} {now : Nat}

theorem wants_of_mem_writes_poll (hs : w.session.WellFormed) {x : Write}
    (hx : x ∈ w.writes (.poll now)) :
    ∃ o, w.session.get? x.buffer = some o ∧
      o.request x.buffer ∈ (w.session.poll w.fs now).2.2 := by
  rw [writes] at hx
  split at hx
  · next hlint =>
    obtain ⟨⟨id, o⟩, hmem, hx⟩ := List.mem_flatMap.mp hx
    obtain ⟨hmem, hdue⟩ := List.mem_filter.mp hmem
    have ho : w.session.get? id = some o := (hs.mem_buffers_iff id o).mp hmem
    -- a read-only buffer writes nothing
    rw [OpenBuffer.flushed] at hx
    split at hx
    · cases hx
    · obtain rfl := List.mem_singleton.mp hx
      exact ⟨o, ho, hs.mem_poll_requests.mpr ⟨hlint, o, ho, hdue, rfl⟩⟩
  · cases hx

/-- Who writes the file of a buffer is that buffer. -/
theorem DifferentFiles.writer_eq (hs : w.session.WellFormed) (hdifferent : w.DifferentFiles)
    {id : BufferId} {o : OpenBuffer} (ho : w.session.get? id = some o) {l : List String}
    (hl : w.fs.location? o.buffer.path = some l) {e : Event} {x : Write} (hx : x ∈ w.writes e)
    (hloc : w.fs.location? x.path = w.fs.location? o.buffer.path) :
    x.buffer = id ∧ x = o.write id := by
  obtain ⟨o₁, ho₁, hwrite⟩ := exists_of_mem_writes hs hx
  have hloc₁ : w.fs.location? o₁.buffer.path = some l := by
    rw [← OpenBuffer.write_path x.buffer, ← hwrite, hloc]
    exact hl
  have hid : x.buffer = id := hdifferent id o x.buffer o₁ ho ho₁ l hl hloc₁
  rw [hid] at ho₁ hwrite
  obtain rfl := Option.some.inj (ho.symm.trans ho₁)
  exact ⟨hid, hwrite⟩

variable (hs : w.session.WellFormed) (hcur : w.fs.HasCurrent) (hdifferent : w.DifferentFiles)
  (hsave : ∃ fs, w.fs.writeAll (w.writes (.poll now)) = .ok fs)
include hs hcur hdifferent hsave

/-- A buffer that is checked and may be written is in its file after the poll: no other buffer wrote
there. -/
theorem readText_poll_of_mem {id : BufferId} {o : OpenBuffer} (ho : w.session.get? id = some o)
    (hlint : w.session.lintEnabled = true) (hdue : o.wantsCheck now = true)
    (hwritable : o.buffer.isReadOnly = false) :
    (w.step (.poll now)).fs.readText o.buffer.path = .ok o.buffer.text := by
  obtain ⟨fs, hfs⟩ := hsave
  have hstep : (w.step (.poll now)).fs = fs := step_files (e := .poll now) (fun h => h) hfs
  have hown : o.write id ∈ w.writes (.poll now) :=
    write_mem_writes_poll hs ho hlint hdue hwritable
  obtain ⟨l, hl⟩ := FileSystem.exists_location_of_writeAll hcur hfs hown
  rw [OpenBuffer.write_path] at hl
  obtain ⟨x, hx⟩ : ∃ x, w.fs.lastWrite? o.buffer.path (w.writes (.poll now)) = some x :=
    FileSystem.exists_lastWrite? hown rfl
  obtain ⟨hmem, hloc⟩ := FileSystem.mem_of_lastWrite? hx
  -- nobody else leads to this file
  obtain ⟨-, hwrite⟩ := hdifferent.writer_eq hs ho hl hmem hloc
  rw [hstep, FileSystem.readText_writeAll hcur hfs hl, hx, hwrite]
  rfl

/-- The file of a buffer that is not checked is not written. -/
theorem readText_poll_of_not_mem {k : BufferId} {o : OpenBuffer} (ho : w.session.get? k = some o)
    (hn : o.request k ∉ (w.session.poll w.fs now).2.2) {l : List String}
    (hl : w.fs.location? o.buffer.path = some l) :
    (w.step (.poll now)).fs.readText o.buffer.path = w.fs.readText o.buffer.path := by
  obtain ⟨fs, hfs⟩ := hsave
  have hstep : (w.step (.poll now)).fs = fs := step_files (e := .poll now) (fun h => h) hfs
  have hnone : w.fs.lastWrite? o.buffer.path (w.writes (.poll now)) = none := by
    refine Option.eq_none_iff_forall_ne_some.mpr fun x hx => ?_
    obtain ⟨hmem, hloc⟩ := FileSystem.mem_of_lastWrite? hx
    -- the buffer that wrote there was checked, but it would be this one
    obtain ⟨hid, -⟩ := hdifferent.writer_eq hs ho hl hmem hloc
    obtain ⟨o₁, ho₁, hr⟩ := wants_of_mem_writes_poll hs hmem
    rw [hid] at ho₁ hr
    obtain rfl := Option.some.inj (ho.symm.trans ho₁)
    exact hn hr
  rw [hstep, FileSystem.readText_writeAll hcur hfs hl, hnone]
  rfl

end Poll

/-! ### Due checks -/

/-- A buffer that was checked is as the delivery of its check leaves it. -/
theorem get?_deliverAll_poll {w : Workbench} (hs : w.session.WellFormed) {now : Nat}
    {done : List CheckCompleted} (hrequests : done.map (·.request) = (w.session.poll w.fs now).2.2)
    {c : CheckCompleted} (hc : c ∈ done) :
    ∃ o, w.session.get? c.request.buffer = some o ∧ w.session.lintEnabled = true ∧
      o.wantsCheck now = true ∧ c.request = o.request c.request.buffer ∧
      ((w.step (.poll now)).session.deliverAll now done).1.get? c.request.buffer
        = some (o.issued.receive c now).1 := by
  have hmem : c.request ∈ (w.session.poll w.fs now).2.2 := by
    rw [← hrequests]
    exact List.mem_map_of_mem hc
  obtain ⟨hlint, o, ho, hdue, hreq⟩ := hs.mem_poll_requests.mp hmem
  -- a poll asks for one check of a buffer at most, so no other delivery gets in the way
  have hbuffers : (done.map (·.request.buffer)).Nodup := by
    have hnodup := hs.nodup_poll_requests w.fs now
    rw [← hrequests, List.map_map] at hnodup
    exact hnodup
  have hissued : (w.step (.poll now)).session.get? c.request.buffer = some o.issued := by
    refine (w.session.get?_poll w.fs now c.request.buffer).trans ?_
    rw [ho, Option.map_some, if_pos ⟨hlint, hdue⟩]
  refine ⟨o, ho, hlint, hdue, hreq, ?_⟩
  rw [Session.get?_deliverAll_of_mem hc hbuffers, hissued, Option.map_some]

/-- A session that has run its due checks is one that a session can get into. -/
theorem Possible.runDueChecks {w : Workbench} (hw : w.Possible) {σ : Type}
    {check : FileSystem → Path → StateM σ (List Diagnostic)} {now : Nat} {a a' : σ} {s' : Session}
    {fs' : FileSystem} {n : Nat}
    (hrun : w.session.runDueChecks check w.fs now a = ((s', fs', n), a')) :
    Possible ⟨s', fs', w.flights⟩ := by
  obtain ⟨answers, hevents⟩ := runDueChecks_eq_run check w now a
  rw [hrun] at hevents
  exact hevents ▸ hw.run _

/-- **Checks done at once have read the texts that they count for.** In any state that a session can
get into, let no two open buffers lead to one file, and let no write fail. Running the due checks with
any linter uses it once for every check that is due, in order. When it is used for a buffer that is not
read-only, the file at the path that it is given holds exactly the text of the buffer; and for every
buffer its findings are in the end those of the buffer and of its timer, with the text, the path and
the generation that the check was issued for. The file of a buffer that is not checked is not written,
and no buffer gets another text, path or generation. -/
theorem due_checks_read_text {σ : Type} (check : FileSystem → Path → StateM σ (List Diagnostic))
    (w : Workbench) (hw : w.Possible) (hcur : w.fs.HasCurrent) (hdifferent : w.DifferentFiles)
    (now : Nat) (hsave : ∃ fs, w.fs.writeAll (w.writes (.poll now)) = .ok fs) (a : σ) :
    ∃ (s' : Session) (fs' : FileSystem) (n : Nat) (a' : σ) (done : List CheckCompleted),
      w.session.runDueChecks check w.fs now a = ((s', fs', n), a') ∧
      w.session.runDueChecks (recorded check) w.fs now (a, [])
        = ((s', fs', n), (a', done.map (·.consultation fs'))) ∧
      done.map (·.request) = (w.session.poll w.fs now).2.2 ∧
      (∀ c ∈ done, ∃ o o', w.session.get? c.request.buffer = some o ∧
        c.request = o.request c.request.buffer ∧
        (o.buffer.isReadOnly = false → fs'.readText c.request.path = .ok o.buffer.text) ∧
        s'.get? c.request.buffer = some o' ∧ o'.buffer = o.buffer ∧
        o'.debouncer.lastFired = some c.diagnostics ∧ o'.diagnostics = c.diagnostics) ∧
      (∀ k o l, w.session.get? k = some o → (∀ c ∈ done, c.request.buffer ≠ k) →
        w.fs.location? o.buffer.path = some l →
          fs'.readText o.buffer.path = w.fs.readText o.buffer.path) ∧
      ∀ k, (s'.get? k).map (·.buffer) = (w.session.get? k).map (·.buffer) := by
  have hs := hw.wellFormed
  obtain ⟨done, a', hrequests, hplain, hrecord⟩ := runDueChecks_recorded check now w a
  refine ⟨_, _, _, a', done, hplain, hrecord, hrequests, ?_, ?_, ?_⟩
  · intro c hc
    obtain ⟨o, ho, hlint, hdue, hreq, ho'⟩ := get?_deliverAll_poll hs hrequests hc
    -- no text, path or generation changes between the request and its check, so none is discarded
    have hfired : (o.issued.receive c now).1.debouncer.lastFired = some c.diagnostics := by
      rw [OpenBuffer.receive_lastFired, hreq]
      exact if_pos (o.accepts_request _)
    have hdiagnostics := (hw.runDueChecks hplain).diagnostics_eq ho'
    rw [hfired] at hdiagnostics
    refine ⟨o, _, ho, hreq, ?_, ho', o.issued.receive_buffer c now, hfired, hdiagnostics⟩
    intro hwritable
    rw [hreq]
    exact readText_poll_of_mem hs hcur hdifferent hsave ho hlint hdue hwritable
  · intro k o l ho hnot hl
    refine readText_poll_of_not_mem hs hcur hdifferent hsave ho (fun hmem => ?_) hl
    rw [← hrequests] at hmem
    obtain ⟨c, hc, hreq⟩ := List.mem_map.mp hmem
    exact hnot c hc (congrArg CheckRequest.buffer hreq)
  · intro k
    rw [Session.buffer_deliverAll]
    exact w.session.buffer_poll w.fs now k

/-- A buffer is hidden by another one, which is due at 6. -/
def hiddenBy (path : Path) : Workbench :=
  (start 5 true {}).run [.openBuffer ⟨⟨"a.py"⟩, "x\n", 0⟩ 0, .openBuffer ⟨path, "y\n", 0⟩ 1]

theorem get?_hiddenBy {path : Path} {k : BufferId} {o : OpenBuffer}
    (ho : (hiddenBy path).session.get? k = some o) :
    (k = 0 ∧ o.buffer = ⟨⟨"a.py"⟩, "x\n", 0⟩) ∨ (k = 1 ∧ o.buffer = ⟨path, "y\n", 0⟩) := by
  have hs : (hiddenBy path).session.WellFormed :=
    run_wellFormed (start_wellFormed 5 true {}) _
  have hmem : (k, o) ∈ (hiddenBy path).session.buffers := (hs.mem_buffers_iff k o).mpr ho
  have hbuffers : (hiddenBy path).session.buffers.map (fun p => (p.1, p.2.buffer))
      = [(0, ⟨⟨"a.py"⟩, "x\n", 0⟩), (1, ⟨path, "y\n", 0⟩)] := rfl
  have hpair := List.mem_map_of_mem (f := fun p => (p.1, p.2.buffer)) hmem
  rw [hbuffers, List.mem_cons, List.mem_singleton] at hpair
  rcases hpair with heq | heq
  · exact Or.inl (Prod.mk.inj heq)
  · exact Or.inr (Prod.mk.inj heq)

theorem requests_hiddenBy (path : Path) :
    ((hiddenBy path).session.poll {} 6).2.2 = [⟨1, 0, path⟩] := by
  rw [Session.poll_requests]
  rfl

/-- The other buffer may have any file but that of the hidden one. -/
theorem differentFiles_hiddenBy {path : Path}
    (hne : FileSystem.location? {} path ≠ some ["a.py"]) : (hiddenBy path).DifferentFiles := by
  rw [← location?_a] at hne
  intro id o k o' ho ho' l hl hl'
  have hsame : FileSystem.location? {} o.buffer.path = FileSystem.location? {} o'.buffer.path :=
    hl.trans hl'.symm
  rcases get?_hiddenBy ho with ⟨rfl, hbuf⟩ | ⟨rfl, hbuf⟩
  · rcases get?_hiddenBy ho' with ⟨rfl, -⟩ | ⟨rfl, hbuf'⟩
    · rfl
    · rw [hbuf, hbuf'] at hsame
      exact absurd hsame.symm hne
  · rcases get?_hiddenBy ho' with ⟨rfl, hbuf'⟩ | ⟨rfl, -⟩
    · rw [hbuf, hbuf'] at hsame
      exact absurd hsame hne
    · rfl

theorem exists_writeAll_hiddenBy {path : Path} {l : List String}
    (hl : FileSystem.location? {} path = some l)
    (hwrites : (hiddenBy path).writes (.poll 6) = [⟨1, path, "y\n"⟩]) :
    ∃ fs, FileSystem.writeAll {} ((hiddenBy path).writes (.poll 6)) = .ok fs := by
  have hcur : FileSystem.HasCurrent {} := FileSystem.isDirectoryAt_nil {}
  refine FileSystem.writeAll_isOk hcur fun x hx => ?_
  rw [hwrites] at hx
  rw [List.mem_singleton.mp hx]
  exact ⟨l, hl⟩

/-- A linter that never finds anything. -/
def silent (_ : FileSystem) (_ : Path) : StateM Unit (List Diagnostic) := pure []

/-- The linter is used for the buffer that is due, and finds its text. The file of the hidden buffer
is not written. -/
theorem due_checks_read_text_hidden :
    ∃ r u, (hiddenBy ⟨"b.py"⟩).session.runDueChecks (recorded silent) {} 6 ((), [])
        = (r, ((), [u])) ∧
      u.path = ⟨"b.py"⟩ ∧ u.fs.readText ⟨"b.py"⟩ = .ok "y\n" ∧
      r.2.1.readText ⟨"a.py"⟩ = .error .notFound := by
  have hw : (hiddenBy ⟨"b.py"⟩).Possible := ⟨5, true, {}, [], _, rfl⟩
  have hcur : FileSystem.HasCurrent {} := FileSystem.isDirectoryAt_nil {}
  have hb : FileSystem.location? {} ⟨"b.py"⟩ = some ["b.py"] :=
    FileSystem.location?_of_isPlainName (by decide +kernel) rfl
  have hdifferent : (hiddenBy ⟨"b.py"⟩).DifferentFiles := by
    refine differentFiles_hiddenBy ?_
    rw [hb]
    decide
  have hwrites : (hiddenBy ⟨"b.py"⟩).writes (.poll 6) = [⟨1, ⟨"b.py"⟩, "y\n"⟩] := by
    decide +kernel
  obtain ⟨s', fs', n, a', done, -, hrecord, hrequests, hread, hkept, -⟩ :=
    due_checks_read_text silent _ hw hcur hdifferent 6 (exists_writeAll_hiddenBy hb hwrites) ()
  -- one check is due, that of the second buffer
  have hone : done.map (·.request) = [⟨1, 0, ⟨"b.py"⟩⟩] :=
    hrequests.trans (requests_hiddenBy ⟨"b.py"⟩)
  obtain ⟨c, rfl, hc⟩ := List.map_eq_singleton_iff.mp hone
  obtain ⟨o, -, ho, -, htext, -⟩ := hread c (List.mem_singleton_self c)
  rw [hc] at ho htext
  -- the buffer with this identity
  have hbuf : o.buffer = ⟨⟨"b.py"⟩, "y\n", 0⟩ := by
    rcases get?_hiddenBy ho with ⟨hid, -⟩ | ⟨-, hbuf⟩
    · exact absurd hid Nat.one_ne_zero
    · exact hbuf
  rw [hbuf] at htext
  have hopen : ((hiddenBy ⟨"b.py"⟩).session.get? 0).isSome = true := by decide +kernel
  obtain ⟨o₀, ho₀⟩ := Option.isSome_iff_exists.mp hopen
  have hbuf₀ : o₀.buffer = ⟨⟨"a.py"⟩, "x\n", 0⟩ := by
    rcases get?_hiddenBy ho₀ with ⟨-, hbuf⟩ | ⟨hid, -⟩
    · exact hbuf
    · exact absurd hid.symm Nat.one_ne_zero
  -- the first one is not checked, so its file is as it was
  have hnot : ∀ c' ∈ [c], c'.request.buffer ≠ 0 := by
    intro c' hc'
    rw [List.mem_singleton.mp hc', hc]
    exact Nat.one_ne_zero
  have hfile := hkept 0 o₀ ["a.py"] ho₀ hnot (hbuf₀ ▸ location?_a)
  rw [hbuf₀] at hfile
  have hmissing : FileSystem.readText {} ⟨"a.py"⟩ = .error .notFound :=
    FileSystem.readText_eq hcur location?_a
  refine ⟨(s', fs', n), c.consultation fs', hrecord, ?_, htext (by decide +kernel), ?_⟩
  · rw [CheckCompleted.consultation, hc]
  · exact hfile.trans hmissing

theorem location?_dot_a : FileSystem.location? {} ⟨"./a.py"⟩ = some ["a.py"] := by
  have hdotted : FileSystem.parts "./a.py".toList = "." :: FileSystem.parts "a.py".toList := by
    decide +kernel
  rw [← location?_a, FileSystem.location?_of_relative (p := ⟨"./a.py"⟩) (by decide +kernel), hdotted,
    FileSystem.walk_dot]
  exact (FileSystem.location?_of_relative (by decide +kernel)).symm

/-- Two paths of which one begins with a dot are not the same, but lead to one file. Checking one of
the buffers writes the file of the other one. -/
theorem due_checks_write_elsewhere : ¬ ∀ (w : Workbench)
    (check : FileSystem → Path → StateM Unit (List Diagnostic)) (now : Nat) (k : BufferId)
    (o : OpenBuffer), w.Reachable → w.fs.HasCurrent → w.DifferentPaths →
    (∃ fs, w.fs.writeAll (w.writes (.poll now)) = .ok fs) →
    w.session.get? k = some o → o.wantsCheck now = false →
    (w.session.runDueChecks check w.fs now ()).1.2.1.readText o.buffer.path
      = w.fs.readText o.buffer.path := by
  intro h
  have hw : (hiddenBy ⟨"./a.py"⟩).Reachable := ⟨5, true, {}, _, rfl⟩
  have hcur : FileSystem.HasCurrent {} := FileSystem.isDirectoryAt_nil {}
  have hpaths : (hiddenBy ⟨"./a.py"⟩).DifferentPaths := by decide +kernel
  have hwrites : (hiddenBy ⟨"./a.py"⟩).writes (.poll 6) = [⟨1, ⟨"./a.py"⟩, "y\n"⟩] := by
    decide +kernel
  obtain ⟨fs, hfs⟩ := exists_writeAll_hiddenBy location?_dot_a hwrites
  have hopen : ((hiddenBy ⟨"./a.py"⟩).session.get? 0).any (·.wantsCheck 6 = false) = true := by
    decide +kernel
  obtain ⟨o, ho, hidle⟩ := (Option.any_eq_true _ _).mp hopen
  have hkept := h _ silent 6 0 o hw hcur hpaths ⟨fs, hfs⟩ ho (of_decide_eq_true hidle)
  have hbuf : o.buffer = ⟨⟨"a.py"⟩, "x\n", 0⟩ := by
    rcases get?_hiddenBy ho with ⟨-, hbuf⟩ | ⟨hid, -⟩
    · exact hbuf
    · exact absurd hid.symm Nat.one_ne_zero
  rw [hbuf] at hkept
  -- the file was not there, and now it holds the text of the other buffer
  have hmissing : FileSystem.readText {} ⟨"a.py"⟩ = .error .notFound :=
    FileSystem.readText_eq hcur location?_a
  have hlast : FileSystem.lastWrite? {} ⟨"a.py"⟩ [⟨1, ⟨"./a.py"⟩, "y\n"⟩]
      = some ⟨1, ⟨"./a.py"⟩, "y\n"⟩ := by
    rw [FileSystem.lastWrite?, List.filter_eq_self.mpr]
    · rfl
    · intro x hx
      rw [List.mem_singleton.mp hx, location?_dot_a, location?_a]
      rfl
  have hread : ((hiddenBy ⟨"./a.py"⟩).step (.poll 6)).fs.readText ⟨"a.py"⟩ = .ok "y\n" := by
    have hstep : ((hiddenBy ⟨"./a.py"⟩).step (.poll 6)).fs = fs :=
      step_files (e := .poll 6) (fun hforeign => hforeign) hfs
    rw [hstep, FileSystem.readText_writeAll hcur hfs location?_a, hwrites, hlast]
    rfl
  have hboth := hread.symm.trans (hkept.trans hmissing)
  cases hboth

end Workbench

end EditorInsight
