import EditorInsight.Proofs.Session.InPlace
import EditorInsight.Proofs.Session.Inline

/-!
# The pointer changes nothing

The underline under the pointer is drawn over the same text as the findings and kept beside them, and
edits and changes of the focus clear it. Yet it is for the eye alone: whatever else an editor asks of
a session, it gets the same answers whether or not the pointer was moved in between.

* `Session.Call` is everything that a session can be asked for, with the type of the answer:
  operations, checks and questions. `Session.Call.perform` answers it.
* `Session.withoutUnderlines` forgets the underlines. Every operation but hovering does the same to a
  session as to what is left of it, see `Session.edit_withoutUnderlines` and its like.
* `Session.Call.perform_forget` is the step: what was forgotten has no influence.
* `Session.replies_keep` is the run: calls that hover may be left out of it.
-/

namespace EditorInsight

/-! ### Calls -/

/-- Whether an operation moves the pointer. -/
def Operation.Hovers {α : Type} : Operation α → Prop
  | hover _ _ | clearHover _ => True
  | _ => False

namespace Session

/-- What can be asked of a session without changing it. -/
inductive Question : Type → Type where
  | active : Question (Option BufferId)
  | ids : Question (List BufferId)
  | buffer (id : BufferId) : Question (Option Buffer)
  | findByPath (path : Path) : Question (Option BufferId)
  | annotations (id : BufferId) : Question (Option (List Annotation))
  | revision (id : BufferId) : Question (Option Nat)
  | diagnostics (id : BufferId) : Question (Option (List Diagnostic))
  | summary (id : BufferId) : Question (Option String)
  | isInFlight (id : BufferId) : Question Bool
  | nextDeadline : Question (Option Nat)

/-- The answer to a question. -/
def Question.answer {α : Type} (s : Session) : Question α → α
  | active => s.active
  | ids => s.ids
  | buffer id => (s.get? id).map (·.buffer)
  | findByPath path => s.findByPath path
  | annotations id => (s.get? id).map (·.layers.annotations)
  | revision id => (s.get? id).map (·.layers.revision)
  | diagnostics id => (s.get? id).map (·.diagnostics)
  | summary id => s.summary id
  | isInFlight id => s.isInFlight id
  | nextDeadline => s.nextDeadline

/-- What a session can be asked for, by the type of the answer. Checks that are done may be given to it
at any time, also some that nobody asked for, and a linter may remember what it was asked before. -/
inductive Call (σ : Type) : Type → Type 1 where
  | operation {α : Type} (op : Operation α) : Call σ (Except SessionError α)
  | poll (now : Nat) : Call σ (List CheckRequest)
  | completeCheck (c : CheckCompleted) (now : Nat) : Call σ Bool
  | runDueChecks (check : FileSystem → Path → StateM σ (List Diagnostic)) (now : Nat) : Call σ Nat
  | question {α : Type} (q : Question α) : Call σ α
  /-- Other programs change the files. -/
  | disk (fs : FileSystem) : Call σ Unit

namespace Call

variable {σ α : Type}

/-- The answer to a call, and what the call leaves; the second part of the state is the memory of the
linter. A failed operation changes nothing. -/
def perform : Call σ α → Workbench × σ → α × (Workbench × σ)
  | operation op, (w, a) =>
    match op.result w with
    | .ok (w', x) => (.ok x, (w', a))
    | .error e => (.error e, (w, a))
  | poll now, (w, a) =>
    let (s, fs, requests) := w.session.poll w.fs now
    (requests, ({ w with session := s, fs := fs }, a))
  | completeCheck c now, (w, a) =>
    let (s, repainted) := w.session.completeCheck c now
    (repainted, ({ w with session := s }, a))
  | runDueChecks check now, (w, a) =>
    let ((s, fs, n), a) := w.session.runDueChecks check w.fs now a
    (n, ({ w with session := s, fs := fs }, a))
  | question q, (w, a) => (q.answer w.session, (w, a))
  | disk fs, (w, a) => ((), ({ w with fs := fs }, a))

/-- Whether a call moves the pointer. -/
def Hovers : Call σ α → Prop
  | operation op => op.Hovers
  | _ => False

end Call

/-- A call of any type of answer. -/
abbrev AnyCall (σ : Type) : Type 1 := (α : Type) × Call σ α

/-- An answer of any type. -/
abbrev AnyReply : Type 1 := (α : Type) × α

/-- The answers to a row of calls, and what the calls leave. -/
def replies {σ : Type} : List (AnyCall σ) → Workbench × σ → List AnyReply × (Workbench × σ)
  | [], x => ([], x)
  | ⟨α, call⟩ :: calls, x =>
    let (answer, x) := call.perform x
    let (answers, x) := replies calls x
    (⟨α, answer⟩ :: answers, x)

/-- The items of a list that are not marked to be left out. What has no mark stays. -/
def keep {α : Type*} : List Bool → List α → List α
  | true :: marks, a :: as => a :: keep marks as
  | false :: marks, _ :: as => keep marks as
  | _, as => as

/-! ### Without the underlines -/

/-- The session with nothing underlined. -/
def withoutUnderlines (s : Session) : Session :=
  { s with buffers := s.buffers.map fun p => (p.1, p.2.clearUnderline) }

end Session

/-- The workbench with nothing underlined. -/
def Workbench.withoutUnderlines (w : Workbench) : Workbench :=
  { w with session := w.session.withoutUnderlines }

namespace OpenBuffer

variable (o : OpenBuffer)

theorem clearUnderline_changed (b : Buffer) : (o.changed b).clearUnderline = o.changed b := by
  rw [changed_eq]
  simp only [clearUnderline]
  split <;> rfl

theorem renamed_clearUnderline (path : Path) :
    o.clearUnderline.renamed path = (o.renamed path).clearUnderline := by
  have hclear : o.layers.clearUnderline.clear = o.layers.clear.clearUnderline := by
    unfold Layers.clear
    rw [apply_ite Layers.clearUnderline]
    rfl
  simp only [renamed, clearUnderline, hclear]

/-- The word at an offset. -/
def wordAt (offset : Nat) : Option String :=
  (identifierAt? o.buffer.text offset).bind fun bounds =>
    (Text.slice? o.buffer.chars bounds.1 bounds.2).map String.ofList

theorem hovered_clearUnderline (offset : Nat) : (o.hovered offset).clearUnderline = o.clearUnderline :=
  rfl

/-- Taking a check looks at the findings alone. -/
theorem receive_clearUnderline (c : CheckCompleted) (now : Nat) :
    o.clearUnderline.receive c now = ((o.receive c now).1.clearUnderline, (o.receive c now).2) := by
  have haccepts : o.clearUnderline.accepts c.request = o.accepts c.request := rfl
  rcases o.receive_cases c now with ⟨hrec, hwhy⟩ | ⟨hrec, haccepted, hother⟩
  · rcases o.clearUnderline.receive_cases c now with ⟨hrec', -⟩ | ⟨-, haccepted', hother'⟩
    · rw [hrec, hrec']
      rfl
    · -- it counts with the underline if it counts without
      rcases hwhy with hdiscarded | hsame
      · cases (haccepts.symm.trans haccepted').symm.trans hdiscarded
      · exact absurd hsame hother'
  · rcases o.clearUnderline.receive_cases c now with ⟨-, hdiscarded | hsame⟩ | ⟨hrec', -⟩
    · cases (haccepts.symm.trans hdiscarded).symm.trans haccepted
    · exact absurd hsame hother
    · rw [hrec, hrec']
      rfl

end OpenBuffer

namespace Session

variable (s : Session)

theorem withoutUnderlines_withoutUnderlines :
    s.withoutUnderlines.withoutUnderlines = s.withoutUnderlines := by
  simp only [withoutUnderlines, List.map_map]
  rfl

theorem get?_withoutUnderlines (id : BufferId) :
    s.withoutUnderlines.get? id = (s.get? id).map OpenBuffer.clearUnderline :=
  lookup_map_eq s.buffers (fun _ => OpenBuffer.clearUnderline) id

theorem get_withoutUnderlines (id : BufferId) :
    s.withoutUnderlines.get id = (s.get id).map OpenBuffer.clearUnderline := by
  unfold get
  rw [get?_withoutUnderlines]
  cases s.get? id <;> rfl

theorem modify_withoutUnderlines (id : BufferId) {f : OpenBuffer → OpenBuffer}
    (hf : ∀ o, f o.clearUnderline = (f o).clearUnderline) :
    s.withoutUnderlines.modify id f = (s.modify id f).withoutUnderlines := by
  simp only [modify, withoutUnderlines, List.map_map]
  refine congrArg (fun bs => { s with buffers := bs }) (List.map_congr_left fun p _ => ?_)
  by_cases hid : p.1 = id
  · simp [hid, hf]
  · simp [hid]

theorem put_withoutUnderlines (id : BufferId) (o : OpenBuffer) :
    s.withoutUnderlines.put id o.clearUnderline = (s.put id o).withoutUnderlines := by
  simp only [put, modify, withoutUnderlines, List.map_map]
  refine congrArg (fun bs => { s with buffers := bs }) (List.map_congr_left fun p _ => ?_)
  by_cases hid : p.1 = id
  · simp [hid]
  · simp [hid]

theorem armIfActive_withoutUnderlines (id : BufferId) (now : Nat) :
    s.withoutUnderlines.armIfActive id now = (s.armIfActive id now).withoutUnderlines := by
  unfold armIfActive
  rw [apply_ite withoutUnderlines, ← s.modify_withoutUnderlines id (f := (·.arm now)) fun _ => rfl]
  rfl

/-! Operations other than hovering do the same to a session as to what is left of it without the
underlines. -/

theorem openBuffer_withoutUnderlines (b : Buffer) (now : Nat) :
    (s.withoutUnderlines.openBuffer b now).1 = (s.openBuffer b now).1.withoutUnderlines := by
  unfold openBuffer
  dsimp only
  rw [← armIfActive_withoutUnderlines]
  refine congrArg (fun s' => Session.armIfActive s' s.nextId now) ?_
  -- the buffer that had the focus stops waiting
  cases hactive : s.active with
  | none =>
    simp only [withoutUnderlines, hactive, List.map_append]
    rfl
  | some previous =>
    have hcancel := s.modify_withoutUnderlines previous (f := OpenBuffer.cancel) fun _ => rfl
    simp only [withoutUnderlines, hactive] at hcancel ⊢
    rw [hcancel]
    simp only [List.map_append]
    rfl

theorem openFile_withoutUnderlines (fs : FileSystem) (path : Path) (now : Nat) :
    s.withoutUnderlines.openFile fs path now
      = (s.openFile fs path now).map fun p => (p.1.withoutUnderlines, p.2) := by
  unfold openFile
  cases Buffer.load fs path with
  | error e => rfl
  | ok b => exact congrArg (fun s' => Except.ok (s', s.nextId)) (s.openBuffer_withoutUnderlines b now)

theorem edit_withoutUnderlines (id : BufferId) (now : Nat) (change : Change) :
    s.withoutUnderlines.edit id now change
      = (s.edit id now change).map fun p => (p.1.withoutUnderlines, p.2) := by
  rw [edit_eq, edit_eq, get_withoutUnderlines]
  cases s.get id with
  | error e => rfl
  | ok o =>
    change (o.buffer.apply change).mapError _ >>= _ = ((o.buffer.apply change).mapError _ >>= _).map _
    cases o.buffer.apply change with
    | error e => rfl
    | ok p =>
      refine congrArg (fun s' => Except.ok (s', p.2)) ?_
      rw [← armIfActive_withoutUnderlines, ← put_withoutUnderlines, OpenBuffer.clearUnderline_changed]
      rfl

theorem activate_withoutUnderlines (id : BufferId) (now : Nat) :
    s.withoutUnderlines.activate id now = (s.activate id now).map withoutUnderlines := by
  unfold activate
  rw [get_withoutUnderlines]
  cases s.get id with
  | error e => rfl
  | ok o =>
    refine congrArg Except.ok ?_
    rw [← armIfActive_withoutUnderlines]
    refine congrArg (fun s' => Session.armIfActive s' id now) ?_
    -- the buffer that had the focus loses its underline anyway
    cases hactive : s.active with
    | none =>
      simp only [withoutUnderlines, hactive]
    | some previous =>
      have hleave := s.modify_withoutUnderlines previous
        (f := fun o => o.cancel.clearUnderline) fun _ => rfl
      simp only [withoutUnderlines, hactive] at hleave ⊢
      split
      · rfl
      · rw [hleave]

theorem close_withoutUnderlines (fs : FileSystem) (id : BufferId) :
    s.withoutUnderlines.close fs id
      = (s.close fs id).map fun p => (p.1.withoutUnderlines, p.2) := by
  unfold close
  rw [get_withoutUnderlines]
  cases s.get id with
  | error e => rfl
  | ok o =>
    refine congrArg (fun bs => Except.ok
      ({ s with
        buffers := bs
        active := if s.active = some id then none else s.active }, o.flush fs, o.buffer)) ?_
    exact List.filter_map

theorem save_withoutUnderlines (fs : FileSystem) (id : BufferId) :
    s.withoutUnderlines.save fs id = s.save fs id := by
  unfold save
  rw [get_withoutUnderlines]
  cases s.get id <;> rfl

theorem rename_withoutUnderlines (id : BufferId) (path : Path) (now : Nat) :
    s.withoutUnderlines.rename id path now = (s.rename id path now).map withoutUnderlines := by
  unfold rename
  rw [get_withoutUnderlines]
  cases s.get id with
  | error e => rfl
  | ok o =>
    refine congrArg Except.ok ?_
    rw [← armIfActive_withoutUnderlines, ← put_withoutUnderlines, ← o.renamed_clearUnderline]

theorem clearHover_withoutUnderlines (id : BufferId) :
    s.withoutUnderlines.clearHover id = (s.clearHover id).map withoutUnderlines := by
  unfold clearHover
  rw [get_withoutUnderlines]
  cases s.get id with
  | error e => rfl
  | ok o => exact congrArg Except.ok (s.put_withoutUnderlines id o.clearUnderline)

/-- Hovering puts the underline and tells the word. -/
theorem hover_eq (id : BufferId) (offset : Nat) :
    s.hover id offset
      = (s.get id).map fun o => (s.put id (o.hovered offset), o.wordAt offset) := by
  unfold hover
  cases s.get id with
  | error e => rfl
  | ok o =>
    dsimp only [bind, Except.bind, Except.map]
    cases hword : identifierAt? o.buffer.text offset <;>
      simp only [OpenBuffer.hovered, OpenBuffer.wordAt, hword] <;> rfl

/-- Hovering gives the same word, and what it underlines is forgotten. -/
theorem hover_withoutUnderlines (id : BufferId) (offset : Nat) :
    (s.withoutUnderlines.hover id offset).map (fun p => (p.1.withoutUnderlines, p.2))
      = (s.hover id offset).map fun p => (p.1.withoutUnderlines, p.2) := by
  rw [hover_eq, hover_eq, get_withoutUnderlines]
  cases s.get id with
  | error e => rfl
  | ok o =>
    have hput : (s.withoutUnderlines.put id (o.clearUnderline.hovered offset)).withoutUnderlines
        = (s.put id (o.hovered offset)).withoutUnderlines := by
      rw [← put_withoutUnderlines, ← put_withoutUnderlines, withoutUnderlines_withoutUnderlines,
        OpenBuffer.hovered_clearUnderline, OpenBuffer.hovered_clearUnderline]
      rfl
    exact congrArg (fun s' => Except.ok (s', o.wordAt offset)) hput

/-! ### Checks -/

theorem pollBuffers_clearUnderline (now : Nat) (fs : FileSystem)
    (bs : List (BufferId × OpenBuffer)) :
    pollBuffers now fs (bs.map fun p => (p.1, p.2.clearUnderline))
      = ((pollBuffers now fs bs).1.map (fun p => (p.1, p.2.clearUnderline)),
          (pollBuffers now fs bs).2) := by
  induction bs generalizing fs with
  | nil => rfl
  | cons p bs ih =>
    obtain ⟨id, o⟩ := p
    -- neither the timer nor the text has to do with the underline
    have hwants : o.clearUnderline.wantsCheck now = o.wantsCheck now := rfl
    have hflush : o.clearUnderline.flush fs = o.flush fs := rfl
    rw [List.map_cons, pollBuffers, pollBuffers, hwants, hflush]
    split
    · rw [ih]
      rfl
    · rw [ih]
      rfl

theorem poll_withoutUnderlines (fs : FileSystem) (now : Nat) :
    s.withoutUnderlines.poll fs now
      = ((s.poll fs now).1.withoutUnderlines, (s.poll fs now).2) := by
  unfold poll
  by_cases hlint : s.lintEnabled = true
  · have hbuffers := pollBuffers_clearUnderline now fs s.buffers
    simp only [withoutUnderlines, hlint, if_true, hbuffers]
  · simp only [withoutUnderlines, hlint, if_false, Bool.false_eq_true]

theorem completeCheck_withoutUnderlines (c : CheckCompleted) (now : Nat) :
    s.withoutUnderlines.completeCheck c now
      = ((s.completeCheck c now).1.withoutUnderlines, (s.completeCheck c now).2) := by
  rw [completeCheck_eq, completeCheck_eq, get?_withoutUnderlines]
  cases s.get? c.request.buffer with
  | none => rfl
  | some o =>
    simp only [Option.map_some]
    rw [OpenBuffer.receive_clearUnderline, put_withoutUnderlines]

theorem runChecks_withoutUnderlines {σ : Type} (check : Path → StateM σ (List Diagnostic))
    (now : Nat) (requests : List CheckRequest) (a : σ) :
    runChecks check now s.withoutUnderlines requests a
      = let done := runChecks check now s requests a
        ((done.1.1.withoutUnderlines, done.1.2), done.2) := by
  induction requests generalizing s a with
  | nil => rfl
  | cons r requests ih =>
    rw [runChecks_cons, runChecks_cons]
    dsimp only
    rw [completeCheck_withoutUnderlines, ih]

theorem runDueChecks_withoutUnderlines {σ : Type}
    (check : FileSystem → Path → StateM σ (List Diagnostic)) (fs : FileSystem) (now : Nat) (a : σ) :
    s.withoutUnderlines.runDueChecks check fs now a
      = let done := s.runDueChecks check fs now a
        ((done.1.1.withoutUnderlines, done.1.2), done.2) := by
  rw [runDueChecks_apply, runDueChecks_apply, poll_withoutUnderlines]
  dsimp only
  rw [runChecks_withoutUnderlines]

/-- No question is about underlines. -/
theorem answer_withoutUnderlines {α : Type} (q : Question α) :
    q.answer s.withoutUnderlines = q.answer s := by
  cases q with
  | active => rfl
  | ids =>
    simp only [Question.answer, Session.ids, withoutUnderlines, List.map_map]
    rfl
  | findByPath path =>
    simp only [Question.answer, findByPath, withoutUnderlines, List.find?_map, Option.map_map]
    rfl
  | nextDeadline =>
    simp only [Question.answer, nextDeadline, withoutUnderlines, List.filterMap_map]
    rfl
  | isInFlight id =>
    simp only [Question.answer, isInFlight, get?_withoutUnderlines]
    cases s.get? id <;> rfl
  | summary id =>
    simp only [Question.answer, summary, get?_withoutUnderlines, Option.map_map]
    rfl
  | _ =>
    simp only [Question.answer, get?_withoutUnderlines, Option.map_map]
    rfl

end Session

/-! ### One call -/

namespace Workbench

theorem withoutUnderlines_withoutUnderlines (w : Workbench) :
    w.withoutUnderlines.withoutUnderlines = w.withoutUnderlines :=
  congrArg (fun s => { w with session := s }) w.session.withoutUnderlines_withoutUnderlines

end Workbench

namespace Operation

variable {α : Type}

/-- The event that an operation is in a run of a workbench. -/
def event : Operation α → Event
  | openFile path now => .openFile path now
  | openBuffer b now => .openBuffer b now
  | edit id now change => .edit id now change
  | activate id now => .activate id now
  | close id => .close id
  | save id => .save id
  | rename id path now => .rename id path now
  | hover id offset => .hover id offset
  | clearHover id => .clearHover id

theorem step_event {w : Workbench} {op : Operation α} {p : Workbench × α}
    (h : op.result w = .ok p) : w.step op.event = p.1 := by
  cases op with
  | openBuffer b now => exact congrArg Prod.fst (Except.ok.inj h)
  | _ =>
    obtain ⟨r, hr, hp⟩ := bind_eq_ok h
    simp only [event, Workbench.step, hr]
    exact congrArg Prod.fst (Except.ok.inj hp)

/-- An operation comes out alike with and without the underlines. -/
theorem result_withoutUnderlines (op : Operation α) (w : Workbench) :
    (op.result w.withoutUnderlines).map (fun p => (p.1.withoutUnderlines, p.2))
      = (op.result w).map fun p => (p.1.withoutUnderlines, p.2) := by
  have hforget {β : Type} (s : Session) (fs : FileSystem) (x : β) :
      (({ w with session := s.withoutUnderlines, fs := fs } : Workbench).withoutUnderlines, x)
        = (({ w with session := s, fs := fs } : Workbench).withoutUnderlines, x) :=
    congrArg (·, x) (Workbench.withoutUnderlines_withoutUnderlines { w with session := s, fs := fs })
  -- each operation of the session comes out alike, and the workbench takes what comes out
  cases op with
  | openFile path now =>
    exact map_bind_congr (w.session.openFile_withoutUnderlines w.fs path now)
      fun p => hforget p.1 w.fs p.2
  | openBuffer b now =>
    refine congrArg Except.ok ?_
    have hopen := w.session.openBuffer_withoutUnderlines b now
    exact (congrArg (fun s => (({ w with session := s } : Workbench).withoutUnderlines, _)) hopen).trans
      (hforget _ w.fs _)
  | edit id now change =>
    exact map_bind_congr (w.session.edit_withoutUnderlines id now change)
      fun p => hforget p.1 w.fs p.2
  | activate id now =>
    exact map_bind_congr (w.session.activate_withoutUnderlines id now) fun s => hforget s w.fs ()
  | close id =>
    exact map_bind_congr (w.session.close_withoutUnderlines w.fs id)
      fun p => hforget p.1 p.2.1 p.2.2
  | save id =>
    have hsave : w.session.withoutUnderlines.save w.fs id
        = (w.session.save w.fs id).map fun fs => fs := by
      rw [w.session.save_withoutUnderlines]
      cases w.session.save w.fs id <;> rfl
    exact map_bind_congr hsave fun fs => hforget w.session fs ()
  | rename id path now =>
    exact map_bind_congr (w.session.rename_withoutUnderlines id path now) fun s => hforget s w.fs ()
  | hover id offset =>
    change (w.session.withoutUnderlines.hover id offset >>= _).map _
      = (w.session.hover id offset >>= _).map _
    -- here the underlines differ, and have to be forgotten again
    rcases map_eq_map_cases (w.session.hover_withoutUnderlines id offset) with
      ⟨e, hr', hr⟩ | ⟨p', p, hr', hr, hp⟩
    · rw [hr', hr]
      rfl
    · rw [hr', hr]
      exact congrArg (fun p => Except.ok (({ w with session := p.1 } : Workbench), p.2)) hp
  | clearHover id =>
    exact map_bind_congr (w.session.clearHover_withoutUnderlines id) fun s => hforget s w.fs ()

/-- Moving the pointer changes the underlines alone. -/
theorem result_hovers {w : Workbench} (hw : w.session.WellFormed) {op : Operation α}
    {p : Workbench × α} (hovers : op.Hovers)
    (h : op.result w = .ok p) : p.1.withoutUnderlines = w.withoutUnderlines := by
  -- a buffer that is put back as it was, but for the underline
  have hput {id : BufferId} {o o' : OpenBuffer} (ho : w.session.get? id = some o)
      (halike : o'.clearUnderline = o.clearUnderline) :
      (w.session.put id o').withoutUnderlines = w.session.withoutUnderlines := by
    rw [← Session.put_withoutUnderlines, halike, Session.put_withoutUnderlines, hw.put_self ho]
  cases op with
  | hover id offset =>
    obtain ⟨r, hr, hp⟩ := bind_eq_ok h
    obtain ⟨o, ho, hs⟩ := Session.hover_eq_ok hr
    obtain rfl := Except.ok.inj hp
    refine congrArg (fun s => { w with session := s }) ?_
    rw [hs]
    exact hput ho (o.hovered_clearUnderline offset)
  | clearHover id =>
    obtain ⟨s, hr, hp⟩ := bind_eq_ok h
    obtain ⟨o, ho, rfl⟩ := Session.clearHover_eq_ok hr
    obtain rfl := Except.ok.inj hp
    have halike : o.clearUnderline.clearUnderline = o.clearUnderline := rfl
    exact congrArg (fun s => { w with session := s }) (hput ho halike)
  | _ => exact hovers.elim

end Operation

namespace Session

variable {σ α : Type}

/-- What is left of a state without the underlines. -/
def forget (x : Workbench × σ) : Workbench × σ := (x.1.withoutUnderlines, x.2)

theorem forget_forget (x : Workbench × σ) : forget (forget x) = forget x :=
  congrArg (·, x.2) x.1.withoutUnderlines_withoutUnderlines

namespace Call

/-- **One call.** It is answered alike with and without the underlines, and leaves the same but for
the underlines. -/
theorem perform_forget (call : Call σ α) (x : Workbench × σ) :
    (call.perform (forget x)).1 = (call.perform x).1 ∧
      forget (call.perform (forget x)).2 = forget (call.perform x).2 := by
  obtain ⟨w, a⟩ := x
  cases call with
  | operation op =>
    -- both are refused with one error, or both succeed with what differs by underlines alone
    rcases map_eq_map_cases (op.result_withoutUnderlines w) with
      ⟨e, hr', hr⟩ | ⟨p', p, hr', hr, hp⟩
    · simp only [perform, forget, hr', hr, true_and]
      exact congrArg (·, a) w.withoutUnderlines_withoutUnderlines
    · simp only [perform, forget, hr', hr]
      exact ⟨congrArg (fun p => Except.ok p.2) hp, congrArg (fun p => (p.1, a)) hp⟩
  | poll now =>
    simp only [perform, forget, Workbench.withoutUnderlines, poll_withoutUnderlines,
      withoutUnderlines_withoutUnderlines, and_self]
  | completeCheck c now =>
    simp only [perform, forget, Workbench.withoutUnderlines, completeCheck_withoutUnderlines,
      withoutUnderlines_withoutUnderlines, and_self]
  | runDueChecks check now =>
    simp only [perform, forget, Workbench.withoutUnderlines, runDueChecks_withoutUnderlines,
      withoutUnderlines_withoutUnderlines]
    exact ⟨rfl, rfl⟩
  | question q => exact ⟨w.session.answer_withoutUnderlines q, forget_forget (w, a)⟩
  | disk fs => exact ⟨rfl, forget_forget ({ w with fs := fs }, a)⟩

/-- A call that moves the pointer changes the underlines alone. -/
theorem perform_hovers {call : Call σ α} (hovers : call.Hovers) {x : Workbench × σ}
    (hx : x.1.session.WellFormed) : forget (call.perform x).2 = forget x := by
  obtain ⟨w, a⟩ := x
  cases call with
  | operation op =>
    cases hr : op.result w with
    | ok p =>
      simp only [perform, hr]
      exact congrArg (·, a) (op.result_hovers hx hovers hr)
    | error e => simp only [perform, hr]
  | _ => exact hovers.elim

theorem perform_wellFormed (call : Call σ α) {x : Workbench × σ} (hx : x.1.session.WellFormed) :
    (call.perform x).2.1.session.WellFormed := by
  obtain ⟨w, a⟩ := x
  cases call with
  | operation op =>
    cases hr : op.result w with
    | ok p =>
      simp only [perform, hr]
      exact Operation.step_event hr ▸ Workbench.step_wellFormed hx op.event
    | error e =>
      simp only [perform, hr]
      exact hx
  | poll now => exact hx.of_sameFrame (SameFrame.poll w.session w.fs now)
  | completeCheck c now => exact hx.of_sameFrame (SameFrame.completeCheck w.session c now)
  | runDueChecks check now =>
    -- doing the checks oneself is a run
    obtain ⟨answers, hrun⟩ := Workbench.runDueChecks_eq_run check w now a
    have hleft := Workbench.run_wellFormed hx
      (.poll now :: answers.flatMap (Workbench.doneAtOnce w.flights.length now))
    rw [hrun] at hleft
    exact hleft
  | question q => exact hx
  | disk fs => exact hx

end Call

/-! ### All calls -/

theorem keep_no_marks {α : Type*} (as : List α) : keep [] as = as := by
  cases as <;> rfl

theorem keep_nil {α : Type*} (marks : List Bool) : keep marks ([] : List α) = [] := by
  rcases marks with _ | ⟨_ | _, marks⟩ <;> rfl

variable {x x' : Workbench × σ}

/-- Two runs that differ in calls that move the pointer, from states that differ in underlines: the
runs go on alike, whichever call is next. -/
theorem replies_keep_of_forget {calls : List (AnyCall σ)} {marks : List Bool}
    (hmarks : ∀ p ∈ marks.zip calls, p.1 = false → p.2.2.Hovers) (hx : x.1.session.WellFormed)
    (halike : forget x' = forget x) :
    (replies (keep marks calls) x').1 = keep marks (replies calls x).1 ∧
      forget (replies (keep marks calls) x').2 = forget (replies calls x).2 := by
  induction calls generalizing marks x x' with
  | nil =>
    rw [keep_nil, replies, replies, keep_nil]
    exact ⟨rfl, halike⟩
  | cons call calls ih =>
    obtain ⟨α, call⟩ := call
    have hwell := call.perform_wellFormed hx
    -- a call that stays is answered alike, and leaves states that are alike again
    have hstays {marks : List Bool} (hrest : ∀ p ∈ marks.zip calls, p.1 = false → p.2.2.Hovers) :
        (replies (⟨α, call⟩ :: keep marks calls) x').1
            = ⟨α, (call.perform x).1⟩ :: keep marks (replies calls (call.perform x).2).1 ∧
          forget (replies (⟨α, call⟩ :: keep marks calls) x').2
            = forget (replies calls (call.perform x).2).2 := by
      have hx := call.perform_forget x
      have hx' := call.perform_forget x'
      rw [halike] at hx'
      obtain ⟨hreplies, hleft⟩ := ih hrest hwell (hx'.2.symm.trans hx.2)
      refine ⟨?_, hleft⟩
      rw [← hreplies, ← hx.1, hx'.1]
      rfl
    rcases marks with _ | ⟨_ | _, marks⟩
    · have hkept := hstays fun p (hp : p ∈ List.zip [] calls) => absurd hp List.not_mem_nil
      rw [keep_no_marks, keep_no_marks] at hkept
      rw [keep_no_marks, keep_no_marks]
      exact hkept
    · -- a call that is left out changes underlines alone
      have hovers : call.Hovers := hmarks (false, ⟨α, call⟩) List.mem_cons_self rfl
      exact ih (fun p hp => hmarks p (List.mem_cons_of_mem _ hp)) hwell
        (halike.trans (call.perform_hovers hovers hx).symm)
    · exact hstays fun p hp => hmarks p (List.mem_cons_of_mem _ hp)

/-- **The pointer changes nothing.** Leave some of the calls that hover or stop hovering out of a run
of a session, from its creation and with any linter. The other calls are answered as before, and what
the run leaves is the same but for the underlines. -/
theorem replies_keep (quiet : Nat) (lintEnabled : Bool) (fs : FileSystem) (a : σ)
    (calls : List (AnyCall σ)) (marks : List Bool)
    (hmarks : ∀ p ∈ marks.zip calls, p.1 = false → p.2.2.Hovers) :
    (replies (keep marks calls) (.start quiet lintEnabled fs, a)).1
        = keep marks (replies calls (.start quiet lintEnabled fs, a)).1 ∧
      forget (replies (keep marks calls) (.start quiet lintEnabled fs, a)).2
        = forget (replies calls (.start quiet lintEnabled fs, a)).2 :=
  replies_keep_of_forget hmarks (Workbench.start_wellFormed quiet lintEnabled fs) rfl

/-- A word is underlined, the text changes under the underline, and the pointer leaves. -/
def pointing : List (AnyCall Unit) :=
  [⟨_, .operation (.openBuffer ⟨⟨"main.py"⟩, "name = 1\n", 0⟩ 0)⟩, ⟨_, .operation (.hover 0 2)⟩,
    ⟨_, .operation (.edit 0 10 (.insert 0 "re"))⟩, ⟨_, .operation (.clearHover 0)⟩, ⟨_, .poll 6000⟩,
    ⟨_, .question (.isInFlight 0)⟩]

/-- Both calls that move the pointer are left out. -/
theorem replies_keep_pointing :
    keep [true, false, true, false] pointing
        = [⟨_, .operation (.openBuffer ⟨⟨"main.py"⟩, "name = 1\n", 0⟩ 0)⟩,
          ⟨_, .operation (.edit 0 10 (.insert 0 "re"))⟩, ⟨_, .poll 6000⟩,
          ⟨_, .question (.isInFlight 0)⟩] ∧
      (replies (keep [true, false, true, false] pointing) (.start 5000 true {}, ())).1
        = keep [true, false, true, false] (replies pointing (.start 5000 true {}, ())).1 ∧
      forget (replies (keep [true, false, true, false] pointing) (.start 5000 true {}, ())).2
        = forget (replies pointing (.start 5000 true {}, ())).2 := by
  refine ⟨rfl, replies_keep 5000 true {} () pointing _ fun p hp hleft => ?_⟩
  have hhovers : ∀ p ∈ [true, false, true, false].zip pointing, p.1 = false → p.2.2.Hovers := by
    simp [pointing, Call.Hovers, Operation.Hovers]
  exact hhovers p hp hleft

end Session

end EditorInsight
