import EditorInsight.Proofs.Buffer.InPlace
import EditorInsight.Proofs.Session.Workbench

/-!
# Operations in place

The operations of `Session` give back another session or an error. An editor that holds the only copy
of its session and of the files changes them where they are, and an operation does that in many steps:
it takes the next identity, puts the buffer in, moves the focus, stops one timer and sets another,
changes the text, the layer and the findings. Where one of these steps fails, the steps before stay
done.

* `Operation` is what an editor asks for, with the type of the answer; `Operation.result` is what
  `Session` makes of it.
* `Operation.perform` does it in place, one step after the other.
* `Operation.perform_eq`: the two come out alike, and where an operation fails nothing has been
  changed.
* `Workbench.failed_operation` says so of everything that an editor can be asked for.
-/

namespace EditorInsight

/-- What an editor is asked for, by the type of the answer. -/
inductive Operation : Type → Type where
  | openFile (path : Path) (now : Nat) : Operation BufferId
  | openBuffer (b : Buffer) (now : Nat) : Operation BufferId
  | edit (id : BufferId) (now : Nat) (change : Change) : Operation (Option Nat)
  | activate (id : BufferId) (now : Nat) : Operation Unit
  | close (id : BufferId) : Operation Buffer
  | save (id : BufferId) : Operation Unit
  | rename (id : BufferId) (path : Path) (now : Nat) : Operation Unit
  | hover (id : BufferId) (offset : Nat) : Operation (Option String)
  | clearHover (id : BufferId) : Operation Unit

/-- The workbench after an operation, and the answer. -/
def Operation.result {α : Type} (w : Workbench) :
    Operation α → Except SessionError (Workbench × α)
  | openFile path now => do
    let (s, id) ← w.session.openFile w.fs path now
    return ({ w with session := s }, id)
  | openBuffer b now =>
    let (s, id) := w.session.openBuffer b now
    return ({ w with session := s }, id)
  | edit id now change => do
    let (s, offset) ← w.session.edit id now change
    return ({ w with session := s }, offset)
  | activate id now => do
    return ({ w with session := ← w.session.activate id now }, ())
  | close id => do
    let (s, fs, b) ← w.session.close w.fs id
    return ({ w with session := s, fs := fs }, b)
  | save id => do
    return ({ w with fs := ← w.session.save w.fs id }, ())
  | rename id path now => do
    return ({ w with session := ← w.session.rename id path now }, ())
  | hover id offset => do
    let (s, word) ← w.session.hover id offset
    return ({ w with session := s }, word)
  | clearHover id => do
    return ({ w with session := ← w.session.clearHover id }, ())

/-! ### Steps -/

namespace OpenBuffer

/-- Changes the text or the path of a buffer in place. -/
def changeBuffer (change : Change) : EStateM SessionError OpenBuffer (Option Nat) := fun o =>
  match change.perform o.buffer with
  | .ok offset b => .ok offset { o with buffer := b }
  | .error e b => .error (.edit e) { o with buffer := b }

/-- Paints the findings again over the text as it is, if any are painted. -/
def repaint (o : OpenBuffer) : OpenBuffer :=
  if o.layers.annotations.isEmpty then o
  else { o with layers := o.layers.applyInWords o.buffer.text o.diagnostics }

/-- Changes a buffer in place, and then what is drawn over it. -/
def changeInPlace (change : Change) : EStateM SessionError OpenBuffer (Option Nat) := do
  let offset ← changeBuffer change
  modify clearUnderline
  modify repaint
  return offset

/-- Points a buffer at another file, and drops one after the other what belongs to the old one. -/
def renameInPlace (path : Path) : EStateM SessionError OpenBuffer Unit := do
  modify fun o => { o with buffer := { o.buffer with path := path } }
  modify fun o => { o with diagnostics := [] }
  modify fun o => { o with layers := o.layers.clear }
  modify fun o => { o with debouncer := o.debouncer.reset }

/-- Underlines the identifier at an offset in place. -/
def hoverInPlace (offset : Nat) : EStateM SessionError OpenBuffer (Option String) := do
  let o ← get
  match identifierAt? o.buffer.text offset with
  | some (start, stop) =>
    modify fun o => { o with layers := o.layers.underlineWord ⟨start, stop⟩ }
    return (Text.slice? o.buffer.chars start stop).map String.ofList
  | none =>
    modify clearUnderline
    return none

end OpenBuffer

namespace Workbench

variable {α : Type}

/-- Changes the session in place. -/
def alter (f : Session → Session) : EStateM SessionError Workbench Unit :=
  modify fun w => { w with session := f w.session }

/-- Goes to an open buffer and works there in place. What has been done there stays done if it
fails. -/
def atBuffer (id : BufferId) (x : EStateM SessionError OpenBuffer α) :
    EStateM SessionError Workbench α := fun w =>
  match w.session.get? id with
  | none => .error (.unknownBuffer id) w
  | some o =>
    match x o with
    | .ok a o' => .ok a { w with session := w.session.put id o' }
    | .error e o' => .error e { w with session := w.session.put id o' }

/-- Leaves the buffer that has the focus, if it is another one: its timer stops and its underline
goes. -/
def leaveFor (id : BufferId) : EStateM SessionError Workbench Unit := do
  match (← get).session.active with
  | some previous =>
    if previous = id then pure ()
    else
      alter (·.modify previous OpenBuffer.cancel)
      alter (·.modify previous OpenBuffer.clearUnderline)
  | none => pure ()

/-- Takes a buffer out of the session. -/
def remove (id : BufferId) : EStateM SessionError Workbench OpenBuffer := do
  let removed := (← get).session.get? id
  alter fun s => { s with buffers := s.buffers.filter (·.1 != id) }
  match removed with
  | some o => return o
  | none => throw (.unknownBuffer id)

/-- Writes a buffer to its file. -/
def write (b : Buffer) : EStateM SessionError Workbench Unit := fun w =>
  match b.save w.fs with
  | .ok fs => .ok () { w with fs := fs }
  | .error e => .error (.io e) w

/-- Writes a buffer to its file unless it is read-only, and passes a failure over. -/
def flush (b : Buffer) : EStateM SessionError Workbench Unit :=
  if b.isReadOnly then pure () else try write b catch _ => pure ()

/-- Opens a buffer: it is put in and takes the focus before the one that had it stops waiting. -/
def openInPlace (b : Buffer) (now : Nat) : EStateM SessionError Workbench BufferId := do
  let id := (← get).session.nextId
  alter fun s => { s with nextId := id + 1 }
  alter fun s =>
    { s with buffers := s.buffers ++ [(id, { buffer := b, debouncer := { quiet := s.quiet } })] }
  let previous := (← get).session.active
  alter fun s => { s with active := some id }
  alter fun s =>
    match previous with
    | some k => s.modify k OpenBuffer.cancel
    | none => s
  alter (·.armIfActive id now)
  return id

end Workbench

open Workbench in
/-- An operation in place, one step after the other. -/
def Operation.perform {α : Type} : Operation α → EStateM SessionError Workbench α
  | openFile path now => do
    match Buffer.load (← get).fs path with
    | .ok b => openInPlace b now
    | .error e => throw (.load path e)
  | openBuffer b now => openInPlace b now
  | edit id now change => do
    let offset ← atBuffer id (OpenBuffer.changeInPlace change)
    alter (·.armIfActive id now)
    return offset
  | activate id now => do
    atBuffer id (pure ())
    leaveFor id
    alter fun s => { s with active := some id }
    alter (·.armIfActive id now)
  | close id => do
    let o ← remove id
    flush o.buffer
    alter fun s => { s with active := if s.active = some id then none else s.active }
    return o.buffer
  | save id => do
    let o ← atBuffer id get
    write o.buffer
  | rename id path now => do
    atBuffer id (OpenBuffer.renameInPlace path)
    alter (·.armIfActive id now)
  | hover id offset => atBuffer id (OpenBuffer.hoverInPlace offset)
  | clearHover id => atBuffer id (modify OpenBuffer.clearUnderline)

/-! ### One buffer -/

namespace OpenBuffer

theorem changeBuffer_eq (o : OpenBuffer) (change : Change) :
    changeBuffer change o
      = settle o (do
          let p ← (o.buffer.apply change).mapError .edit
          return ({ o with buffer := p.1 }, p.2)) := by
  unfold changeBuffer
  rw [change.perform_eq]
  cases o.buffer.apply change with
  | ok p => rfl
  | error e => rfl

theorem repaint_eq_changed (o : OpenBuffer) (b : Buffer) :
    repaint (clearUnderline { o with buffer := b }) = o.changed b := by
  rw [changed_eq, repaint]
  simp only [List.isEmpty_iff]
  split
  · next hempty =>
    have hnone : o.layers.annotations = [] := hempty
    rw [if_pos hnone]
    rfl
  · next hsome =>
    have hpainted : ¬ o.layers.annotations = [] := hsome
    rw [if_neg hpainted]
    rfl

theorem changeInPlace_eq (o : OpenBuffer) (change : Change) :
    changeInPlace change o
      = settle o (do
          let p ← (o.buffer.apply change).mapError SessionError.edit
          return (o.changed p.1, p.2)) := by
  refine settle_bind (g := fun p => .ok (p.1.clearUnderline.repaint, p.2))
    (o.changeBuffer_eq change) ?_ fun p => rfl
  cases o.buffer.apply change with
  | ok p =>
    change Except.ok (o.changed p.1, p.2) = .ok _
    rw [← o.repaint_eq_changed]
  | error e => rfl

theorem hoverInPlace_eq (o : OpenBuffer) (offset : Nat) :
    hoverInPlace offset o
      = settle o (match identifierAt? o.buffer.text offset with
          | some (start, stop) => .ok ({ o with layers := o.layers.underlineWord ⟨start, stop⟩ },
              (Text.slice? o.buffer.chars start stop).map String.ofList)
          | none => .ok (o.clearUnderline, none)) := by
  unfold hoverInPlace
  rw [bind_apply]
  change (match identifierAt? o.buffer.text offset with
    | some (start, stop) => _
    | none => _ : EStateM SessionError OpenBuffer (Option String)) o = _
  cases identifierAt? o.buffer.text offset with
  | some bounds => rfl
  | none => rfl

end OpenBuffer

/-! ### The session -/

namespace Session

theorem modify_modify (s : Session) (id : BufferId) (f g : OpenBuffer → OpenBuffer) :
    (s.modify id f).modify id g = s.modify id fun o => g (f o) := by
  unfold modify
  dsimp only
  rw [List.map_map]
  refine congrArg (fun bs => { s with buffers := bs }) (List.map_congr_left fun p _ => ?_)
  by_cases hp : p.1 = id
  · simp [hp]
  · simp [hp]

/-- The buffer that had the focus may stop waiting before the new one is put in or after it. -/
theorem WellFormed.openBuffer_eq {s : Session} (hs : s.WellFormed) (b : Buffer) (now : Nat) :
    (s.openBuffer b now).1
      = let opened : OpenBuffer := { buffer := b, debouncer := { quiet := s.quiet } }
        let s' : Session := { s with
          buffers := s.buffers ++ [(s.nextId, opened)]
          nextId := s.nextId + 1
          active := some s.nextId }
        Session.armIfActive
          (match s.active with
            | some k => s'.modify k OpenBuffer.cancel
            | none => s') s.nextId now := by
  unfold Session.openBuffer
  cases hactive : s.active with
  | none => rfl
  | some k =>
    -- the new buffer is not the one that had the focus
    have hlt : k < s.nextId := hs.below k (hs.focus k hactive)
    have hnew : ¬ s.nextId = k := Nat.ne_of_gt hlt
    refine congrArg (fun bs => Session.armIfActive
      { s with buffers := bs, nextId := s.nextId + 1, active := some s.nextId } s.nextId now) ?_
    refine Eq.trans ?_ List.map_append.symm
    exact congrArg (fun p => _ ++ [p]) (if_neg hnew).symm

end Session

namespace Operation

section Steps

variable {α : Type} {w : Workbench} (hs : w.session.WellFormed) {id : BufferId}
include hs

/-- Work on one buffer that leaves the buffer alone where it fails does so with the session. -/
theorem atBuffer_eq {x : EStateM SessionError OpenBuffer α}
    {r : OpenBuffer → Except SessionError (OpenBuffer × α)} (hx : ∀ o, x o = settle o (r o)) :
    Workbench.atBuffer id x w = settle w (do
      let o ← w.session.get id
      let p ← r o
      return ({ w with session := w.session.put id p.1 }, p.2)) := by
  unfold Workbench.atBuffer Session.get
  cases ho : w.session.get? id with
  | none => rfl
  | some o =>
    change (match x o with
      | .ok a o' => _
      | .error e o' => _) = settle w (r o >>= _)
    rw [hx o]
    cases r o with
    | ok p => rfl
    | error e =>
      -- the buffer is put back as it was
      have hput : w.session.put id o = w.session := hs.put_self ho
      change EStateM.Result.error e { w with session := w.session.put id o } = _
      rw [hput]
      rfl

theorem perform_edit (now : Nat) (change : Change) :
    (edit id now change).perform w = settle w ((edit id now change).result w) := by
  refine settle_bind (g := fun p =>
    .ok ({ p.1 with session := p.1.session.armIfActive id now }, p.2))
    (atBuffer_eq hs fun o => o.changeInPlace_eq change) ?_ fun p => rfl
  rw [result, Session.edit_eq]
  simp only [bind_assoc, pure_bind]
  rfl

theorem perform_rename (path : Path) (now : Nat) :
    (rename id path now).perform w = settle w ((rename id path now).result w) := by
  refine settle_bind (g := fun p =>
    .ok ({ p.1 with session := p.1.session.armIfActive id now }, ()))
    (atBuffer_eq hs (r := fun o => .ok (o.renamed path, ())) fun o => rfl) ?_ fun p => rfl
  rw [result, Session.rename]
  simp only [bind_assoc, pure_bind]
  rfl

theorem perform_hover (offset : Nat) :
    (hover id offset).perform w = settle w ((hover id offset).result w) := by
  refine (atBuffer_eq hs fun o => o.hoverInPlace_eq offset).trans (congrArg (settle w) ?_)
  rw [result, Session.hover]
  cases w.session.get id with
  | error e => rfl
  | ok o =>
    change (match identifierAt? o.buffer.text offset with
      | some (start, stop) => _
      | none => _ : Except SessionError (OpenBuffer × Option String)) >>= _
        = (match identifierAt? o.buffer.text offset with
            | some (start, stop) => _
            | none => _ : Except SessionError (Session × Option String)) >>= _
    cases identifierAt? o.buffer.text offset with
    | some bounds => rfl
    | none => rfl

theorem perform_clearHover : (clearHover id).perform w = settle w ((clearHover id).result w) := by
  refine (atBuffer_eq hs (r := fun o => .ok (o.clearUnderline, ())) fun o => rfl).trans
    (congrArg (settle w) ?_)
  rw [result, Session.clearHover]
  simp only [bind_assoc]
  rfl

/-- Looking at an open buffer changes nothing. -/
theorem atBuffer_read {x : EStateM SessionError OpenBuffer α} {a : α}
    {o : OpenBuffer} (ho : w.session.get? id = some o) (hx : x o = .ok a o) :
    Workbench.atBuffer id x w = .ok a w := by
  have hput : w.session.put id o = w.session := hs.put_self ho
  unfold Workbench.atBuffer
  rw [ho]
  dsimp only
  rw [hx]
  change EStateM.Result.ok a { w with session := w.session.put id o } = .ok a w
  rw [hput]

/-- What begins by looking at an open buffer fails if there is none, and otherwise goes on from the
same state. -/
theorem settle_read {β : Type} {x : EStateM SessionError OpenBuffer α} {v : OpenBuffer → α}
    {f : α → EStateM SessionError Workbench β} {g : OpenBuffer → Except SessionError (Workbench × β)}
    (hx : ∀ o, x o = .ok (v o) o) (hf : ∀ o, f (v o) w = settle w (g o)) :
    (Workbench.atBuffer id x >>= f) w = settle w (w.session.get id >>= g) := by
  rw [bind_apply]
  cases ho : w.session.get? id with
  | none =>
    unfold Workbench.atBuffer Session.get
    rw [ho]
    rfl
  | some o =>
    rw [atBuffer_read hs ho (hx o), Session.get_bind ho]
    exact hf o

omit hs in
theorem leaveFor_eq : Workbench.leaveFor id w
    = .ok () { w with session :=
        match w.session.active with
        | some previous =>
          if previous = id then w.session
          else w.session.modify previous fun o => o.cancel.clearUnderline
        | none => w.session } := by
  unfold Workbench.leaveFor
  rw [bind_apply]
  change (match w.session.active with
    | some previous => _
    | none => _ : EStateM SessionError Workbench Unit) w = _
  cases w.session.active with
  | none => rfl
  | some previous =>
    by_cases hsame : previous = id
    · simp only [hsame, if_true]
      rfl
    · simp only [hsame, if_false]
      rw [← w.session.modify_modify previous]
      rfl

theorem perform_activate (now : Nat) :
    (activate id now).perform w = settle w ((activate id now).result w) := by
  rw [result, Session.activate]
  simp only [bind_assoc, pure_bind]
  refine settle_read hs (fun o => rfl) fun o => ?_
  rw [bind_apply, leaveFor_eq]
  rfl

theorem perform_save : (save id).perform w = settle w ((save id).result w) := by
  rw [result, Session.save]
  simp only [bind_assoc]
  refine settle_read hs (fun o => rfl) fun o => ?_
  unfold Workbench.write
  cases o.buffer.save w.fs <;> rfl

omit hs in
theorem remove_eq : Workbench.remove id w = settle w (do
    let o ← w.session.get id
    return ({ w with session :=
      { w.session with buffers := w.session.buffers.filter (·.1 != id) } }, o)) := by
  unfold Workbench.remove Session.get
  rw [bind_apply]
  change (match w.session.get? id with
    | some o => _
    | none => _ : EStateM SessionError Workbench OpenBuffer) { w with session :=
      { w.session with buffers := w.session.buffers.filter (·.1 != id) } } = _
  cases ho : w.session.get? id with
  | some o => rfl
  | none =>
    -- nothing was there to take out
    have hkeep : w.session.buffers.filter (·.1 != id) = w.session.buffers := by
      refine List.filter_eq_self.mpr fun p hp => bne_iff_ne.mpr fun hid => ?_
      exact (w.session.get?_eq_none_iff id).mp ho (List.mem_map.mpr ⟨p, hp, hid⟩)
    rw [hkeep]
    rfl

omit hs in
theorem flush_eq (o : OpenBuffer) :
    Workbench.flush o.buffer w = .ok () { w with fs := o.flush w.fs } := by
  unfold Workbench.flush OpenBuffer.flush
  cases o.buffer.isReadOnly with
  | true => rfl
  | false =>
    refine (catch_apply _ _ w).trans ?_
    unfold Workbench.write
    cases o.buffer.save w.fs <;> rfl

omit hs in
theorem perform_close : (close id).perform w = settle w ((close id).result w) := by
  refine settle_bind (g := fun p => .ok ({ p.1 with
      session := { p.1.session with
        active := if p.1.session.active = some id then none else p.1.session.active }
      fs := p.2.flush p.1.fs }, p.2.buffer)) remove_eq ?_ fun p => ?_
  · rw [result, Session.close]
    simp only [bind_assoc, pure_bind]
    rfl
  · rw [bind_apply, flush_eq]
    rfl

theorem openInPlace_eq (b : Buffer) (now : Nat) :
    Workbench.openInPlace b now w
      = .ok w.session.nextId { w with session := (w.session.openBuffer b now).1 } := by
  rw [hs.openBuffer_eq]
  rfl

theorem perform_openFile (path : Path) (now : Nat) :
    (openFile path now).perform w = settle w ((openFile path now).result w) := by
  rw [result, Session.openFile]
  change (match Buffer.load w.fs path with
    | .ok b => Workbench.openInPlace b now
    | .error e => throw (.load path e) : EStateM SessionError Workbench BufferId) w = _
  cases Buffer.load w.fs path with
  | ok b => exact openInPlace_eq hs b now
  | error e => rfl

/-- **Every operation** comes out in place as it does on a copy, and an operation that fails has
changed nothing. -/
theorem perform_eq {α : Type} (op : Operation α) : op.perform w = settle w (op.result w) := by
  cases op with
  | openFile path now => exact perform_openFile hs path now
  | openBuffer b now => exact openInPlace_eq hs b now
  | edit id now change => exact perform_edit hs now change
  | activate id now => exact perform_activate hs now
  | close id => exact perform_close
  | save id => exact perform_save hs
  | rename id path now => exact perform_rename hs path now
  | hover id offset => exact perform_hover hs offset
  | clearHover id => exact perform_clearHover hs

end Steps

end Operation

namespace Workbench

/-- **Failures leave everything as it was.** Let an editor be asked to open, change, show, close, save
or rename a buffer, to underline a word in it or to take the underline away, in any state that some
history leads to, whatever checks the session was told about. If that fails, the session, the files
and the checks under way are just what they were before, although the operation was done in place and
step by step. It fails and succeeds as the operation of `Session` does, and with the same outcome. -/
theorem failed_operation {w : Workbench} (hw : w.Possible) {α : Type} (op : Operation α) :
    (∀ e w', op.perform w = .error e w' → w' = w ∧ op.result w = .error e) ∧
    ∀ a w', op.perform w = .ok a w' → op.result w = .ok (w', a) := by
  rw [Operation.perform_eq hw.wellFormed op]
  exact ⟨fun e w' h => settle_eq_error h, fun a w' h => settle_eq_ok h⟩

/-- A buffer with one line. -/
def oneLine : Workbench :=
  (startWith 5000 true {} []).run [.openBuffer ⟨⟨"main.py"⟩, "x = 1\n", 0⟩ 0]

/-- A deletion that stops before it starts is refused, and changes nothing. -/
theorem failed_operation_reversed :
    oneLine.Possible ∧
      ∃ e, (Operation.edit 0 6000 (.delete 3 1)).perform oneLine = .error e oneLine := by
  have hw : oneLine.Possible := ⟨5000, true, {}, [], _, rfl⟩
  have hfails : (match (Operation.edit 0 6000 (.delete 3 1)).perform oneLine with
      | .ok _ _ => true
      | .error _ _ => false) = false := by
    decide +kernel
  cases hr : (Operation.edit 0 6000 (.delete 3 1)).perform oneLine with
  | ok a w' =>
    rw [hr] at hfails
    cases hfails
  | error e w' =>
    obtain ⟨hsame, -⟩ := (failed_operation hw _).1 e w' hr
    exact ⟨hw, e, congrArg _ hsame⟩

end Workbench

end EditorInsight
