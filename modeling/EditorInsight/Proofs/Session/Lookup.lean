import EditorInsight.Proofs.Association
import EditorInsight.Proofs.Except
import EditorInsight.Session.Check

/-!
# Looking up buffers after an operation

`Session.get?` is the view through which everything about open buffers is stated: a session is what
it answers for every identity, together with the focus, the next identity and the settings. Here
every operation of a session is described once through that view.

* `OpenBuffer.armWhen`, `OpenBuffer.receive` and `OpenBuffer.hovered` name what an operation does to
  one buffer: arming it under a condition, taking a check that is done, and underlining a word.
* `OpenBuffer.changedBy_eq`, `OpenBuffer.receiveBy_eq` and their like say of every way to paint when an
  operation paints, and what it does with the annotations.
* `Session.get?_openBuffer`, `Session.get?_activate`, `Session.get?_poll`,
  `Session.get?_completeCheck` and their like say what is found at every identity after an
  operation; nothing after them opens the list of buffers.
* `Session.edit_eq_ok` and its like say when an operation succeeds and what it then does.
-/

namespace EditorInsight

/-! ### One open buffer -/

namespace OpenBuffer

/-- Restarts the rest before the next check if a condition holds, as for the buffer that has the
focus. -/
def armWhen (o : OpenBuffer) (p : Prop) [Decidable p] (now : Nat) : OpenBuffer :=
  if p then o.arm now else o

/-- What becomes of a buffer whose check is done: the check is no longer under way, and it counts if
it was done for the file and the text that the buffer has now. -/
def receiveBy {m : Type → Type} [Monad m] (paint : Painter m) (o : OpenBuffer) (c : CheckCompleted)
    (now : Nat) : m (OpenBuffer × Bool) :=
  let o := { o with inFlight := false }
  if o.accepts c.request then o.takeFindingsBy paint c.diagnostics now else return (o, false)

/-- What becomes of a buffer whose check is done, in a build that does not stop. -/
def receive (o : OpenBuffer) (c : CheckCompleted) (now : Nat) : OpenBuffer × Bool :=
  Id.run (o.receiveBy .unchecked c now)

/-- Whether a check that is done is painted: it counts, and it has other findings than the last
ones. -/
def Repaints (o : OpenBuffer) (c : CheckCompleted) : Prop :=
  o.accepts c.request = true ∧ o.debouncer.lastFired ≠ some c.diagnostics

instance (o : OpenBuffer) (c : CheckCompleted) : Decidable (o.Repaints c) :=
  inferInstanceAs (Decidable (_ ∧ _))

/-- The state after the pointer was put on an offset: the identifier there is underlined, and nothing
is if there is none. -/
def hovered (o : OpenBuffer) (offset : Nat) : OpenBuffer :=
  let word := (identifierAt? o.buffer.text offset).map fun bounds => Span.mk bounds.1 bounds.2
  { o with layers := { o.layers with underline := word } }

/-- The state after findings other than the last ones were taken, with their annotations. -/
def withFindings (o : OpenBuffer) (annotations : List Annotation) (ds : List Diagnostic) (now : Nat) :
    OpenBuffer where
  buffer := o.buffer
  debouncer := { o.debouncer with lastFired := some ds }.arm now
  layers := { o.layers with annotations := annotations, revision := o.layers.revision + 1 }
  diagnostics := ds
  inFlight := false

/-- The state after findings other than the last ones were taken. -/
def repainted (o : OpenBuffer) (ds : List Diagnostic) (now : Nat) : OpenBuffer :=
  o.withFindings (paintInWords o.buffer.text ds) ds now

section Fields

variable (o : OpenBuffer) (p : Prop) [Decidable p] (now : Nat)

@[simp] theorem armWhen_buffer : (o.armWhen p now).buffer = o.buffer := by
  unfold armWhen; split <;> rfl

@[simp] theorem armWhen_layers : (o.armWhen p now).layers = o.layers := by
  unfold armWhen; split <;> rfl

@[simp] theorem armWhen_diagnostics : (o.armWhen p now).diagnostics = o.diagnostics := by
  unfold armWhen; split <;> rfl

@[simp] theorem armWhen_inFlight : (o.armWhen p now).inFlight = o.inFlight := by
  unfold armWhen; split <;> rfl

@[simp] theorem armWhen_quiet : (o.armWhen p now).debouncer.quiet = o.debouncer.quiet := by
  unfold armWhen; split <;> rfl

@[simp] theorem armWhen_lastFired :
    (o.armWhen p now).debouncer.lastFired = o.debouncer.lastFired := by
  unfold armWhen; split <;> rfl

end Fields

section AnyPainter

variable {m : Type → Type} [Monad m] [LawfulMonad m] (paint : Painter m) (o : OpenBuffer)

/-- An edit paints if something is painted. -/
theorem changedBy_eq (b : Buffer) : o.changedBy paint b
    = if o.layers.annotations = [] then
        pure { o with buffer := b, layers := o.layers.clearUnderline }
      else (fun annotations => { o with
          buffer := b
          layers := { o.layers.clearUnderline with
            annotations := annotations
            revision := o.layers.revision + 1 } }) <$> paint b.text o.diagnostics := by
  simp only [changedBy, Layers.applyBy, Layers.clearUnderline, List.isEmpty_iff]
  split
  · exact pure_bind _ _
  · rw [bind_assoc, map_eq_pure_bind]
    simp only [pure_bind]

/-- A check that is done paints if it counts and has other findings than the last ones. Otherwise
nothing changes but that it is no longer under way. -/
theorem receiveBy_eq (c : CheckCompleted) (now : Nat) : o.receiveBy paint c now
    = if o.Repaints c then
        (fun annotations => (o.withFindings annotations c.diagnostics now, true))
          <$> paint o.buffer.text c.diagnostics
      else pure ({ o with inFlight := false }, false) := by
  have ha : ({ o with inFlight := false } : OpenBuffer).accepts c.request = o.accepts c.request :=
    rfl
  simp only [receiveBy, ha, Repaints]
  by_cases hcounts : o.accepts c.request = true
  · simp only [hcounts, if_true, true_and, takeFindingsBy, Debouncer.record]
    by_cases hsame : o.debouncer.lastFired = some c.diagnostics
    · simp only [hsame, if_true, ne_eq, not_true_eq_false, if_false]
    · simp only [hsame, if_false, ne_eq, not_false_eq_true, if_true, Layers.applyBy, bind_assoc,
        pure_bind, map_eq_pure_bind]
      rfl
  · simp only [hcounts, Bool.false_eq_true, if_false, false_and]

end AnyPainter

theorem changed_eq (o : OpenBuffer) (b : Buffer) : o.changed b = { o with
    buffer := b
    layers := if o.layers.annotations = [] then o.layers.clearUnderline
      else o.layers.clearUnderline.applyInWords b.text o.diagnostics } := by
  rw [changed, changedBy_eq]
  split <;> rfl

theorem receive_eq (o : OpenBuffer) (c : CheckCompleted) (now : Nat) : o.receive c now
    = if o.Repaints c then (o.repainted c.diagnostics now, true)
      else ({ o with inFlight := false }, false) := by
  rw [receive, receiveBy_eq]
  split <;> rfl

theorem receiveBy_unchecked {m : Type → Type} [Monad m] [LawfulMonad m] (o : OpenBuffer)
    (c : CheckCompleted) (now : Nat) :
    o.receiveBy (.unchecked : Painter m) c now = pure (o.receive c now) := by
  rw [receiveBy_eq, receive_eq]
  split
  · exact map_pure _ _
  · rfl

/-- A check that is done is discarded or repeats the last findings, and then nothing changes but that
it is no longer under way; or it counts and has other findings, and these are painted. -/
theorem receive_cases (o : OpenBuffer) (c : CheckCompleted) (now : Nat) :
    (o.receive c now = ({ o with inFlight := false }, false) ∧
      (o.accepts c.request = false ∨ o.debouncer.lastFired = some c.diagnostics)) ∨
    (o.receive c now = (o.repainted c.diagnostics now, true) ∧
      o.accepts c.request = true ∧ o.debouncer.lastFired ≠ some c.diagnostics) := by
  rw [receive_eq]
  by_cases hnew : o.Repaints c
  · rw [if_pos hnew]
    exact Or.inr ⟨rfl, hnew⟩
  · rw [if_neg hnew]
    refine Or.inl ⟨rfl, ?_⟩
    cases hcounts : o.accepts c.request with
    | false => exact Or.inl rfl
    | true => exact Or.inr (Classical.not_not.mp fun hother => hnew ⟨hcounts, hother⟩)

@[simp] theorem receive_inFlight (o : OpenBuffer) (c : CheckCompleted) (now : Nat) :
    (o.receive c now).1.inFlight = false := by
  rcases o.receive_cases c now with ⟨hrec, -⟩ | ⟨hrec, -⟩
  · rw [hrec]
  · rw [hrec]
    rfl

@[simp] theorem receive_buffer (o : OpenBuffer) (c : CheckCompleted) (now : Nat) :
    (o.receive c now).1.buffer = o.buffer := by
  rcases o.receive_cases c now with ⟨hrec, -⟩ | ⟨hrec, -⟩
  · rw [hrec]
  · rw [hrec]
    rfl

/-- A check that counts is what the timer remembers, whether or not it was painted. -/
theorem receive_lastFired (o : OpenBuffer) (c : CheckCompleted) (now : Nat) :
    (o.receive c now).1.debouncer.lastFired
      = if o.accepts c.request = true then some c.diagnostics else o.debouncer.lastFired := by
  rcases o.receive_cases c now with ⟨hrec, hwhy⟩ | ⟨hrec, haccepts, -⟩
  · rw [hrec]
    rcases hwhy with hdiscarded | hsame
    · rw [hdiscarded, if_neg Bool.false_ne_true]
    · -- the timer remembers these findings already
      rw [hsame, ite_self]
  · rw [hrec, if_pos haccepts]
    rfl

/-- A check of a buffer as it is counts. -/
theorem accepts_request (o : OpenBuffer) (id : BufferId) : o.accepts (o.request id) = true :=
  Bool.and_eq_true_iff.mpr ⟨beq_self_eq_true _, beq_self_eq_true _⟩

end OpenBuffer

namespace Session

/-! ### The view after an operation -/

variable (s : Session)

theorem get?_modify (id k : BufferId) (f : OpenBuffer → OpenBuffer) :
    (s.modify id f).get? k = (s.get? k).map fun o => if k = id then f o else o := by
  have hf : (fun p : BufferId × OpenBuffer => if p.1 = id then (p.1, f p.2) else (p.1, p.2))
      = fun p => (p.1, if p.1 = id then f p.2 else p.2) := by
    funext p
    split <;> rfl
  change (s.buffers.map fun p => if p.1 = id then (p.1, f p.2) else (p.1, p.2)).lookup k = _
  rw [hf, lookup_map_eq s.buffers (fun a o => if a = id then f o else o)]
  rfl

theorem get?_put (id k : BufferId) (o : OpenBuffer) :
    (s.put id o).get? k = (s.get? k).map fun o' => if k = id then o else o' :=
  s.get?_modify id k _

theorem get?_armIfActive (id k : BufferId) (now : Nat) :
    (s.armIfActive id now).get? k
      = (s.get? k).map fun o => o.armWhen (k = id ∧ s.active = some id) now := by
  unfold armIfActive
  by_cases h : s.active = some id
  · rw [if_pos h, get?_modify]
    simp only [h, and_true]
    rfl
  · -- the buffer has not the focus, so nobody is armed
    rw [if_neg h]
    simp [h, OpenBuffer.armWhen]

theorem get?_put_armIfActive (id k : BufferId) (o : OpenBuffer) (now : Nat) :
    ((s.put id o).armIfActive id now).get? k = (s.get? k).map fun o' =>
      if k = id then o.armWhen (s.active = some id) now else o' := by
  rw [get?_armIfActive, get?_put, Option.map_map]
  refine congrArg (Option.map · (s.get? k)) (funext fun o' => ?_)
  change OpenBuffer.armWhen (if k = id then o else o') (k = id ∧ s.active = some id) now = _
  by_cases hk : k = id
  · simp only [hk, if_true, true_and]
  · simp only [hk, if_false, false_and]
    rfl

/-- Where the focus goes, the buffer that had it is changed and no other is. -/
private theorem get?_leaving (f : OpenBuffer → OpenBuffer) (k : BufferId) :
    (match s.active with
      | some previous => s.modify previous f
      | none => s).get? k = (s.get? k).map fun o => if s.active = some k then f o else o := by
  cases hA : s.active with
  | none => simp
  | some previous =>
    rw [get?_modify]
    simp only [Option.some.injEq, eq_comm]

/-- Opening adds a buffer under the next identity and takes the focus from the one that had it. -/
theorem get?_openBuffer (b : Buffer) (now : Nat) (k : BufferId) (h : s.get? s.nextId = none) :
    (s.openBuffer b now).1.get? k
      = if k = s.nextId then
          some (OpenBuffer.arm { buffer := b, debouncer := { quiet := s.quiet } } now)
        else (s.get? k).map fun o => if s.active = some k then o.cancel else o := by
  unfold openBuffer
  -- the last step arms the new buffer, which is behind the old ones
  rw [get?_armIfActive]
  change ((List.lookup k ((match s.active with
      | some previous => s.modify previous OpenBuffer.cancel
      | none => s).buffers ++ [(s.nextId, _)])).map
        fun o => o.armWhen (k = s.nextId ∧ some s.nextId = some s.nextId) now) = _
  rw [List.lookup_append]
  change (((match s.active with
      | some previous => s.modify previous OpenBuffer.cancel
      | none => s).get? k).or (List.lookup k [(s.nextId, _)])).map _ = _
  rw [get?_leaving]
  -- the old buffers do not have the new identity
  by_cases hk : k = s.nextId
  · subst hk
    simp [h, OpenBuffer.armWhen]
  · have hb : (k == s.nextId) = false := beq_eq_false_iff_ne.mpr hk
    simp [hk, hb, List.lookup_cons, OpenBuffer.armWhen, Function.comp_def]

theorem get_eq_ok_iff (id : BufferId) (o : OpenBuffer) : s.get id = .ok o ↔ s.get? id = some o := by
  unfold get
  cases s.get? id <;> simp

variable {s}

theorem close_eq_ok {fs : FileSystem} {id : BufferId} {r : Session × FileSystem × Buffer}
    (h : s.close fs id = .ok r) :
    ∃ o, s.get? id = some o ∧ r = ({ s with
      buffers := s.buffers.filter (·.1 != id)
      active := if s.active = some id then none else s.active }, o.flush fs, o.buffer) := by
  obtain ⟨o, ho, hr⟩ := bind_eq_ok h
  exact ⟨o, (s.get_eq_ok_iff id o).mp ho, (Except.ok.inj hr).symm⟩

/-- Closing takes one buffer away and leaves the others alone. -/
theorem get?_close {fs : FileSystem} {id : BufferId} {r : Session × FileSystem × Buffer}
    (h : s.close fs id = .ok r) (k : BufferId) :
    r.1.get? k = if k = id then none else s.get? k := by
  obtain ⟨o, -, rfl⟩ := close_eq_ok h
  exact lookup_filter_ne s.buffers id k

/-- An edit is refused, or the buffer is changed and armed if it has the focus. -/
theorem edit_eq (s : Session) (id : BufferId) (now : Nat) (change : Change) :
    s.edit id now change = do
      let o ← s.get id
      let p ← (o.buffer.apply change).mapError .edit
      return ((s.put id (o.changed p.1)).armIfActive id now, p.2) := by
  rw [edit, editBy, prepareEdit]
  cases s.get id with
  | error e => rfl
  | ok o =>
    have hbind : ∀ {α : Type} (f : OpenBuffer → Except SessionError α), Except.ok o >>= f = f o :=
      fun _ => rfl
    rw [hbind, hbind]
    cases o.buffer.apply change with
    | error e => rfl
    | ok p => rfl

theorem edit_eq_ok {id : BufferId} {now : Nat} {change : Change} {r : Session × Option Nat}
    (h : s.edit id now change = .ok r) :
    ∃ o b, s.get? id = some o ∧ o.buffer.apply change = .ok (b, r.2) ∧
      r.1 = (s.put id (o.changed b)).armIfActive id now := by
  rw [edit_eq] at h
  obtain ⟨o, ho, h⟩ := bind_eq_ok h
  obtain ⟨⟨b, offset⟩, ha, hr⟩ := bind_eq_ok h
  obtain rfl := Except.ok.inj hr
  exact ⟨o, b, (s.get_eq_ok_iff id o).mp ho, mapError_eq_ok ha, rfl⟩

theorem get_bind {α : Type} {id : BufferId} {o : OpenBuffer} (ho : s.get? id = some o)
    (f : OpenBuffer → Except SessionError α) : s.get id >>= f = f o := by
  rw [(s.get_eq_ok_iff id o).mpr ho]
  rfl

theorem prepareEdit_eq_ok_iff {id : BufferId} {change : Change} {o : OpenBuffer} {b : Buffer}
    {offset : Option Nat} : s.prepareEdit id change = .ok (o, b, offset) ↔
      s.get? id = some o ∧ o.buffer.apply change = .ok (b, offset) := by
  constructor
  · intro h
    obtain ⟨o', ho, h⟩ := bind_eq_ok h
    obtain ⟨⟨b', offset'⟩, ha, hr⟩ := bind_eq_ok h
    obtain ⟨rfl, hp⟩ := Prod.mk.inj (Except.ok.inj hr)
    obtain ⟨rfl, rfl⟩ := Prod.mk.inj hp
    exact ⟨(s.get_eq_ok_iff id _).mp ho, mapError_eq_ok ha⟩
  · rintro ⟨ho, ha⟩
    rw [prepareEdit, get_bind ho, ha]
    rfl

/-! An operation that names an open buffer fails only if the change is refused. -/

theorem close_ne_error {fs : FileSystem} {id : BufferId} {o : OpenBuffer} {e : SessionError}
    (ho : s.get? id = some o) : s.close fs id ≠ .error e :=
  fun h => nomatch (get_bind ho _).symm.trans h

theorem rename_ne_error {id : BufferId} {path : Path} {now : Nat} {o : OpenBuffer}
    {e : SessionError} (ho : s.get? id = some o) : s.rename id path now ≠ .error e :=
  fun h => nomatch (get_bind ho _).symm.trans h

theorem activate_ne_error {id : BufferId} {now : Nat} {o : OpenBuffer} {e : SessionError}
    (ho : s.get? id = some o) : s.activate id now ≠ .error e :=
  fun h => nomatch (get_bind ho _).symm.trans h

theorem exists_activate {id : BufferId} {o : OpenBuffer} (ho : s.get? id = some o) (now : Nat) :
    ∃ s', s.activate id now = .ok s' := by
  cases hr : s.activate id now with
  | ok s' => exact ⟨s', rfl⟩
  | error e => exact absurd hr (activate_ne_error ho)

theorem apply_eq_error {id : BufferId} {now : Nat} {change : Change} {o : OpenBuffer}
    {e : SessionError} (ho : s.get? id = some o) (h : s.edit id now change = .error e) :
    ∃ e', o.buffer.apply change = .error e' := by
  cases ha : o.buffer.apply change with
  | error e' => exact ⟨e', rfl⟩
  | ok p =>
    rw [edit_eq, get_bind ho, ha] at h
    cases h

theorem rename_eq_ok {id : BufferId} {path : Path} {now : Nat} {s' : Session}
    (h : s.rename id path now = .ok s') :
    ∃ o, s.get? id = some o ∧ s' = (s.put id (o.renamed path)).armIfActive id now := by
  obtain ⟨o, ho, hr⟩ := bind_eq_ok h
  exact ⟨o, (s.get_eq_ok_iff id o).mp ho, (Except.ok.inj hr).symm⟩

theorem clearHover_eq_ok {id : BufferId} {s' : Session} (h : s.clearHover id = .ok s') :
    ∃ o, s.get? id = some o ∧ s' = s.put id o.clearUnderline := by
  obtain ⟨o, ho, hr⟩ := bind_eq_ok h
  exact ⟨o, (s.get_eq_ok_iff id o).mp ho, (Except.ok.inj hr).symm⟩

/-- Hovering changes nothing but the underline. -/
theorem hover_eq_ok {id : BufferId} {offset : Nat} {r : Session × Option String}
    (h : s.hover id offset = .ok r) :
    ∃ o, s.get? id = some o ∧ r.1 = s.put id (o.hovered offset) := by
  obtain ⟨o, ho, h⟩ := bind_eq_ok h
  refine ⟨o, (s.get_eq_ok_iff id o).mp ho, ?_⟩
  unfold OpenBuffer.hovered
  split at h
  · next start stop hword => rw [hword, ← Except.ok.inj h]; rfl
  · next hnone => rw [hnone, ← Except.ok.inj h]; rfl

/-- Focusing arms one buffer; another one that had the focus stops waiting and loses its
underline. -/
theorem get?_activate {id : BufferId} {now : Nat} {s' : Session}
    (h : s.activate id now = .ok s') (k : BufferId) :
    s'.get? k = (s.get? k).map fun o =>
      if k = id then o.arm now
      else if s.active = some k then o.cancel.clearUnderline else o := by
  obtain ⟨o, -, hr⟩ := bind_eq_ok h
  -- first the buffer that had the focus is left, then the other one is armed
  rw [← Except.ok.inj hr, get?_armIfActive]
  change ((match s.active with
      | some previous => if previous = id then s
          else s.modify previous fun o => o.cancel.clearUnderline
      | none => s).get? k).map _ = _
  cases hA : s.active with
  | none => simp [OpenBuffer.armWhen]
  | some previous =>
    by_cases hp : previous = id
    · -- it had the focus already
      subst hp
      by_cases hk : k = previous
      · simp [hk, OpenBuffer.armWhen]
      · simp [hk, Ne.symm hk, OpenBuffer.armWhen]
    · simp only [hp, if_false, get?_modify, Option.map_map]
      congr 1
      funext o
      by_cases hk : k = id
      · simp [hk, Ne.symm hp, OpenBuffer.armWhen]
      · simp [hk, OpenBuffer.armWhen, eq_comm]

/-! ### Checks -/

theorem pollBuffers_buffers (now : Nat) (fs : FileSystem) (bs : List (BufferId × OpenBuffer)) :
    (pollBuffers now fs bs).1
      = bs.map fun p => (p.1, if p.2.wantsCheck now then p.2.issued else p.2) := by
  induction bs generalizing fs with
  | nil => rfl
  | cons p bs ih =>
    obtain ⟨id, o⟩ := p
    by_cases h : o.wantsCheck now
    · simp [pollBuffers, h, ih]
    · simp [pollBuffers, h, ih]

/-- The checks that are issued are those of the buffers that want one, in their order. -/
theorem pollBuffers_requests (now : Nat) (fs : FileSystem) (bs : List (BufferId × OpenBuffer)) :
    (pollBuffers now fs bs).2.2
      = (bs.filter fun p => p.2.wantsCheck now).map fun p => p.2.request p.1 := by
  induction bs generalizing fs with
  | nil => rfl
  | cons p bs ih =>
    obtain ⟨id, o⟩ := p
    by_cases h : o.wantsCheck now
    · simp [pollBuffers, h, ih]
    · simp [pollBuffers, h, ih]

variable (s)

theorem get?_poll (fs : FileSystem) (now : Nat) (k : BufferId) :
    (s.poll fs now).1.get? k = (s.get? k).map fun o =>
      if s.lintEnabled ∧ o.wantsCheck now then o.issued else o := by
  unfold poll
  by_cases h : s.lintEnabled
  · rw [if_pos h]
    change (pollBuffers now fs s.buffers).1.lookup k = _
    rw [pollBuffers_buffers,
      lookup_map_eq s.buffers (fun _ o => if o.wantsCheck now then o.issued else o)]
    simp only [h, true_and]
    rfl
  · rw [if_neg h]
    simp [h]

/-- A poll changes no text and no path. -/
theorem buffer_poll (fs : FileSystem) (now : Nat) (k : BufferId) :
    ((s.poll fs now).1.get? k).map (·.buffer) = (s.get? k).map (·.buffer) := by
  rw [get?_poll, Option.map_map]
  refine congrArg (Option.map · (s.get? k)) (funext fun o => ?_)
  rw [Function.comp_apply]
  split <;> rfl

theorem poll_requests (fs : FileSystem) (now : Nat) :
    (s.poll fs now).2.2 = if s.lintEnabled then
      (s.buffers.filter fun p => p.2.wantsCheck now).map fun p => p.2.request p.1 else [] := by
  unfold poll
  by_cases h : s.lintEnabled
  · rw [if_pos h, if_pos h]
    exact pollBuffers_requests now fs s.buffers
  · rw [if_neg h, if_neg h]

/-- A check that is done concerns its own buffer alone. -/
theorem completeCheckBy_eq {m : Type → Type} [Monad m] [LawfulMonad m] (paint : Painter m)
    (c : CheckCompleted) (now : Nat) :
    s.completeCheckBy paint c now = match s.get? c.request.buffer with
      | none => pure (s, false)
      | some o => (fun r => (s.put c.request.buffer r.1, r.2)) <$> o.receiveBy paint c now := by
  unfold completeCheckBy
  cases s.get? c.request.buffer with
  | none => rfl
  | some o =>
    simp only [OpenBuffer.receiveBy]
    split
    · rw [map_eq_pure_bind]
    · rw [map_pure]

theorem completeCheck_eq (c : CheckCompleted) (now : Nat) :
    s.completeCheck c now = match s.get? c.request.buffer with
      | none => (s, false)
      | some o => (s.put c.request.buffer (o.receive c now).1, (o.receive c now).2) := by
  rw [completeCheck, completeCheckBy_eq]
  cases s.get? c.request.buffer with
  | none => rfl
  | some o => rfl

/-- Taking a check has no other effect than that of painting. -/
theorem completeCheckBy_unchecked {m : Type → Type} [Monad m] [LawfulMonad m] (c : CheckCompleted)
    (now : Nat) : s.completeCheckBy (.unchecked : Painter m) c now = pure (s.completeCheck c now) := by
  rw [completeCheckBy_eq, completeCheck_eq]
  cases s.get? c.request.buffer with
  | none => rfl
  | some o =>
    dsimp only
    rw [OpenBuffer.receiveBy_unchecked, map_pure]

theorem completeCheck_snd {c : CheckCompleted} {o : OpenBuffer}
    (ho : s.get? c.request.buffer = some o) (now : Nat) :
    (s.completeCheck c now).2 = (o.receive c now).2 := by
  rw [completeCheck_eq, ho]

theorem get?_completeCheck (c : CheckCompleted) (now : Nat) (k : BufferId) :
    (s.completeCheck c now).1.get? k = (s.get? k).map fun o =>
      if k = c.request.buffer then (o.receive c now).1 else o := by
  rw [completeCheck_eq]
  cases h : s.get? c.request.buffer with
  | none =>
    by_cases hk : k = c.request.buffer
    · simp [hk, h]
    · simp [hk]
  | some o =>
    rw [get?_put]
    by_cases hk : k = c.request.buffer
    · simp [hk, h]
    · simp [hk]

end Session

end EditorInsight
