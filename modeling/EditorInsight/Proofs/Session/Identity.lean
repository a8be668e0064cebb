import EditorInsight.Proofs.Session.Lookup

/-!
# Identities

The identities of the open buffers ascend and stay below the next one, so no two buffers share one
and a new buffer never gets the identity of an earlier one. The focus is on an open buffer.

* `Session.WellFormed` is this invariant. Most operations keep the whole frame of the session
  around the states of its buffers (`Session.SameFrame`), and with it the invariant; opening, closing
  and focusing are looked at one by one.
* `Session.WellFormed.mem_poll_requests` says which checks are issued, in terms of the view `Session.get?`.
-/

namespace EditorInsight

namespace Session

/-- The identities of the open buffers, in the order of the buffers. -/
def ids (s : Session) : List BufferId := s.buffers.map (·.1)

/-- What every session keeps. -/
structure WellFormed (s : Session) : Prop where
  /-- Identities ascend, so each stands for one buffer. -/
  ascending : s.ids.Pairwise (· < ·)
  /-- The next identity is a new one. -/
  below : ∀ id ∈ s.ids, id < s.nextId
  /-- The focus is on an open buffer. -/
  focus : ∀ id, s.active = some id → id ∈ s.ids

/-! ### Identities and the view -/

section View

variable (s : Session)

theorem mem_ids_iff (id : BufferId) : id ∈ s.ids ↔ ∃ o, s.get? id = some o := by
  rw [← Option.isSome_iff_exists]
  unfold get? ids
  rw [List.lookup_isSome_iff, List.mem_map]
  exact exists_congr fun p => and_congr_right fun _ =>
    ⟨fun h => beq_iff_eq.mpr h.symm, fun h => (beq_iff_eq.mp h).symm⟩

theorem get?_eq_none_iff (id : BufferId) : s.get? id = none ↔ id ∉ s.ids := by
  rw [mem_ids_iff, not_exists, Option.eq_none_iff_forall_ne_some]

/-- Changing a buffer that is not open changes nothing. -/
theorem modify_of_get?_eq_none {id : BufferId} (h : s.get? id = none)
    (f : OpenBuffer → OpenBuffer) : s.modify id f = s := by
  have hmap : (s.buffers.map fun p => if p.1 = id then (p.1, f p.2) else (p.1, p.2))
      = s.buffers := by
    refine (List.map_congr_left fun p hp => ?_).trans (List.map_id' _)
    have hid : p.1 ≠ id := fun hid =>
      (s.get?_eq_none_iff id).mp h (List.mem_map.mpr ⟨p, hp, hid⟩)
    exact if_neg hid
  exact congrArg (fun bs => { s with buffers := bs }) hmap

end View

/-! ### What operations keep outside the buffers -/

/-- Two sessions that differ in nothing but the states of their buffers. -/
structure SameFrame (s s' : Session) : Prop where
  ids : s'.ids = s.ids
  active : s'.active = s.active
  nextId : s'.nextId = s.nextId
  quiet : s'.quiet = s.quiet
  lintEnabled : s'.lintEnabled = s.lintEnabled

namespace SameFrame

variable {s s' s'' : Session}

theorem refl (s : Session) : SameFrame s s := ⟨rfl, rfl, rfl, rfl, rfl⟩

theorem trans (h : SameFrame s s') (h' : SameFrame s' s'') : SameFrame s s'' :=
  ⟨h'.ids.trans h.ids, h'.active.trans h.active, h'.nextId.trans h.nextId,
    h'.quiet.trans h.quiet, h'.lintEnabled.trans h.lintEnabled⟩

theorem modify (s : Session) (id : BufferId) (f : OpenBuffer → OpenBuffer) :
    SameFrame s (s.modify id f) := by
  refine ⟨?_, rfl, rfl, rfl, rfl⟩
  unfold Session.ids Session.modify
  rw [List.map_map]
  refine List.map_congr_left fun p _ => ?_
  change (if p.1 = id then (p.1, f p.2) else (p.1, p.2)).1 = p.1
  split <;> rfl

theorem put (s : Session) (id : BufferId) (o : OpenBuffer) : SameFrame s (s.put id o) :=
  modify s id fun _ => o

theorem armIfActive (s : Session) (id : BufferId) (now : Nat) :
    SameFrame s (s.armIfActive id now) := by
  unfold Session.armIfActive
  split
  · exact modify s id _
  · exact refl s

theorem put_armIfActive (s : Session) (id : BufferId) (o : OpenBuffer) (now : Nat) :
    SameFrame s ((s.put id o).armIfActive id now) :=
  (put s id o).trans (armIfActive _ id now)

theorem poll (s : Session) (fs : FileSystem) (now : Nat) : SameFrame s (s.poll fs now).1 := by
  unfold Session.poll
  split
  · refine ⟨?_, rfl, rfl, rfl, rfl⟩
    change (pollBuffers now fs s.buffers).1.map (·.1) = s.buffers.map (·.1)
    rw [pollBuffers_buffers, List.map_map]
    rfl
  · exact refl s

theorem completeCheck (s : Session) (c : CheckCompleted) (now : Nat) :
    SameFrame s (s.completeCheck c now).1 := by
  rw [completeCheck_eq]
  cases s.get? c.request.buffer with
  | none => exact refl s
  | some o => exact put s c.request.buffer (o.receive c now).1

end SameFrame

section Frames

variable {s : Session}

/-- Focusing moves the focus and nothing else outside the buffers. -/
theorem activate_frame {id : BufferId} {now : Nat} {s' : Session}
    (h : s.activate id now = .ok s') :
    id ∈ s.ids ∧ SameFrame { s with active := some id } s' := by
  obtain ⟨o, ho, hr⟩ := bind_eq_ok h
  refine ⟨(s.mem_ids_iff id).mpr ⟨o, (s.get_eq_ok_iff id o).mp ho⟩, ?_⟩
  obtain rfl := Except.ok.inj hr
  refine SameFrame.trans ?_ (SameFrame.armIfActive _ id now)
  cases s.active with
  | none => exact SameFrame.refl _
  | some previous =>
    have hm := SameFrame.modify s previous fun o => o.cancel.clearUnderline
    -- leaving the previous buffer keeps the frame, whether or not it is the same one
    by_cases hp : previous = id
    · simp only [hp, if_true]
      exact SameFrame.refl _
    · simp only [hp, if_false]
      exact ⟨hm.ids, rfl, hm.nextId, hm.quiet, hm.lintEnabled⟩

/-- Opening uses up the next identity and moves the focus there. -/
theorem openBuffer_frame (b : Buffer) (now : Nat) :
    SameFrame { s with
      buffers := s.buffers ++ [(s.nextId, { buffer := b, debouncer := { quiet := s.quiet } })]
      nextId := s.nextId + 1
      active := some s.nextId } (s.openBuffer b now).1 := by
  unfold openBuffer
  refine SameFrame.trans ?_ (SameFrame.armIfActive _ s.nextId now)
  cases s.active with
  | none => exact SameFrame.refl _
  | some previous =>
    -- the previous buffer stops waiting, which is within the frame
    refine ⟨?_, rfl, rfl, rfl, rfl⟩
    refine List.map_append.trans (Eq.trans ?_ List.map_append.symm)
    exact congrArg (· ++ _) (SameFrame.modify s previous _).ids

theorem ids_openBuffer (b : Buffer) (now : Nat) :
    (s.openBuffer b now).1.ids = s.ids ++ [s.nextId] :=
  (openBuffer_frame b now).ids.trans List.map_append

theorem ids_close {fs : FileSystem} {id : BufferId} {r : Session × FileSystem × Buffer}
    (h : s.close fs id = .ok r) : r.1.ids = s.ids.filter (· != id) := by
  obtain ⟨o, -, rfl⟩ := close_eq_ok h
  change (s.buffers.filter _).map (·.1) = (s.buffers.map (·.1)).filter _
  rw [List.filter_map]
  rfl

end Frames

/-! ### The invariant -/

namespace WellFormed

variable {s s' : Session}

theorem nextId_free (h : WellFormed s) : s.get? s.nextId = none :=
  (s.get?_eq_none_iff s.nextId).mpr fun hm => Nat.lt_irrefl _ (h.below _ hm)

theorem lt_nextId (h : WellFormed s) {id : BufferId} {o : OpenBuffer} (ho : s.get? id = some o) :
    id < s.nextId :=
  h.below id ((s.mem_ids_iff id).mpr ⟨o, ho⟩)

theorem mem_buffers_iff (h : WellFormed s) (id : BufferId) (o : OpenBuffer) :
    (id, o) ∈ s.buffers ↔ s.get? id = some o :=
  -- identities that ascend are different
  (lookup_eq_some_iff_mem (h.ascending.imp Nat.ne_of_lt)).symm

theorem of_sameFrame (h : WellFormed s) (hf : SameFrame s s') : WellFormed s' where
  ascending := hf.ids ▸ h.ascending
  below := by rw [hf.ids, hf.nextId]; exact h.below
  focus := by rw [hf.ids, hf.active]; exact h.focus

theorem openBuffer (h : WellFormed s) (b : Buffer) (now : Nat) :
    WellFormed (s.openBuffer b now).1 where
  ascending := by
    rw [ids_openBuffer, List.pairwise_append]
    refine ⟨h.ascending, List.pairwise_singleton _ _, fun id hid id' hid' => ?_⟩
    rw [List.mem_singleton.mp hid']
    exact h.below id hid
  below := by
    rw [ids_openBuffer, (openBuffer_frame b now).nextId]
    intro id hid
    -- the identity that was used up is below the next one as well
    rcases List.mem_append.mp hid with hid | hid
    · exact Nat.lt_succ_of_lt (h.below id hid)
    · rw [List.mem_singleton.mp hid]
      exact Nat.lt_succ_self _
  focus := by
    rw [ids_openBuffer, (openBuffer_frame b now).active]
    intro id hid
    obtain rfl := Option.some.inj hid
    exact List.mem_append_right _ (List.mem_singleton.mpr rfl)

theorem close (h : WellFormed s) {fs : FileSystem} {id : BufferId}
    {r : Session × FileSystem × Buffer} (hr : s.close fs id = .ok r) : WellFormed r.1 where
  ascending := by
    rw [ids_close hr]
    exact h.ascending.filter _
  below := by
    rw [ids_close hr]
    obtain ⟨o, -, rfl⟩ := close_eq_ok hr
    exact fun k hk => h.below k (List.mem_filter.mp hk).1
  focus := by
    rw [ids_close hr]
    obtain ⟨o, -, rfl⟩ := close_eq_ok hr
    intro k hk
    replace hk : (if s.active = some id then none else s.active) = some k := hk
    split at hk
    · cases hk
    · -- the focus was on another buffer, which is still open
      next hne =>
      refine List.mem_filter.mpr ⟨h.focus k hk, ?_⟩
      simpa using fun hkid : k = id => hne (hkid ▸ hk)

theorem activate (h : WellFormed s) {id : BufferId} {now : Nat}
    (hs : s.activate id now = .ok s') : WellFormed s' := by
  obtain ⟨hid, hf⟩ := activate_frame hs
  refine of_sameFrame (s := { s with active := some id }) ⟨h.ascending, h.below, ?_⟩ hf
  intro k hk
  obtain rfl := Option.some.inj hk
  exact hid

/-- Putting what a change makes of an open buffer is changing it. -/
theorem put_eq_modify (h : WellFormed s) {id : BufferId} {o : OpenBuffer}
    (ho : s.get? id = some o) (f : OpenBuffer → OpenBuffer) : s.put id (f o) = s.modify id f := by
  have hmap : (s.buffers.map fun p => if p.1 = id then (p.1, f o) else (p.1, p.2))
      = s.buffers.map fun p => if p.1 = id then (p.1, f p.2) else (p.1, p.2) := by
    refine List.map_congr_left fun p hp => ?_
    by_cases hid : p.1 = id
    · -- identities are unique, so this is the buffer that was found
      have hp' : s.get? id = some p.2 := (h.mem_buffers_iff id p.2).mp (hid ▸ hp)
      rw [if_pos hid, if_pos hid, Option.some.inj (ho.symm.trans hp')]
    · rw [if_neg hid, if_neg hid]
  exact congrArg (fun bs => { s with buffers := bs }) hmap

/-- Putting a buffer back as it was changes nothing. -/
theorem put_self (h : WellFormed s) {id : BufferId} {o : OpenBuffer} (ho : s.get? id = some o) :
    s.put id o = s := by
  have hmap : (s.buffers.map fun p => if p.1 = id then (p.1, p.2) else (p.1, p.2)) = s.buffers := by
    refine (List.map_congr_left fun p _ => ?_).trans (List.map_id' _)
    exact ite_self _
  rw [h.put_eq_modify ho fun o => o]
  exact congrArg (fun bs => { s with buffers := bs }) hmap

/-- The checks that are issued are those of the open buffers that want one. -/
theorem mem_poll_requests (h : WellFormed s) {fs : FileSystem} {now : Nat} {r : CheckRequest} :
    r ∈ (s.poll fs now).2.2 ↔ s.lintEnabled = true ∧ ∃ o, s.get? r.buffer = some o ∧
      o.wantsCheck now = true ∧ r = o.request r.buffer := by
  rw [poll_requests]
  by_cases hl : s.lintEnabled = true
  · rw [if_pos hl, List.mem_map]
    simp only [hl, true_and]
    constructor
    · rintro ⟨⟨id, o⟩, hm, rfl⟩
      obtain ⟨hm, hw⟩ := List.mem_filter.mp hm
      exact ⟨o, (h.mem_buffers_iff id o).mp hm, hw, rfl⟩
    · rintro ⟨o, ho, hw, hr⟩
      exact ⟨(r.buffer, o), List.mem_filter.mpr ⟨(h.mem_buffers_iff _ o).mpr ho, hw⟩, hr.symm⟩
  · simp [hl]

/-- A poll issues at most one check of each buffer. -/
theorem nodup_poll_requests (h : WellFormed s) (fs : FileSystem) (now : Nat) :
    ((s.poll fs now).2.2.map (·.buffer)).Nodup := by
  rw [poll_requests]
  split
  · rw [List.map_map]
    -- the requests carry the identities of some buffers, in their order
    have hsub : List.Sublist ((s.buffers.filter fun p => p.2.wantsCheck now).map (·.1)) s.ids :=
      List.filter_sublist.map _
    exact (h.ascending.sublist hsub).imp Nat.ne_of_lt
  · exact List.nodup_nil

end WellFormed

end Session

end EditorInsight
