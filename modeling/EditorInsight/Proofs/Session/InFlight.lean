import EditorInsight.Proofs.Session.Workbench
import Mathlib.Data.List.Perm.Basic

/-!
# Checks under way

A session only remembers of each open buffer whether a check is under way. The checks themselves are
outside: with the editor, with a worker, or coming back. Whatever is done with them and in whatever
order they come back, the flag of an open buffer counts them exactly, so there is never more than
one.

* `Workbench.underWay` counts the checks of one buffer, and `Workbench.Accounted` is the invariant:
  the count is that of the flag, and no check belongs to an identity that has not been given out.
* `Workbench.step_accounted` is one event; the count moves with polls and deliveries alone.
* `Workbench.flag_exact` puts together what holds of every run.
-/

namespace EditorInsight.Workbench

/-- How many checks of a buffer are outstanding. -/
def underWay (w : Workbench) (id : BufferId) : Nat := (w.outstanding.map (·.buffer)).count id

theorem underWay_pos_iff (w : Workbench) (id : BufferId) :
    0 < w.underWay id ↔ ∃ r ∈ w.outstanding, r.buffer = id := by
  rw [underWay, List.count_pos_iff, List.mem_map]

/-! ### What events do to the checks under way -/

theorem outstanding_modify {g : Flight → Flight} (hg : ∀ f, (g f).request = f.request)
    (fl : List Flight) (i : Nat) :
    (fl.modify i g).map Flight.request = fl.map Flight.request := by
  refine List.ext_getElem? fun j => ?_
  rw [List.getElem?_map, List.getElem?_map, List.getElem?_modify, Option.map_eq_map,
    Option.map_map]
  refine congrArg (Option.map · fl[j]?) (funext fun f => ?_)
  by_cases hij : i = j
  · exact (congrArg Flight.request (if_pos hij)).trans (hg f)
  · exact congrArg Flight.request (if_neg hij)

theorem outstanding_poll (w : Workbench) (now : Nat) :
    (w.step (.poll now)).outstanding = w.outstanding ++ (w.session.poll w.fs now).2.2 := by
  change (w.flights ++ List.map Flight.issued _).map Flight.request = _
  rw [List.map_append, List.map_map]
  exact congrArg (w.outstanding ++ ·) (List.map_id' _)

theorem outstanding_deliver {w : Workbench} {i : Nat} {c : CheckCompleted}
    (hc : w.flights[i]? = some (.finished c)) (now : Nat) :
    w.outstanding.Perm (c.request :: (w.step (.deliver i now)).outstanding) := by
  obtain ⟨hi, hget⟩ := List.getElem?_eq_some_iff.mp hc
  have hstep : (w.step (.deliver i now)).flights = w.flights.eraseIdx i := by rw [step, hc]
  have hperm : w.flights.Perm (.finished c :: w.flights.eraseIdx i) := by
    rw [← hget]
    exact (List.getElem_cons_eraseIdx_perm hi).symm
  rw [outstanding, outstanding, hstep]
  exact hperm.map Flight.request

/-- Nothing else moves the requests that are outstanding. -/
theorem outstanding_step {w : Workbench} {e : Event} (hp : ∀ now, e ≠ .poll now)
    (hd : ∀ i now c, e = .deliver i now → w.flights[i]? ≠ some (.finished c)) :
    (w.step e).outstanding = w.outstanding := by
  -- operations have no hand in the flights
  have hadopt : ∀ r, (w.adopt r).outstanding = w.outstanding := by
    rintro (_ | _) <;> rfl
  cases e with
  | poll now => exact absurd rfl (hp now)
  | submit i => exact outstanding_modify Flight.request_submit w.flights i
  | finish i e => exact outstanding_modify (Flight.request_finish e) w.flights i
  | answer i ds => exact outstanding_modify (Flight.request_answer ds) w.flights i
  | deliver i now =>
    rw [step]
    split
    · next c hc => exact absurd hc (hd i now c rfl)
    · rfl
  | close id =>
    rw [step]
    split <;> rfl
  | save id =>
    rw [step]
    split <;> rfl
  | openBuffer b now => rfl
  | disk fs => rfl
  | _ => exact hadopt _

/-! ### The count and the flag -/

/-- A poll issues one check of each open buffer that wants one. -/
theorem count_poll_requests {s : Session} (hs : s.WellFormed) {id : BufferId} {o : OpenBuffer}
    (ho : s.get? id = some o) (fs : FileSystem) (now : Nat) :
    ((s.poll fs now).2.2.map (·.buffer)).count id
      = if s.lintEnabled = true ∧ o.wantsCheck now = true then 1 else 0 := by
  rw [(hs.nodup_poll_requests fs now).count]
  refine if_congr ⟨fun hm => ?_, fun hw => ?_⟩ rfl rfl
  · obtain ⟨r, hr, rfl⟩ := List.mem_map.mp hm
    obtain ⟨hl, o', ho', hwants, -⟩ := hs.mem_poll_requests.mp hr
    obtain rfl := Option.some.inj (ho.symm.trans ho')
    exact ⟨hl, hwants⟩
  · exact List.mem_map.mpr
      ⟨o.request id, hs.mem_poll_requests.mpr ⟨hw.1, o, ho, hw.2, rfl⟩, rfl⟩

/-- The flags account for the checks that are outstanding. -/
structure Accounted (w : Workbench) : Prop where
  /-- Nothing is outstanding for identities that are still to be given out. -/
  known : ∀ r ∈ w.outstanding, r.buffer < w.session.nextId
  /-- The flag of an open buffer is the number of its checks. -/
  counted : ∀ id o, w.session.get? id = some o → w.underWay id = o.inFlight.toNat

theorem step_known {w : Workbench} (hs : w.session.WellFormed) (h : w.Accounted) (e : Event) :
    ∀ r ∈ (w.step e).outstanding, r.buffer < (w.step e).session.nextId := by
  intro r hr
  refine Nat.lt_of_lt_of_le ?_ (w.step_frame e).2.2
  -- requests come from polls and go with deliveries
  by_cases hp : ∃ now, e = .poll now
  · obtain ⟨now, rfl⟩ := hp
    rw [outstanding_poll, List.mem_append] at hr
    rcases hr with hr | hr
    · exact h.known r hr
    · obtain ⟨-, o, ho, -⟩ := hs.mem_poll_requests.mp hr
      exact hs.lt_nextId ho
  · by_cases hd : ∃ i now c, e = .deliver i now ∧ w.flights[i]? = some (.finished c)
    · obtain ⟨i, now, c, rfl, hc⟩ := hd
      exact h.known r ((outstanding_deliver hc now).mem_iff.mpr (List.mem_cons_of_mem _ hr))
    · rw [outstanding_step (fun now he => hp ⟨now, he⟩)
        fun i now c he hc => hd ⟨i, now, c, he, hc⟩] at hr
      exact h.known r hr

/-- A buffer that is touched keeps its count: a poll raises the count and the flag together, and a
delivery lowers them together, whether or not the findings count. -/
theorem Touched.counted {w : Workbench} (hs : w.session.WellFormed) {id : BufferId}
    {o o' : OpenBuffer} (ho : w.session.get? id = some o) {e : Event} (ht : Touched w id o e o')
    (h : w.underWay id = o.inFlight.toNat) : (w.step e).underWay id = o'.inFlight.toNat := by
  by_cases hp : ∃ now, e = .poll now
  · obtain ⟨now, rfl⟩ := hp
    rw [underWay, outstanding_poll, List.map_append, List.count_append,
      count_poll_requests hs ho, ← underWay, h]
    -- the poll adds a check exactly where it raises the flag
    cases ht with
    | spared spares => rw [if_neg spares, Nat.add_zero]
    | covered opens => exact opens.elim
    | issued enabled due =>
      have hidle : o.inFlight = false := by
        simpa using (Bool.and_eq_true_iff.mp due).1
      rw [if_pos ⟨enabled, due⟩, hidle]
      rfl
  · by_cases hd : ∃ i now c, e = .deliver i now ∧ w.flights[i]? = some (.finished c)
    · obtain ⟨i, now, c, rfl, hc⟩ := hd
      have hcount : w.underWay id
          = (w.step (.deliver i now)).underWay id + if c.request.buffer == id then 1 else 0 := by
        rw [underWay, ((outstanding_deliver hc now).map _).count_eq]
        exact List.count_cons
      cases ht with
      | spared spares =>
        -- the check of another buffer came back
        rw [if_neg (by simpa using spares c hc)] at hcount
        exact hcount.symm.trans h
      | covered opens => exact opens.elim
      | completed flight own =>
        obtain rfl := Flight.finished.inj (Option.some.inj (hc.symm.trans flight))
        rw [if_pos (by simpa using own)] at hcount
        -- the count was one before, so the check that came back was the only one
        have hone : o.inFlight.toNat ≤ 1 := Bool.toNat_le o.inFlight
        rw [OpenBuffer.receive_inFlight]
        change _ = 0
        omega
    · have hout := outstanding_step (fun now he => hp ⟨now, he⟩)
        fun i now c he hc => hd ⟨i, now, c, he, hc⟩
      rw [underWay, hout, ← underWay, h]
      -- no other event touches the flag
      cases ht with
      | edited applied => rw [OpenBuffer.armWhen_inFlight]; rfl
      | renamed => rw [OpenBuffer.armWhen_inFlight]; rfl
      | issued enabled due => exact absurd ⟨_, rfl⟩ hp
      | completed flight own => exact absurd ⟨_, _, _, rfl, flight⟩ hd
      | _ => rfl

theorem step_accounted {w : Workbench} (hs : w.session.WellFormed) (h : w.Accounted) (e : Event) :
    (w.step e).Accounted where
  known := step_known hs h e
  counted := by
    intro id o' ho'
    rcases touched_of_step hs ho' with ⟨o, ho, ht⟩ | ⟨rfl, opens, b, now, -, rfl⟩
    · exact ht.counted hs ho (h.counted id o ho)
    · -- a new buffer has a new identity, for which nothing can be outstanding
      have hout : (w.step e).outstanding = w.outstanding := by
        refine outstanding_step (fun now he => ?_) fun i now c he => ?_ <;>
        · subst he
          exact opens.elim
      rw [underWay, hout]
      refine List.count_eq_zero.mpr fun hm => ?_
      obtain ⟨r, hr, heq⟩ := List.mem_map.mp hm
      exact Nat.lt_irrefl _ (heq ▸ h.known r hr)

theorem Reachable.accounted {w : Workbench} (h : w.Reachable) : w.Accounted := by
  refine h.induction (fun quiet lint fs => ?_) fun w e hw ha => step_accounted hw.wellFormed ha e
  exact ⟨fun r hr => (nomatch hr), fun id o ho => (nomatch ho)⟩

/-! ### Every run -/

/-- A check that an open buffer has outstanding raises its flag. -/
theorem Accounted.inFlight_iff {w : Workbench} (h : w.Accounted) {id : BufferId} {o : OpenBuffer}
    (ho : w.session.get? id = some o) :
    o.inFlight = true ↔ ∃ r ∈ w.outstanding, r.buffer = id := by
  rw [← underWay_pos_iff, h.counted id o ho]
  cases o.inFlight <;> decide

/-- **The flag is exact.** After every run, an open buffer has at most one check outstanding, and
its flag says whether it has one. A poll issues no check for a buffer, open or closed, that has one
outstanding. A worker that ends, also by failing or breaking off, sends back what it was asked for.
When the check of an open buffer comes back, the buffer is still open and has neither the flag nor a
check outstanding, whether its findings were taken or discarded. -/
theorem flag_exact {w : Workbench} (hw : w.Reachable) :
    (∀ id o, w.session.get? id = some o → w.underWay id ≤ 1 ∧
      (o.inFlight = true ↔ ∃ r ∈ w.outstanding, r.buffer = id)) ∧
    (∀ now, ∀ r ∈ (w.session.poll w.fs now).2.2, ∀ r' ∈ w.outstanding, r'.buffer ≠ r.buffer) ∧
    (∀ i r e, w.flights[i]? = some (.running r) →
      ∃ c, (w.step (.finish i e)).flights[i]? = some (.finished c) ∧ c.request = r) ∧
    ∀ i c now o, w.flights[i]? = some (.finished c) →
      w.session.get? c.request.buffer = some o →
      ∃ o', (w.step (.deliver i now)).session.get? c.request.buffer = some o' ∧
        o'.inFlight = false ∧
        ∀ r ∈ (w.step (.deliver i now)).outstanding, r.buffer ≠ c.request.buffer := by
  have hs := hw.wellFormed
  have ha := hw.accounted
  refine ⟨fun id o ho => ⟨?_, ha.inFlight_iff ho⟩, fun now r hr r' hr' heq => ?_,
    fun i r e hi => ?_, fun i c now o hc ho => ?_⟩
  · rw [ha.counted id o ho]
    exact Bool.toNat_le o.inFlight
  · -- a buffer with a check outstanding wants no other one
    obtain ⟨-, o, ho, hwants, -⟩ := hs.mem_poll_requests.mp hr
    have hflag : o.inFlight = true := (ha.inFlight_iff ho).mpr ⟨r', hr', heq⟩
    rw [OpenBuffer.wantsCheck, hflag] at hwants
    cases hwants
  · refine ⟨e.complete r, ?_, Flight.request_finish e (.running r)⟩
    change (w.flights.modify i (Flight.finish e))[i]? = _
    rw [List.getElem?_modify_eq, hi]
    rfl
  · have hstep : (w.step (.deliver i now)).session = (w.session.completeCheck c now).1 := by
      rw [step, hc]
    have ho' : (w.step (.deliver i now)).session.get? c.request.buffer
        = some (o.receive c now).1 := by
      rw [hstep, Session.get?_completeCheck, ho, Option.map_some, if_pos rfl]
    have hflag : (o.receive c now).1.inFlight = false := o.receive_inFlight c now
    refine ⟨_, ho', hflag, fun r hr heq => ?_⟩
    -- the flag is exact again, so nothing is outstanding
    have ha' := step_accounted hs ha (.deliver i now)
    rw [(ha'.inFlight_iff ho').mpr ⟨r, hr, heq⟩] at hflag
    cases hflag

/-- A buffer is changed while its check is with a worker, and the worker breaks off. -/
def brokenOff : Workbench :=
  (start 5 true {}).run [.openBuffer ⟨⟨"a.py"⟩, "x\n", 0⟩ 0, .poll 5, .submit 0,
    .edit 0 6 (.setText "y\n"), .finish 0 .broken]

/-- What the worker sends back is discarded, and the buffer can be checked again. -/
theorem flag_exact_brokenOff :
    brokenOff.Reachable ∧ brokenOff.underWay 0 = 1 ∧
      ∃ o', (brokenOff.step (.deliver 0 7)).session.get? 0 = some o' ∧ o'.inFlight = false := by
  have hw : brokenOff.Reachable := ⟨5, true, {}, _, rfl⟩
  have hcount : brokenOff.underWay 0 = 1 := by decide +kernel
  have hopen : (brokenOff.session.get? 0).isSome = true := by decide +kernel
  have hc : brokenOff.flights[0]? = some (.finished ⟨⟨0, 0, ⟨"a.py"⟩⟩, []⟩) := by rfl
  obtain ⟨o, ho⟩ := Option.isSome_iff_exists.mp hopen
  obtain ⟨-, -, -, hdeliver⟩ := flag_exact hw
  obtain ⟨o', ho', hflag, -⟩ := hdeliver 0 _ 7 o hc ho
  exact ⟨hw, hcount, o', ho', hflag⟩

end EditorInsight.Workbench
