import EditorInsight.Proofs.Session.DueChecks

/-!
# Checks that settle

A check with other findings than the last ones sets the timer of its buffer again, so an editor that
does its checks itself goes on as long as findings change. With a linter that finds the same in a file
whenever it is asked they can change once: the first check of a buffer may have findings that the timer
does not remember, and the next check repeats them.

* `Session.runDueChecksListed` does the due checks and says of each of them whether it was painted, and
  `Session.recheck` does so at one time after the other. `Session.runDueChecks_eq_listed`: keeping the
  list changes nothing.
* `OpenBuffer.checksLeft` is how many checks of a buffer are still to come. One call takes from it what
  it does (`Session.recheck_step`), hence so do any number of calls
  (`Session.checksOf_add_checksLeft`).
* `Workbench.rechecking_settles`: at most two checks of a buffer, one of them painted; and two calls
  that come late enough stop all timers.
-/

namespace EditorInsight

/-- A check that an editor has done itself, and whether its findings were painted. -/
structure Handled where
  request : CheckRequest
  painted : Bool

namespace Handled

/-- How many of some checks were checks of a buffer. -/
def checksOf (id : BufferId) (done : List Handled) : Nat :=
  done.countP (·.request.buffer = id)

/-- How many of some checks were checks of a buffer and painted. -/
def repaintsOf (id : BufferId) (done : List Handled) : Nat :=
  done.countP fun x => x.request.buffer = id ∧ x.painted = true

theorem checksOf_append (id : BufferId) (done later : List Handled) :
    checksOf id (done ++ later) = checksOf id done + checksOf id later :=
  List.countP_append

theorem repaintsOf_append (id : BufferId) (done later : List Handled) :
    repaintsOf id (done ++ later) = repaintsOf id done + repaintsOf id later :=
  List.countP_append

theorem repaintsOf_le_checksOf (id : BufferId) (done : List Handled) :
    repaintsOf id done ≤ checksOf id done := by
  refine List.countP_mono_left fun x _ hx => ?_
  exact decide_eq_true (of_decide_eq_true hx).1

end Handled

/-! ### What is still to come -/

namespace OpenBuffer

/-- What becomes of a buffer whose check is issued and done at once. -/
def rechecked (o : OpenBuffer) (id : BufferId) (ds : List Diagnostic) (now : Nat) :
    OpenBuffer × Bool :=
  o.issued.receive ((o.request id).complete ds) now

/-- How many checks of a buffer are still to come if nothing else happens and each of them has the
findings `ds`: none without a timer, one if the timer remembers these findings, and otherwise one more,
which is painted and sets the timer again. -/
def checksLeft (ds : List Diagnostic) (o : OpenBuffer) : Nat :=
  if o.debouncer.isPending then (if o.debouncer.lastFired = some ds then 1 else 2) else 0

theorem checksLeft_le_two (ds : List Diagnostic) (o : OpenBuffer) : o.checksLeft ds ≤ 2 := by
  unfold checksLeft
  split
  · split <;> decide
  · decide

theorem checksLeft_eq_zero_iff (ds : List Diagnostic) (o : OpenBuffer) :
    o.checksLeft ds = 0 ↔ o.debouncer.isPending = false := by
  unfold checksLeft
  cases o.debouncer.isPending with
  | false => simp
  | true =>
    simp only [if_true]
    split <;> simp

theorem isPending_of_wantsCheck {o : OpenBuffer} {now : Nat} (h : o.wantsCheck now = true) :
    o.debouncer.isPending = true := by
  have hdue : o.debouncer.deadline.any (· ≤ now) = true := (Bool.and_eq_true_iff.mp h).2
  obtain ⟨d, hd, -⟩ := (Option.any_eq_true _ _).mp hdue
  rw [Debouncer.isPending, hd]
  rfl

theorem rechecked_buffer (o : OpenBuffer) (id : BufferId) (ds : List Diagnostic) (now : Nat) :
    (o.rechecked id ds now).1.buffer = o.buffer :=
  o.issued.receive_buffer _ now

/-- A check uses up one of those that were to come. It is painted exactly if there is one more. -/
theorem checksLeft_rechecked {o : OpenBuffer} (ds : List Diagnostic) (id : BufferId) {now : Nat}
    (h : o.wantsCheck now = true) :
    1 + (o.rechecked id ds now).1.checksLeft ds = o.checksLeft ds ∧
      (o.rechecked id ds now).2.toNat + ((o.rechecked id ds now).1.checksLeft ds - 1)
        = o.checksLeft ds - 1 := by
  have hpending := isPending_of_wantsCheck h
  have haccepts : o.issued.accepts ((o.request id).complete ds).request = true :=
    o.accepts_request id
  rcases o.issued.receive_cases ((o.request id).complete ds) now with ⟨hrec, hwhy⟩ | ⟨hrec, -, hother⟩
  · -- the timer was used up, and the findings do not set it again
    have hsame : o.debouncer.lastFired = some ds := by
      rcases hwhy with hdiscarded | hsame
      · exact absurd (haccepts.symm.trans hdiscarded) (Ne.symm Bool.false_ne_true)
      · exact hsame
    have hbefore : o.checksLeft ds = 1 := by
      rw [checksLeft, if_pos hpending, if_pos hsame]
    have hafter : (o.rechecked id ds now).1.checksLeft ds = 0 := by
      rw [rechecked, hrec]
      rfl
    have hflag : (o.rechecked id ds now).2 = false := by
      rw [rechecked, hrec]
    rw [hbefore, hafter, hflag]
    exact ⟨rfl, rfl⟩
  · -- the findings are new, and from now on the timer remembers them
    have hnew : ¬ o.debouncer.lastFired = some ds := hother
    have hbefore : o.checksLeft ds = 2 := by
      rw [checksLeft, if_pos hpending, if_neg hnew]
    have hafter : (o.rechecked id ds now).1.checksLeft ds = 1 := by
      rw [rechecked, hrec, checksLeft]
      exact (if_pos rfl).trans (if_pos rfl)
    have hflag : (o.rechecked id ds now).2 = true := by
      rw [rechecked, hrec]
    rw [hbefore, hafter, hflag]
    exact ⟨rfl, rfl⟩

end OpenBuffer

namespace Session

/-- How many checks of a buffer are still to come if the session does nothing but run the checks that
are due, with the given findings. -/
def checksLeft (found : Path → List Diagnostic) (s : Session) (id : BufferId) : Nat :=
  (s.get? id).elim 0 fun o => o.checksLeft (found o.buffer.path)

/-- Whether no check is under way. -/
def Idle (s : Session) : Prop := ∀ p ∈ s.buffers, p.2.inFlight = false

/-- Whether every timer that runs is over. -/
def Rested (s : Session) (now : Nat) : Prop :=
  ∀ p ∈ s.buffers, ∀ d ∈ p.2.debouncer.deadline, d ≤ now

instance (s : Session) : Decidable s.Idle :=
  inferInstanceAs (Decidable (∀ p ∈ s.buffers, p.2.inFlight = false))

instance (s : Session) (now : Nat) : Decidable (s.Rested now) :=
  inferInstanceAs (Decidable (∀ p ∈ s.buffers, ∀ d ∈ p.2.debouncer.deadline, d ≤ now))

theorem checksLeft_of_open {found : Path → List Diagnostic} {s : Session} {id : BufferId}
    {o : OpenBuffer} (ho : s.get? id = some o) :
    s.checksLeft found id = o.checksLeft (found o.buffer.path) := by
  rw [checksLeft, ho]
  rfl

theorem checksLeft_of_closed {found : Path → List Diagnostic} {s : Session} {id : BufferId}
    (hclosed : s.get? id = none) : s.checksLeft found id = 0 := by
  rw [checksLeft, hclosed]
  rfl

theorem checksLeft_le_two (found : Path → List Diagnostic) (s : Session) (id : BufferId) :
    s.checksLeft found id ≤ 2 := by
  cases ho : s.get? id with
  | none =>
    rw [checksLeft_of_closed ho]
    exact Nat.zero_le _
  | some o =>
    rw [checksLeft_of_open ho]
    exact o.checksLeft_le_two _

/-! ### Keeping a list -/

section Listing

variable {σ : Type}

/-- Runs checks like `Session.runChecks`, and says of each one what became of it. -/
def runChecksListed (check : Path → StateM σ (List Diagnostic)) (now : Nat) :
    Session → List CheckRequest → StateM σ (Session × List Handled)
  | s, [] => return (s, [])
  | s, r :: rest => do
    let ds ← check r.path
    let (s, painted) := s.completeCheck (r.complete ds) now
    let (s, done) ← runChecksListed check now s rest
    return (s, ⟨r, painted⟩ :: done)

/-- Runs the due checks like `Session.runDueChecks`, and says of each one what became of it. -/
def runDueChecksListed (check : FileSystem → Path → StateM σ (List Diagnostic)) (s : Session)
    (fs : FileSystem) (now : Nat) : StateM σ (Session × FileSystem × List Handled) := do
  let (s, fs, requests) := s.poll fs now
  let (s, done) ← runChecksListed (check fs) now s requests
  return (s, fs, done)

/-- Runs the due checks at one time after the other and does nothing else in between. Each time the
files are given, since other programs may change them from one time to the next. -/
def recheck (check : FileSystem → Path → StateM σ (List Diagnostic)) :
    Session → List (Nat × FileSystem) → StateM σ (Session × List Handled)
  | s, [] => return (s, [])
  | s, (now, fs) :: calls => do
    let (s, _, done) ← s.runDueChecksListed check fs now
    let (s, later) ← recheck check s calls
    return (s, done ++ later)

theorem runChecksListed_cons (check : Path → StateM σ (List Diagnostic)) (now : Nat) (s : Session)
    (r : CheckRequest) (rest : List CheckRequest) (a : σ) :
    runChecksListed check now s (r :: rest) a
      = let done := r.complete (check r.path a).1
        let later := runChecksListed check now (s.completeCheck done now).1 rest (check r.path a).2
        ((later.1.1, ⟨r, (s.completeCheck done now).2⟩ :: later.1.2), later.2) :=
  rfl

theorem recheck_cons (check : FileSystem → Path → StateM σ (List Diagnostic)) (s : Session)
    (now : Nat) (fs : FileSystem) (calls : List (Nat × FileSystem)) (a : σ) :
    s.recheck check ((now, fs) :: calls) a
      = let first := s.runDueChecksListed check fs now a
        let later := first.1.1.recheck check calls first.2
        ((later.1.1, first.1.2.2 ++ later.1.2), later.2) :=
  rfl

theorem runChecks_eq_listed (check : Path → StateM σ (List Diagnostic)) (now : Nat)
    (requests : List CheckRequest) (s : Session) (a : σ) :
    runChecks check now s requests a
      = let listed := runChecksListed check now s requests a
        ((listed.1.1, listed.1.2.countP (·.painted)), listed.2) := by
  induction requests generalizing s a with
  | nil => rfl
  | cons r rest ih =>
    rw [runChecks_cons, runChecksListed_cons]
    dsimp only
    rw [ih, List.countP_cons]
    -- the first check counts exactly if it was painted
    cases (s.completeCheck (r.complete (check r.path a).1) now).2 <;> rfl

/-- **The list says what was done.** It counts as many painted checks as the caller is told. -/
theorem runDueChecks_eq_listed (check : FileSystem → Path → StateM σ (List Diagnostic))
    (s : Session) (fs : FileSystem) (now : Nat) (a : σ) :
    s.runDueChecks check fs now a
      = let listed := s.runDueChecksListed check fs now a
        ((listed.1.1, listed.1.2.1, listed.1.2.2.countP (·.painted)), listed.2) := by
  rw [runDueChecks_apply, runChecks_eq_listed]
  rfl

/-- With findings that depend on the path alone, checks of different buffers can be looked at one by
one: each is painted if it would be painted alone. -/
theorem runChecksListed_steady {check : Path → StateM σ (List Diagnostic)}
    {found : Path → List Diagnostic} (steady : ∀ p a, (check p a).1 = found p) (now : Nat)
    {requests : List CheckRequest} (hdifferent : (requests.map (·.buffer)).Nodup) (s : Session)
    (a : σ) :
    (runChecksListed check now s requests a).1
      = ((s.deliverAll now (requests.map fun r => r.complete (found r.path))).1,
          requests.map fun r => ⟨r, (s.completeCheck (r.complete (found r.path)) now).2⟩) := by
  induction requests generalizing s a with
  | nil => rfl
  | cons r rest ih =>
    rw [List.map_cons, List.nodup_cons] at hdifferent
    rw [runChecksListed_cons]
    dsimp only
    rw [steady, ih hdifferent.2, List.map_cons, List.map_cons, deliverAll_cons]
    -- the check that is done first concerns another buffer than the later ones
    have hlater : ∀ r' ∈ rest,
        ((s.completeCheck (r.complete (found r.path)) now).1.completeCheck
          (r'.complete (found r'.path)) now).2
          = (s.completeCheck (r'.complete (found r'.path)) now).2 := by
      intro r' hr'
      have hne : (r.complete (found r.path)).request.buffer
          ≠ (r'.complete (found r'.path)).request.buffer :=
        fun heq => hdifferent.1 (heq ▸ List.mem_map_of_mem hr')
      exact (s.completeCheck_comm hne now).2
    have hlist : (rest.map fun r' => Handled.mk r'
        ((s.completeCheck (r.complete (found r.path)) now).1.completeCheck
          (r'.complete (found r'.path)) now).2)
        = rest.map fun r' => Handled.mk r'
            (s.completeCheck (r'.complete (found r'.path)) now).2 :=
      List.map_congr_left fun r' hr' => congrArg (Handled.mk r') (hlater r' hr')
    rw [hlist]

end Listing

/-! ### One call -/

section Call

variable {σ : Type} {check : FileSystem → Path → StateM σ (List Diagnostic)}
  {found : Path → List Diagnostic}
  (steady : ∀ fs p a, (check fs p a).1 = found p) {s : Session} (hs : s.WellFormed)
  (fs : FileSystem) (now : Nat) (a : σ)
include steady hs

theorem runDueChecksListed_steady :
    (s.runDueChecksListed check fs now a).1
      = (((s.poll fs now).1.deliverAll now
            ((s.poll fs now).2.2.map fun r => r.complete (found r.path))).1,
          (s.poll fs now).2.1,
          (s.poll fs now).2.2.map fun r =>
            ⟨r, ((s.poll fs now).1.completeCheck (r.complete (found r.path)) now).2⟩) := by
  have hlisted := runChecksListed_steady (steady (s.poll fs now).2.1) now
    (hs.nodup_poll_requests fs now) (s.poll fs now).1 a
  have hparts : (s.runDueChecksListed check fs now a).1
      = ((runChecksListed (check (s.poll fs now).2.1) now (s.poll fs now).1
            (s.poll fs now).2.2 a).1.1, (s.poll fs now).2.1,
          (runChecksListed (check (s.poll fs now).2.1) now (s.poll fs now).1
            (s.poll fs now).2.2 a).1.2) := rfl
  rw [hparts, hlisted]

theorem sameFrame_runDueChecksListed :
    SameFrame s (s.runDueChecksListed check fs now a).1.1 := by
  have hsteady := runDueChecksListed_steady steady hs fs now a
  rw [hsteady]
  exact (SameFrame.poll s fs now).trans (SameFrame.deliverAll _ _ now)

/-- A buffer whose check is due has it done, and any other buffer is left alone. -/
theorem get?_runDueChecksListed {id : BufferId} {o : OpenBuffer} (ho : s.get? id = some o) :
    (s.runDueChecksListed check fs now a).1.1.get? id
      = some (if s.lintEnabled = true ∧ o.wantsCheck now = true
          then (o.rechecked id (found o.buffer.path) now).1 else o) := by
  have hsteady := runDueChecksListed_steady steady hs fs now a
  rw [hsteady]
  have hissued : (s.poll fs now).1.get? id
      = some (if s.lintEnabled = true ∧ o.wantsCheck now = true then o.issued else o) := by
    rw [get?_poll, ho, Option.map_some]
  by_cases hdue : s.lintEnabled = true ∧ o.wantsCheck now = true
  · rw [if_pos hdue] at hissued ⊢
    have hmem : (o.request id).complete (found o.buffer.path)
        ∈ (s.poll fs now).2.2.map fun r => r.complete (found r.path) := by
      refine List.mem_map.mpr ⟨o.request id, ?_, rfl⟩
      exact hs.mem_poll_requests.mpr ⟨hdue.1, o, ho, hdue.2, rfl⟩
    have hdifferent : (((s.poll fs now).2.2.map fun r => r.complete (found r.path)).map
        (·.request.buffer)).Nodup := by
      rw [List.map_map]
      exact hs.nodup_poll_requests fs now
    have htaken := get?_deliverAll_of_mem hmem hdifferent (s.poll fs now).1 now
    exact htaken.trans (congrArg _ hissued)
  · rw [if_neg hdue] at hissued ⊢
    -- none of the checks is one of this buffer
    rw [get?_deliverAll_of_not_mem, hissued]
    rw [List.map_map]
    intro hmem
    obtain ⟨r, hr, hid⟩ := List.mem_map.mp hmem
    obtain ⟨hlint, o', ho', hwants, -⟩ := hs.mem_poll_requests.mp hr
    replace hid : r.buffer = id := hid
    rw [hid] at ho'
    obtain rfl := Option.some.inj (ho.symm.trans ho')
    exact hdue ⟨hlint, hwants⟩

/-- A call does one check of a buffer whose check is due. -/
theorem checksOf_runDueChecksListed {id : BufferId} {o : OpenBuffer} (ho : s.get? id = some o) :
    Handled.checksOf id (s.runDueChecksListed check fs now a).1.2.2
      = if s.lintEnabled = true ∧ o.wantsCheck now = true then 1 else 0 := by
  have hsteady := runDueChecksListed_steady steady hs fs now a
  rw [hsteady, ← Workbench.count_poll_requests hs ho fs now, List.count, List.countP_map,
    Handled.checksOf, List.countP_map]
  rfl

/-- It is painted if the same check would be painted alone. -/
theorem repaintsOf_runDueChecksListed {id : BufferId} {o : OpenBuffer} (ho : s.get? id = some o) :
    Handled.repaintsOf id (s.runDueChecksListed check fs now a).1.2.2
      = if s.lintEnabled = true ∧ o.wantsCheck now = true
          then (o.rechecked id (found o.buffer.path) now).2.toNat else 0 := by
  have hsteady := runDueChecksListed_steady steady hs fs now a
  have hchecks := checksOf_runDueChecksListed steady hs fs now a ho
  -- what is known of every check of this buffer in the list
  have hflag : ∀ x ∈ (s.runDueChecksListed check fs now a).1.2.2, x.request.buffer = id →
      x.painted = (o.rechecked id (found o.buffer.path) now).2 := by
    intro x hx hid
    rw [hsteady] at hx
    obtain ⟨r, hr, rfl⟩ := List.mem_map.mp hx
    replace hid : r.buffer = id := hid
    obtain ⟨hlint, o', ho', hwants, hreq⟩ := hs.mem_poll_requests.mp hr
    rw [hid] at ho' hreq
    obtain rfl := Option.some.inj (ho.symm.trans ho')
    have hissued : (s.poll fs now).1.get? id = some o.issued := by
      rw [get?_poll, ho, Option.map_some, if_pos ⟨hlint, hwants⟩]
    subst hreq
    exact completeCheck_snd _ hissued now
  cases hpainted : (o.rechecked id (found o.buffer.path) now).2 with
  | true =>
    rw [Bool.toNat_true, ← hchecks]
    refine List.countP_congr fun x hx => ?_
    rw [decide_eq_true_iff, decide_eq_true_iff]
    exact and_iff_left_of_imp fun hid => (hflag x hx hid).trans hpainted
  | false =>
    rw [Bool.toNat_false, ite_self]
    refine List.countP_eq_zero.mpr fun x hx => ?_
    rw [decide_eq_true_iff]
    rintro ⟨hid, hp⟩
    exact Bool.false_ne_true (hpainted.symm.trans ((hflag x hx hid).symm.trans hp))

/-- Nothing is checked that is not open. -/
theorem checksOf_runDueChecksListed_of_closed {id : BufferId} (hclosed : s.get? id = none) :
    Handled.checksOf id (s.runDueChecksListed check fs now a).1.2.2 = 0 := by
  have hsteady := runDueChecksListed_steady steady hs fs now a
  rw [hsteady]
  refine List.countP_eq_zero.mpr fun x hx => ?_
  obtain ⟨r, hr, rfl⟩ := List.mem_map.mp hx
  obtain ⟨-, o, ho, -⟩ := hs.mem_poll_requests.mp hr
  rw [decide_eq_true_iff]
  intro hid
  replace hid : r.buffer = id := hid
  rw [hid, hclosed] at ho
  cases ho

/-- **One call.** It takes from the checks that are still to come those that it does, and from the
repaints those that it paints. -/
theorem recheck_step (id : BufferId) :
    let listed := (s.runDueChecksListed check fs now a).1
    Handled.checksOf id listed.2.2 + listed.1.checksLeft found id = s.checksLeft found id ∧
      Handled.repaintsOf id listed.2.2 + (listed.1.checksLeft found id - 1)
        = s.checksLeft found id - 1 := by
  dsimp only
  cases ho : s.get? id with
  | none =>
    -- what is closed stays closed, and is neither checked nor painted
    have hframe := sameFrame_runDueChecksListed steady hs fs now a
    have hclosed : (s.runDueChecksListed check fs now a).1.1.get? id = none := by
      rw [get?_eq_none_iff, hframe.ids, ← get?_eq_none_iff]
      exact ho
    have hchecks := checksOf_runDueChecksListed_of_closed steady hs fs now a ho
    have hrepaints := Handled.repaintsOf_le_checksOf id (s.runDueChecksListed check fs now a).1.2.2
    rw [checksLeft_of_closed hclosed, checksLeft_of_closed ho, hchecks]
    exact ⟨rfl, by omega⟩
  | some o =>
    have hopen := get?_runDueChecksListed steady hs fs now a ho
    have hchecks := checksOf_runDueChecksListed steady hs fs now a ho
    have hrepaints := repaintsOf_runDueChecksListed steady hs fs now a ho
    rw [checksLeft_of_open hopen, checksLeft_of_open ho, hchecks, hrepaints]
    by_cases hdue : s.lintEnabled = true ∧ o.wantsCheck now = true
    · rw [if_pos hdue, if_pos hdue, if_pos hdue, o.rechecked_buffer]
      exact OpenBuffer.checksLeft_rechecked _ id hdue.2
    · rw [if_neg hdue, if_neg hdue, if_neg hdue]
      exact ⟨Nat.zero_add _, Nat.zero_add _⟩

/-- A call that comes after all timers leaves each buffer idle, with one check less to come. -/
theorem recheck_step_late (enabled : s.lintEnabled = true)
    (idle : s.Idle) (late : s.Rested now) {id : BufferId} {o' : OpenBuffer}
    (ho' : (s.runDueChecksListed check fs now a).1.1.get? id = some o') :
    o'.inFlight = false ∧ o'.checksLeft (found o'.buffer.path) = s.checksLeft found id - 1 := by
  have hframe := sameFrame_runDueChecksListed steady hs fs now a
  obtain ⟨o, ho⟩ : ∃ o, s.get? id = some o := by
    rw [← mem_ids_iff, ← hframe.ids, mem_ids_iff]
    exact ⟨o', ho'⟩
  have hopen := get?_runDueChecksListed steady hs fs now a ho
  obtain rfl := Option.some.inj (ho'.symm.trans hopen)
  rw [checksLeft_of_open ho]
  by_cases hwants : o.wantsCheck now = true
  · rw [if_pos ⟨enabled, hwants⟩, o.rechecked_buffer]
    have hstep := (OpenBuffer.checksLeft_rechecked (found o.buffer.path) id hwants).1
    exact ⟨o.issued.receive_inFlight _ now, by omega⟩
  · -- it is idle and its timer would be over, so it has none
    rw [if_neg fun hdue => hwants hdue.2]
    have hflag : o.inFlight = false := idle (id, o) (mem_of_lookup ho)
    have htimer : o.debouncer.deadline = none := by
      refine Option.eq_none_iff_forall_ne_some.mpr fun d hd => hwants ?_
      rw [OpenBuffer.wantsCheck, hflag, Debouncer.isDue, hd]
      exact decide_eq_true (late (id, o) (mem_of_lookup ho) d hd)
    have hzero : o.checksLeft (found o.buffer.path) = 0 := by
      rw [OpenBuffer.checksLeft_eq_zero_iff, Debouncer.isPending, htimer]
      rfl
    rw [hzero]
    exact ⟨hflag, rfl⟩

end Call

/-! ### Any number of calls -/

theorem checksOf_add_checksLeft {σ : Type} {check : FileSystem → Path → StateM σ (List Diagnostic)}
    {found : Path → List Diagnostic} (steady : ∀ fs p a, (check fs p a).1 = found p)
    (calls : List (Nat × FileSystem)) {s : Session} (hs : s.WellFormed) (a : σ) (id : BufferId) :
    let checked := (s.recheck check calls a).1
    Handled.checksOf id checked.2 + checked.1.checksLeft found id = s.checksLeft found id ∧
      Handled.repaintsOf id checked.2 + (checked.1.checksLeft found id - 1)
        = s.checksLeft found id - 1 := by
  dsimp only
  induction calls generalizing s a with
  | nil => exact ⟨Nat.zero_add _, Nat.zero_add _⟩
  | cons call calls ih =>
    obtain ⟨now, fs⟩ := call
    -- each call pays for its checks with what is left to come
    have hframe := sameFrame_runDueChecksListed steady hs fs now a
    obtain ⟨hchecks, hrepaints⟩ := recheck_step steady hs fs now a id
    obtain ⟨hlater, hlater'⟩ := ih (hs.of_sameFrame hframe) (s.runDueChecksListed check fs now a).2
    rw [recheck_cons]
    dsimp only at hchecks hrepaints ⊢
    rw [Handled.checksOf_append, Handled.repaintsOf_append]
    exact ⟨by omega, by omega⟩

/-- After two calls, each of them later than all timers, no timer runs: the first leaves at most one
check of each buffer to come, and the second none. -/
theorem idle_of_late_calls {σ : Type} {check : FileSystem → Path → StateM σ (List Diagnostic)}
    {found : Path → List Diagnostic} (steady : ∀ fs p a, (check fs p a).1 = found p) {s : Session}
    (hs : s.WellFormed) (enabled : s.lintEnabled = true)
    (idle : s.Idle) (now : Nat) (fs : FileSystem) (later : Nat) (fs' : FileSystem) (a : σ) :
    let first := s.runDueChecksListed check fs now a
    let second := first.1.1.runDueChecksListed check fs' later first.2
    s.Rested now → first.1.1.Rested later →
      ∀ id o, second.1.1.get? id = some o → o.debouncer.isPending = false := by
  dsimp only
  intro hfirst hsecond id o ho
  have hframe := sameFrame_runDueChecksListed steady hs fs now a
  have hs₁ := hs.of_sameFrame hframe
  -- the first call leaves what the second one asks for
  have enabled₁ := hframe.lintEnabled.trans enabled
  have idle₁ : Idle (s.runDueChecksListed check fs now a).1.1 := by
    intro p hp
    have hopen := (hs₁.mem_buffers_iff p.1 p.2).mp hp
    exact (recheck_step_late steady hs fs now a enabled idle hfirst hopen).1
  have hone : checksLeft found (s.runDueChecksListed check fs now a).1.1 id ≤ 1 := by
    cases ho₁ : (s.runDueChecksListed check fs now a).1.1.get? id with
    | none =>
      rw [checksLeft_of_closed ho₁]
      exact Nat.zero_le 1
    | some o₁ =>
      have hstep := (recheck_step_late steady hs fs now a enabled idle hfirst ho₁).2
      have hle := s.checksLeft_le_two found id
      rw [checksLeft_of_open ho₁, hstep]
      omega
  -- and one check less is none
  have hstep := (recheck_step_late steady hs₁ fs' later _ enabled₁ idle₁ hsecond ho).2
  rw [← OpenBuffer.checksLeft_eq_zero_iff (found o.buffer.path), hstep]
  omega

end Session

namespace Workbench

/-- **Checks settle.** Take a linter that finds the same for a path whenever it is asked, whatever else
it does. In every state that a session can get into, running the due checks any number of times, at
any times and with whatever has become of the files, does at most two checks of each buffer and paints
at most one of them. If checking is switched on, no check is under way, and each of two calls comes
when all timers are over, then no timer runs after the second one. The checks that are counted are
those that the calls do: doing them and listing them is the same. -/
theorem rechecking_settles {σ : Type} (lint : FileSystem → Lint.Linter (StateM σ))
    (found : Path → List Diagnostic)
    (steady : ∀ fs p a, Lint.findingsOf (lint fs p a).1 = found p) (w : Workbench) (hw : w.Possible)
    (a : σ) :
    (∀ calls id,
      let done := (w.session.recheck (fun fs => Lint.check (lint fs)) calls a).1.2
      Handled.checksOf id done ≤ 2 ∧ Handled.repaintsOf id done ≤ 1) ∧
    (w.session.lintEnabled = true → w.session.Idle → ∀ now fs later fs',
        let first := w.session.runDueChecks (fun fs => Lint.check (lint fs)) fs now a
        let second := first.1.1.runDueChecks (fun fs => Lint.check (lint fs)) fs' later first.2
        w.session.Rested now → first.1.1.Rested later →
          ∀ id o, second.1.1.get? id = some o → o.debouncer.isPending = false) ∧
    ∀ (s : Session) fs now b,
      let listed := s.runDueChecksListed (fun fs => Lint.check (lint fs)) fs now b
      s.runDueChecks (fun fs => Lint.check (lint fs)) fs now b
        = ((listed.1.1, listed.1.2.1, listed.1.2.2.countP (·.painted)), listed.2) := by
  have hs := hw.wellFormed
  have hsteady : ∀ fs p b, (Lint.check (lint fs) p b).1 = found p := steady
  refine ⟨fun calls id => ?_, fun enabled idle now fs later fs' => ?_, fun s fs now b => ?_⟩
  · -- no buffer has more than two checks to come, of which the last one is not painted
    obtain ⟨hchecks, hrepaints⟩ := Session.checksOf_add_checksLeft hsteady calls hs a id
    have hle := w.session.checksLeft_le_two found id
    dsimp only at hchecks hrepaints ⊢
    omega
  · dsimp only
    rw [Session.runDueChecks_eq_listed, Session.runDueChecks_eq_listed]
    exact Session.idle_of_late_calls hsteady hs enabled idle now fs later fs' a
  · exact Session.runDueChecks_eq_listed _ s fs now b

/-- A linter that cannot be run, and counts how often that was tried. -/
def countedLinter : Lint.Linter (StateM Nat) := fun _ n => (.error ⟨"not found"⟩, n + 1)

/-- Two buffers that were opened one after the other, so only the second one waits for a check. -/
def secondWaits : Workbench :=
  (start 5 true {}).run [.openBuffer ⟨⟨"a.py"⟩, "x\n", 0⟩ 0, .openBuffer ⟨⟨"b.py"⟩, "y\n", 0⟩ 1]

/-- Of three calls two find something to do, and when they have done it no timer runs. -/
theorem rechecking_settles_counted :
    secondWaits.Possible ∧ secondWaits.session.lintEnabled = true ∧ secondWaits.session.Idle ∧
      (let checked := secondWaits.session.recheck (fun _ => Lint.check countedLinter)
        [(6, {}), (11, {}), (16, {})] 0
      checked.2 = 2 ∧ Handled.checksOf 1 checked.1.2 ≤ 2 ∧
        Handled.repaintsOf 1 checked.1.2 ≤ 1) ∧
      let first := secondWaits.session.runDueChecks (fun _ => Lint.check countedLinter) {} 6 0
      let second := first.1.1.runDueChecks (fun _ => Lint.check countedLinter) {} 11 first.2
      secondWaits.session.Rested 6 ∧ first.1.1.Rested 11 ∧
        ∀ id o, second.1.1.get? id = some o → o.debouncer.isPending = false := by
  have hw : secondWaits.Possible := ⟨5, true, {}, [], _, rfl⟩
  have hidle : secondWaits.session.Idle := by decide +kernel
  have hfirst : secondWaits.session.Rested 6 := by decide +kernel
  have hsecond : Session.Rested (secondWaits.session.runDueChecks
      (fun _ => Lint.check countedLinter) {} 6 0).1.1 11 := by
    decide +kernel
  obtain ⟨hcounts, hlate, -⟩ :=
    rechecking_settles (fun _ => countedLinter) (fun _ => []) (fun _ _ _ => rfl) secondWaits hw 0
  obtain ⟨hchecks, hrepaints⟩ := hcounts [(6, {}), (11, {}), (16, {})] 1
  exact ⟨hw, rfl, hidle, ⟨by decide +kernel, hchecks, hrepaints⟩, hfirst, hsecond,
    hlate rfl hidle 6 {} 11 {} hfirst hsecond⟩

end Workbench

end EditorInsight
