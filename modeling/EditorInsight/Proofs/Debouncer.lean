import EditorInsight.Debouncer
import Mathlib.Logic.ExistsUnique

/-!
# Histories of a debouncer

What a debouncer answers depends on all calls before, and the times of these need not ascend. But it
depends on them in a simple way: the timer is as the last call left it that armed or stopped it, and
the memory holds the findings that were recorded last, unless they were forgotten since. So every
answer can be read off the history of calls and answers, without looking at the state.

* `Debouncer.Call` is what a debouncer may be asked for, `Debouncer.Entry` the same with the answer,
  and `Debouncer.history` what a row of calls comes to.
* `Debouncer.Since` says that something stands at one place of a history, and nothing of another kind
  between it and a later place.
* `Debouncer.deadline_before_iff` and `Debouncer.lastFired_before_iff` read the two parts of the state
  off the history.
* `Debouncer.answers_exact` says what every poll and every record answer.
-/

namespace EditorInsight.Debouncer

/-- What a debouncer may be asked for. -/
inductive Call where
  | change (now : Nat)
  | cancel
  | poll (now : Nat)
  | record (findings : List Diagnostic) (now : Nat)
  | reset
deriving DecidableEq, Repr

/-- A call with its answer. -/
inductive Entry where
  | change (now : Nat)
  | cancel
  | poll (now : Nat) (due : Bool)
  | record (findings : List Diagnostic) (now : Nat) (outcome : CheckOutcome)
  | reset
deriving DecidableEq, Repr

/-- The debouncer after a call, and what is noted of the call. -/
def perform (d : Debouncer) : Call → Debouncer × Entry
  | .change now => (d.arm now, .change now)
  | .cancel => (d.cancel, .cancel)
  | .poll now => ((d.poll now).1, .poll now (d.poll now).2)
  | .record findings now => ((d.record findings now).1, .record findings now (d.record findings now).2)
  | .reset => (d.reset, .reset)

/-- The debouncer after a row of calls. -/
def after (d : Debouncer) (calls : List Call) : Debouncer :=
  calls.foldl (fun d call => (d.perform call).1) d

/-- What is noted of a row of calls. -/
def history (d : Debouncer) : List Call → List Entry
  | [] => []
  | call :: calls => (d.perform call).2 :: history (d.perform call).1 calls

/-! ### What an entry says -/

namespace Entry

/-- Whether a call armed the timer at a time: it was a change, or a record of other findings. -/
def ArmsAt (t : Nat) : Entry → Prop
  | change now => now = t
  | record _ now .changed => now = t
  | _ => False

/-- Whether a call armed the timer, or stopped it: a poll stops it if it is due. -/
def TouchesTimer : Entry → Prop
  | change _ | cancel | poll _ true | record _ _ .changed => True
  | _ => False

/-- Whether a call recorded some findings, be they other ones or the same. -/
def Records (findings : List Diagnostic) : Entry → Prop
  | record findings' _ _ => findings' = findings
  | _ => False

/-- Whether a call recorded findings, or forgot them. -/
def TouchesMemory : Entry → Prop
  | record _ _ _ | reset => True
  | _ => False

end Entry

/-- Something that satisfies `p` stands at place `i` of a history, and up to place `j` nothing that
satisfies `q`. -/
structure Since (p q : Entry → Prop) (h : List Entry) (i j : Nat) : Prop where
  before : i < j
  start : ∃ e, h[i]? = some e ∧ p e
  between : ∀ k e, i < k → k < j → h[k]? = some e → ¬ q e

/-- The timer armed at place `i` makes the poll at place `j` due. -/
def Fires (h : List Entry) (i j : Nat) : Prop :=
  ∃ t now, Since (Entry.ArmsAt t) Entry.TouchesTimer h i j ∧ h[j]? = some (.poll now true)

/-! ### One call -/

section Step

variable {d : Debouncer} {call : Call}

theorem quiet_perform (d : Debouncer) (call : Call) : (d.perform call).1.quiet = d.quiet := by
  cases call with
  | poll now =>
    simp only [perform, poll]
    split <;> rfl
  | record findings now =>
    simp only [perform, record]
    split <;> rfl
  | _ => rfl

/-- A timer that runs was set by this call, or ran before and was left alone. -/
theorem deadline_perform_iff {deadline : Nat} :
    (d.perform call).1.deadline = some deadline ↔
      (∃ t, (d.perform call).2.ArmsAt t ∧ t + d.quiet = deadline) ∨
        (d.deadline = some deadline ∧ ¬ (d.perform call).2.TouchesTimer) := by
  cases call with
  | change now => simp [perform, arm, Entry.ArmsAt, Entry.TouchesTimer]
  | cancel => simp [perform, cancel, Entry.ArmsAt, Entry.TouchesTimer]
  | poll now =>
    by_cases hdue : d.isDue now
    · simp [perform, poll, hdue, cancel, Entry.ArmsAt, Entry.TouchesTimer]
    · simp [perform, poll, hdue, Entry.ArmsAt, Entry.TouchesTimer]
  | record findings now =>
    by_cases hsame : d.lastFired = some findings
    · simp [perform, record, hsame, Entry.ArmsAt, Entry.TouchesTimer]
    · simp [perform, record, hsame, arm, Entry.ArmsAt, Entry.TouchesTimer]
  | reset => simp [perform, reset, Entry.ArmsAt, Entry.TouchesTimer]

/-- Findings that are remembered were recorded by this call, or were remembered before and not
touched. -/
theorem lastFired_perform_iff {findings : List Diagnostic} :
    (d.perform call).1.lastFired = some findings ↔
      (d.perform call).2.Records findings ∨
        (d.lastFired = some findings ∧ ¬ (d.perform call).2.TouchesMemory) := by
  cases call with
  | poll now =>
    simp only [perform, poll]
    split <;> simp [cancel, Entry.Records, Entry.TouchesMemory]
  | record findings' now =>
    by_cases hsame : d.lastFired = some findings'
    · -- the same findings stay as they are
      simp [perform, record, hsame, Entry.Records, Entry.TouchesMemory]
    · simp [perform, record, hsame, arm, Entry.Records, Entry.TouchesMemory]
  | _ => simp [perform, arm, cancel, reset, Entry.Records, Entry.TouchesMemory]

end Step

/-! ### Rows of calls -/

section Rows

variable (d : Debouncer) (calls : List Call)

/-- What is noted of a call is what the calls before it make of it. -/
theorem getElem?_history (j : Nat) :
    (d.history calls)[j]? = calls[j]?.map fun call => ((d.after (calls.take j)).perform call).2 := by
  induction calls generalizing d j with
  | nil => rfl
  | cons call calls ih =>
    cases j with
    | zero => rfl
    | succ j => exact ih (d.perform call).1 j

theorem after_take_succ {j : Nat} {call : Call} (hcall : calls[j]? = some call) :
    d.after (calls.take (j + 1)) = ((d.after (calls.take j)).perform call).1 := by
  rw [after, List.take_add_one, hcall, List.foldl_append]
  rfl

theorem quiet_after : (d.after calls).quiet = d.quiet := by
  induction calls generalizing d with
  | nil => rfl
  | cons call calls ih => exact (ih _).trans (d.quiet_perform call)

variable {d calls}

/-- At the next place something has stood since if it stands here, or has stood since and does not end
here. -/
theorem since_succ_iff {p q : Entry → Prop} {h : List Entry} {j : Nat} {e : Entry}
    (he : h[j]? = some e) :
    (∃ i, Since p q h i (j + 1)) ↔ p e ∨ ((∃ i, Since p q h i j) ∧ ¬ q e) := by
  constructor
  · rintro ⟨i, hbefore, ⟨e', he', hp⟩, hbetween⟩
    -- it is the last entry that counts, or an earlier one that the last one does not end
    rcases Nat.lt_succ_iff_lt_or_eq.mp hbefore with hlt | rfl
    · refine .inr ⟨⟨i, hlt, ⟨e', he', hp⟩, fun k e hi hk => ?_⟩, hbetween j e hlt j.lt_succ_self he⟩
      exact hbetween k e hi (Nat.lt_succ_of_lt hk)
    · obtain rfl := Option.some.inj (he.symm.trans he')
      exact .inl hp
  · rintro (hp | ⟨⟨i, hbefore, hstart, hbetween⟩, hq⟩)
    · exact ⟨j, j.lt_succ_self, ⟨e, he, hp⟩, fun k _ hi hk => by omega⟩
    · refine ⟨i, Nat.lt_succ_of_lt hbefore, hstart, fun k e' hi hk hk' => ?_⟩
      rcases Nat.lt_succ_iff_lt_or_eq.mp hk with hlt | rfl
      · exact hbetween k e' hi hlt hk'
      · obtain rfl := Option.some.inj (he.symm.trans hk')
        exact hq

theorem not_since_zero {p q : Entry → Prop} {h : List Entry} {i : Nat} : ¬ Since p q h i 0 :=
  fun hsince => Nat.not_lt_zero i hsince.before

/-- **The timer** runs if it was armed before and neither armed nor stopped since. -/
theorem deadline_before_iff {j : Nat} (hidle : d.deadline = none) (hj : j ≤ calls.length)
    {deadline : Nat} :
    (d.after (calls.take j)).deadline = some deadline ↔
      ∃ t, (∃ i, Since (Entry.ArmsAt t) Entry.TouchesTimer (d.history calls) i j) ∧
        t + d.quiet = deadline := by
  induction j with
  | zero => exact iff_of_false (fun h => nomatch hidle.symm.trans h) fun ⟨_, ⟨_, h⟩, _⟩ => not_since_zero h
  | succ j ih =>
    obtain ⟨call, hcall⟩ : ∃ call, calls[j]? = some call := ⟨_, List.getElem?_eq_getElem hj⟩
    have hentry := getElem?_history d calls j
    rw [hcall] at hentry
    rw [d.after_take_succ calls hcall, deadline_perform_iff, ih (Nat.le_of_succ_le hj), quiet_after]
    simp only [since_succ_iff hentry]
    grind

/-- **The memory** holds findings if they were recorded before, and neither others recorded nor these
forgotten since. -/
theorem lastFired_before_iff {j : Nat} (hnew : d.lastFired = none) (hj : j ≤ calls.length)
    {findings : List Diagnostic} :
    (d.after (calls.take j)).lastFired = some findings ↔
      ∃ i, Since (Entry.Records findings) Entry.TouchesMemory (d.history calls) i j := by
  induction j with
  | zero => exact iff_of_false (fun h => nomatch hnew.symm.trans h) fun ⟨_, h⟩ => not_since_zero h
  | succ j ih =>
    obtain ⟨call, hcall⟩ : ∃ call, calls[j]? = some call := ⟨_, List.getElem?_eq_getElem hj⟩
    have hentry := getElem?_history d calls j
    rw [hcall] at hentry
    rw [d.after_take_succ calls hcall, lastFired_perform_iff, ih (Nat.le_of_succ_le hj),
      since_succ_iff hentry]

end Rows

/-! ### Answers -/

theorem poll_eq_true_iff {d : Debouncer} {now : Nat} :
    (d.poll now).2 = true ↔ ∃ deadline, d.deadline = some deadline ∧ deadline ≤ now := by
  have hdue : (d.poll now).2 = d.isDue now := by
    unfold poll
    split
    · next h => exact h.symm
    · next h => exact (Bool.not_eq_true _ ▸ h).symm
  rw [hdue, isDue]
  cases d.deadline <;> simp

theorem record_eq_unchanged_iff {d : Debouncer} {findings : List Diagnostic} {now : Nat} :
    (d.record findings now).2 = .unchanged ↔ d.lastFired = some findings := by
  unfold record
  split <;> simp_all

theorem Entry.ArmsAt.touchesTimer {t : Nat} {e : Entry} (he : e.ArmsAt t) : e.TouchesTimer := by
  cases e with
  | change now => trivial
  | record findings now outcome =>
    cases outcome with
    | changed => trivial
    | unchanged => exact he.elim
  | _ => exact he.elim

/-- The timer that makes a poll due is stopped by it. -/
theorem Fires.poll_unique {h : List Entry} {i j j' : Nat} (hfires : Fires h i j)
    (hfires' : Fires h i j') : j = j' := by
  obtain ⟨t, now, hsince, hpoll⟩ := hfires
  obtain ⟨t', now', hsince', hpoll'⟩ := hfires'
  rcases Nat.lt_trichotomy j j' with hlt | heq | hlt
  · exact absurd trivial (hsince'.between j _ hsince.before hlt hpoll)
  · exact heq
  · exact absurd trivial (hsince.between j' _ hsince'.before hlt hpoll')

/-- A call that arms the timer takes the place of the one before. -/
theorem Fires.arming_unique {h : List Entry} {i i' j : Nat} (hfires : Fires h i j)
    (hfires' : Fires h i' j) : i = i' := by
  obtain ⟨t, now, hsince, -⟩ := hfires
  obtain ⟨t', now', hsince', -⟩ := hfires'
  obtain ⟨e, he, harms⟩ := hsince.start
  obtain ⟨e', he', harms'⟩ := hsince'.start
  rcases Nat.lt_trichotomy i i' with hlt | heq | hlt
  · exact absurd harms'.touchesTimer (hsince.between i' e' hlt hsince'.before he')
  · exact heq
  · exact absurd harms.touchesTimer (hsince'.between i e hlt hsince.before he)

/-- **Every answer can be read off the history**, for any row of calls to a new debouncer at any
times. A poll is due if and only if a call armed the timer long enough ago, and since then none has
armed it again, cancelled it or found it due. A record finds its findings unchanged if and only if the
last record, with no reset since, was one of the same findings. A poll that is due is so by one call
that arms the timer, and each such call makes one poll due at most. -/
theorem answers_exact (quiet : Nat) (calls : List Call) :
    let h := history { quiet := quiet } calls
    (∀ j now, calls[j]? = some (.poll now) → ∃ due, h[j]? = some (.poll now due) ∧
      (due = true ↔ ∃ i t, Since (Entry.ArmsAt t) Entry.TouchesTimer h i j ∧ t + quiet ≤ now)) ∧
    (∀ j findings now, calls[j]? = some (.record findings now) →
      ∃ outcome, h[j]? = some (.record findings now outcome) ∧
        (outcome = .unchanged ↔
          ∃ i, Since (Entry.Records findings) Entry.TouchesMemory h i j)) ∧
    (∀ j now, h[j]? = some (.poll now true) → ∃! i, Fires h i j) ∧
    ∀ i j j', Fires h i j → Fires h i j' → j = j' := by
  intro h
  have hentry {j : Nat} {call : Call} (hcall : calls[j]? = some call) :
      h[j]? = some ((after { quiet := quiet } (calls.take j)).perform call).2 := by
    rw [getElem?_history, hcall]
    rfl
  have hlength {j : Nat} {call : Call} (hcall : calls[j]? = some call) : j ≤ calls.length :=
    Nat.le_of_lt (List.getElem?_eq_some_iff.mp hcall).1
  have hpoll {j now : Nat} (hcall : calls[j]? = some (.poll now)) :
      ((after { quiet := quiet } (calls.take j)).poll now).2 = true ↔
        ∃ i t, Since (Entry.ArmsAt t) Entry.TouchesTimer h i j ∧ t + quiet ≤ now := by
    simp only [poll_eq_true_iff, deadline_before_iff (d := { quiet := quiet }) rfl (hlength hcall)]
    constructor
    · rintro ⟨_, ⟨t, ⟨i, hsince⟩, rfl⟩, hdue⟩
      exact ⟨i, t, hsince, hdue⟩
    · rintro ⟨i, t, hsince, hdue⟩
      exact ⟨_, ⟨t, ⟨i, hsince⟩, rfl⟩, hdue⟩
  refine ⟨fun j now hcall => ⟨_, hentry hcall, hpoll hcall⟩, fun j findings now hcall => ?_,
    fun j now hj => ?_, fun i j j' => Fires.poll_unique⟩
  · refine ⟨_, hentry hcall, ?_⟩
    rw [record_eq_unchanged_iff]
    exact lastFired_before_iff rfl (hlength hcall)
  · -- what is noted as a poll was one
    obtain ⟨call, hcall, hnoted⟩ := Option.map_eq_some_iff.mp ((getElem?_history _ _ j).symm.trans hj)
    cases call with
    | poll now' =>
      obtain ⟨rfl, hdue⟩ := Entry.poll.inj hnoted
      obtain ⟨i, t, hsince, -⟩ := (hpoll hcall).mp hdue
      exact ⟨i, ⟨t, now', hsince, hj⟩, fun i' hfires => hfires.arming_unique ⟨t, now', hsince, hj⟩⟩
    | _ => cases hnoted

/-- A change, then a record of an earlier time, which arms the timer again; two polls; a reset and the
same findings. -/
def backwards : List Call :=
  [.change 10, .record [] 3, .poll 9, .poll 100, .reset, .record [] 0, .record [] 0]

/-- The first poll is due by the record alone, and the second one is not due. Findings that were
forgotten count as other findings. -/
theorem answers_exact_backwards :
    history { quiet := 5 } backwards
        = [.change 10, .record [] 3 .changed, .poll 9 true, .poll 100 false, .reset,
            .record [] 0 .changed, .record [] 0 .unchanged] ∧
      (∃ i t, Since (Entry.ArmsAt t) Entry.TouchesTimer (history { quiet := 5 } backwards) i 2 ∧
        t + 5 ≤ 9) ∧
      (∃ i, Since (Entry.Records []) Entry.TouchesMemory (history { quiet := 5 } backwards) i 6) ∧
      ∃! i, Fires (history { quiet := 5 } backwards) i 2 := by
  obtain ⟨hpolls, hrecords, hfires, -⟩ := answers_exact 5 backwards
  obtain ⟨due, hentry, hdue⟩ := hpolls 2 9 rfl
  obtain ⟨outcome, hentry', houtcome⟩ := hrecords 6 [] 0 rfl
  cases hentry
  cases hentry'
  exact ⟨rfl, hdue.mp rfl, houtcome.mp rfl, hfires 2 9 rfl⟩

end EditorInsight.Debouncer
