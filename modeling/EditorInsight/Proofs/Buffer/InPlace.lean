import EditorInsight.Buffer
import EditorInsight.Proofs.Except
import EditorInsight.Proofs.Identifier

/-!
# Changes in place

`Buffer.apply` gives back another buffer or an error, and in the second case there is no other buffer.
An editor that holds the only copy of a buffer changes it where it is: it looks whether it may, cuts
the text, counts the change, one after the other, and what it has done by the time a check fails stays
done. So it matters that every check comes before the first change, and that the checks are enough for
the cut: after a check that is not sufficient there would be half a change.

* `Change.perform` is a change in place.
* `Change.perform_eq`: it comes out as `Buffer.apply` says, and where it fails the buffer is as it
  was.
* `settle` is what this means, also for the operations of a session; `settle_bind` and
  `settle_demand` take a computation apart.
-/

namespace EditorInsight

section Settling

variable {ε σ α β : Type}

/-- The outcome in place of a computation that gives back another state or leaves the old one. -/
def settle (s : σ) : Except ε (σ × α) → EStateM.Result ε σ α
  | .ok (s', a) => .ok a s'
  | .error e => .error e s

theorem settle_eq_error {s s' : σ} {r : Except ε (σ × α)} {e : ε} (h : settle s r = .error e s') :
    s' = s ∧ r = .error e := by
  cases r with
  | ok p => cases h
  | error e' =>
    cases h
    exact ⟨rfl, rfl⟩

theorem settle_eq_ok {s s' : σ} {r : Except ε (σ × α)} {a : α} (h : settle s r = .ok a s') :
    r = .ok (s', a) := by
  cases r with
  | ok p =>
    cases h
    rfl
  | error e => cases h

theorem bind_apply (x : EStateM ε σ α) (f : α → EStateM ε σ β) (s : σ) :
    (x >>= f) s = match x s with
      | .ok a s' => f a s'
      | .error e s' => .error e s' :=
  rfl

/-- Catching an error takes nothing back. -/
theorem catch_apply (x : EStateM ε σ α) (f : ε → EStateM ε σ α) (s : σ) :
    (try x catch e => f e) s = match x s with
      | .ok a s' => .ok a s'
      | .error e s' => f e s' := by
  change EStateM.tryCatch x f s = _
  unfold EStateM.tryCatch
  cases x s <;> rfl

/-- What follows a computation starts from the state that it leaves. -/
theorem settle_bind {x : EStateM ε σ α} {f : α → EStateM ε σ β} {s : σ}
    {r : Except ε (σ × α)} {r' : Except ε (σ × β)} {g : σ × α → Except ε (σ × β)}
    (hx : x s = settle s r) (hr' : r' = r >>= g)
    (hf : ∀ p, f p.2 p.1 = settle s (g p)) : (x >>= f) s = settle s r' := by
  rw [bind_apply, hx, hr']
  cases r with
  | ok p => exact hf p
  | error e => rfl

/-- Fails unless the state is as it has to be. -/
def demand (ok : σ → Bool) (error : σ → ε) : EStateM ε σ Unit := do
  let s ← get
  if ok s then pure () else throw (error s)

theorem demand_eq (ok : σ → Bool) (error : σ → ε) (s : σ) :
    demand ok error s = if ok s then .ok () s else .error (error s) s := by
  change (if ok s then pure () else throw (error s) : EStateM ε σ Unit) s = _
  cases ok s <;> rfl

theorem demand_bind (ok : σ → Bool) (error : σ → ε) (f : Unit → EStateM ε σ β) (s : σ) :
    (demand ok error >>= f) s = if ok s then f () s else .error (error s) s := by
  rw [bind_apply, demand_eq]
  cases ok s <;> rfl

/-- A check changes nothing, and what follows may rely on it. -/
theorem settle_demand {ok : σ → Bool} {error : σ → ε} {f : Unit → EStateM ε σ β} {s : σ}
    {check : Except ε Unit} {g : Unit → Except ε (σ × β)}
    (hcheck : check = if ok s then .ok () else .error (error s))
    (hf : ok s = true → f () s = settle s (g ())) :
    (demand ok error >>= f) s = settle s (check >>= g) := by
  rw [demand_bind, hcheck]
  cases hok : ok s with
  | true => exact hf hok
  | false => rfl

end Settling

/-! ### Cuts -/

namespace Text

variable {cs : List Char} {start stop : Nat}

/-- Two boundaries in order are enough to replace what is between them. -/
theorem exists_splice?_eq (hstart : isBoundary cs start = true) (hstop : isBoundary cs stop = true)
    (hle : start ≤ stop) (new : List Char) : ∃ cs', splice? cs start stop new = some cs' := by
  obtain ⟨upTo, after, hcut, hcs, hwidth⟩ := isBoundary_iff.mp hstop
  obtain ⟨before, rest, -, hcs', hwidth'⟩ := isBoundary_iff.mp hstart
  -- what is before the first is a part of what is before the second
  have hpart : ∃ between, upTo = before ++ between := by
    rcases List.append_eq_append_iff.mp (hcs'.symm.trans hcs) with ⟨between, hupTo, -⟩ |
      ⟨extra, hbefore, -⟩
    · exact ⟨between, hupTo⟩
    · -- otherwise the two are the same
      have hsum : width before = width upTo + width extra := by rw [hbefore, width_append]
      have hnone : extra = [] := by
        cases extra with
        | nil => rfl
        | cons c cs =>
          have hpos := c.utf8Size_pos
          rw [width_cons] at hsum
          omega
      exact ⟨[], by rw [hbefore, hnone, List.append_nil, List.append_nil]⟩
  obtain ⟨between, rfl⟩ := hpart
  have hcut' : cutAt? (before ++ between) start = some (before, between) := by
    rw [← hwidth']
    exact cutAt?_append before between
  refine ⟨before ++ new ++ after, ?_⟩
  unfold splice?
  rw [hcut, Option.bind_eq_bind, Option.bind_some]
  dsimp only
  rw [hcut']
  rfl

/-- Nothing lies between two offsets in the wrong order. -/
theorem splice?_eq_none (hlt : stop < start) (new : List Char) : splice? cs start stop new = none := by
  unfold splice?
  cases hcut : cutAt? cs stop with
  | none => rfl
  | some parts =>
    obtain ⟨upTo, after⟩ := parts
    obtain ⟨-, hwidth⟩ := eq_append_of_cutAt? hcut
    rw [Option.bind_eq_bind, Option.bind_some]
    dsimp only
    cases hcut' : cutAt? upTo start with
    | none => rfl
    | some parts' =>
      -- the first offset would lie in what is before the second
      obtain ⟨before, between⟩ := parts'
      obtain ⟨hupTo, hwidth'⟩ := eq_append_of_cutAt? hcut'
      have hsum : width upTo = width before + width between := by rw [hupTo, width_append]
      omega

end Text

/-! ### Changes -/

namespace Buffer

/-- Fails if the buffer may not be changed. -/
def guardWritable : EStateM EditError Buffer Unit := demand (!·.isReadOnly) fun b => .readOnly b.path

/-- Fails if an offset is no boundary. -/
def guardOffset (offset : Nat) : EStateM EditError Buffer Unit :=
  demand (fun b => Text.isBoundary b.chars offset) fun b => b.offsetError offset

/-- Fails if a range stops before it starts. -/
def guardOrder (start stop : Nat) : EStateM EditError Buffer Unit :=
  demand (fun _ => start ≤ stop) fun b => b.offsetError start

/-- Counts a change of the text. -/
def countChange : EStateM EditError Buffer Unit :=
  modify fun b => { b with generation := b.generation + 1 }

/-- Puts another text in place of the one between two offsets, which have been checked before. -/
def replaceRange (start stop : Nat) (new : List Char) : EStateM EditError Buffer Unit :=
  modify fun b =>
    { b with text := String.ofList ((Text.splice? b.chars start stop new).getD b.chars) }

end Buffer

open Buffer in
/-- A change in place, one step after the other. -/
def Change.perform : Change → EStateM EditError Buffer (Option Nat)
  | .setText text => do
    guardWritable
    modify fun b => { b with text := text }
    countChange
    return none
  | .insert offset text => do
    guardWritable
    guardOffset offset
    replaceRange offset offset text.toList
    countChange
    return none
  | .delete start stop => do
    guardWritable
    guardOffset start
    guardOffset stop
    guardOrder start stop
    replaceRange start stop []
    countChange
    return none
  | .complete offset label => do
    guardWritable
    guardOffset offset
    let start := (← get).wordStart offset
    replaceRange start offset label.toList
    countChange
    return some (start + Text.byteLength label)
  | .setPath path => do
    modify fun b => { b with path := path }
    return none
  | .nothing => return none

namespace Buffer

theorem ensureWritable_eq (b : Buffer) :
    b.ensureWritable = if !b.isReadOnly then .ok () else .error (.readOnly b.path) := by
  unfold ensureWritable
  cases b.isReadOnly <;> rfl

/-- A completion starts at a boundary, and not behind the caret. -/
theorem wordStart_bounds (b : Buffer) {offset : Nat}
    (hoffset : Text.isBoundary b.chars offset = true) :
    Text.isBoundary b.chars (b.wordStart offset) = true ∧ b.wordStart offset ≤ offset := by
  unfold wordStart
  split
  · next start stop hword =>
    refine ⟨?_, Nat.min_le_right _ _⟩
    obtain ⟨-, -, hstart, -⟩ := (isWord_of_identifierAt? hword).bounds
    rcases Nat.le_total start offset with hle | hle
    · rw [Nat.min_eq_left hle]
      exact hstart
    · rw [Nat.min_eq_right hle]
      exact hoffset
  · exact ⟨hoffset, Nat.le_refl _⟩

/-- **A checked replacement** cannot fail any more. -/
theorem replaceRange_eq {α : Type} (b : Buffer) {start stop : Nat}
    (hstart : Text.isBoundary b.chars start = true) (hstop : Text.isBoundary b.chars stop = true)
    (hle : start ≤ stop) (new : List Char) (a : α) :
    (do replaceRange start stop new; countChange; return a : EStateM EditError Buffer α) b
      = settle b (do return (← b.splice start stop new, a)) := by
  -- at boundaries the splice does not fail, so the text that is kept for a failure is not used
  obtain ⟨cs, hcs⟩ := Text.exists_splice?_eq hstart hstop hle new
  have hsplice : b.splice start stop new = .ok (b.withChars cs) := by
    unfold splice
    rw [hcs]
  have htext : (Text.splice? b.chars start stop new).getD b.chars = cs := by
    rw [hcs]
    rfl
  rw [hsplice]
  change EStateM.Result.ok a { b with
    text := String.ofList ((Text.splice? b.chars start stop new).getD b.chars)
    generation := b.generation + 1 } = _
  rw [htext]
  rfl

end Buffer

open Buffer in
/-- **A change in place** comes out as the change of a copy does, and a change that is refused has
changed nothing. -/
theorem Change.perform_eq (b : Buffer) (change : Change) :
    change.perform b = settle b (b.apply change) := by
  -- in each case the checks come first
  cases change with
  | setText text =>
    refine settle_demand b.ensureWritable_eq fun _ => ?_
    unfold withChars
    rw [String.ofList_toList]
    rfl
  | insert offset text =>
    refine settle_demand b.ensureWritable_eq fun _ => ?_
    refine settle_demand rfl fun hoffset => ?_
    exact b.replaceRange_eq hoffset hoffset (Nat.le_refl _) text.toList none
  | delete start stop =>
    refine settle_demand b.ensureWritable_eq fun _ => ?_
    refine settle_demand rfl fun hstart => ?_
    refine settle_demand rfl fun hstop => ?_
    refine (demand_bind _ _ _ b).trans ?_
    by_cases hle : start ≤ stop
    · rw [if_pos (decide_eq_true hle)]
      exact b.replaceRange_eq hstart hstop hle [] none
    · -- what the change of a copy finds out when it cuts
      have hsplice : b.splice start stop [] = .error (b.offsetError start) := by
        unfold splice
        rw [Text.splice?_eq_none (Nat.lt_of_not_le hle)]
      rw [if_neg (by simpa using hle), hsplice]
      rfl
  | complete offset label =>
    refine settle_demand b.ensureWritable_eq fun _ => ?_
    refine settle_demand rfl fun hoffset => ?_
    obtain ⟨hstart, hle⟩ := b.wordStart_bounds hoffset
    exact b.replaceRange_eq hstart hoffset hle label.toList _
  | setPath path => rfl
  | nothing => rfl

end EditorInsight
