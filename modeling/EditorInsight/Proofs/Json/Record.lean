import EditorInsight.Json.Record

/-!
# What a record has for its fields

A value is read as a record after repeated names have been settled, and in one of two forms. What it
has for a field can be said of the value as it was written: the last member of the field's name, or
the item at the field's place.

* `Value.lastMember?` and `Value.held?` are what the value as written has for a field.
* `Value.fields?_lastWins` finds just that, and nothing in a value without the form of a record.
* `Value.required_field` and `Value.withDefault_field` are what is read of a field.
* `Value.text?_eq_some_iff` and `Value.word?_eq_some_iff` say which plain values are read.
-/

namespace EditorInsight.Json

theorem Number.toWord?_eq_some_iff {n : Number} {k : Nat} :
    n.toWord? = some k ↔ n = .ofNat k ∧ k < wordSize := by
  obtain ⟨negative, whole, fraction, exponent⟩ := n
  unfold toWord? ofNat
  constructor
  · intro h
    split at h
    · next hplain =>
      cases h
      simp only [Bool.and_eq_true, Bool.not_eq_true', List.isEmpty_iff, Option.isNone_iff_eq_none,
        decide_eq_true_eq] at hplain
      obtain ⟨⟨⟨rfl, rfl⟩, rfl⟩, hword⟩ := hplain
      exact ⟨rfl, hword⟩
    · cases h
  · rintro ⟨heq, hword⟩
    cases heq
    simp [hword]

namespace Value

/-! ### Plain values -/

theorem text?_eq_some_iff {v : Value} {s : String} : v.text? = some s ↔ v = .string s := by
  constructor
  · intro h
    cases v <;> cases h
    rfl
  · rintro rfl
    rfl

theorem word?_eq_some_iff {v : Value} {k : Nat} :
    v.word? = some k ↔ v = .nat k ∧ k < wordSize := by
  cases v with
  | number n =>
    rw [word?, Number.toWord?_eq_some_iff, nat, number.injEq]
  | _ => exact iff_of_false nofun nofun

/-! ### Repeated names -/

/-- The last member of a name. -/
def lastMember? (name : String) (ms : List (String × Value)) : Option Value :=
  member? name ms.reverse

theorem lastMember?_cons (name : String) (m : String × Value) (ms : List (String × Value)) :
    lastMember? name (m :: ms) =
      (lastMember? name ms).or (if m.1 = name then some m.2 else none) := by
  unfold lastMember? member?
  rw [List.reverse_cons, List.find?_append]
  cases List.find? (fun m => m.1 == name) ms.reverse with
  | some m' => rfl
  | none =>
    rw [Option.none_or, List.find?_singleton]
    by_cases hm : m.1 = name
    · simp [hm]
    · simp [hm]

theorem lastMember?_eq_none_iff {name : String} {ms : List (String × Value)} :
    lastMember? name ms = none ↔ ms.any (·.1 == name) = false := by
  induction ms with
  | nil => exact iff_of_true rfl rfl
  | cons m ms ih =>
    rw [lastMember?_cons, Option.or_eq_none_iff, ih, List.any_cons, Bool.or_eq_false_iff,
      and_comm]
    refine and_congr_left fun _ => ?_
    by_cases hm : m.1 = name <;> simp [hm]

theorem lastMember?_append (name : String) (ms ns : List (String × Value)) :
    lastMember? name (ms ++ ns) = (lastMember? name ns).or (lastMember? name ms) := by
  unfold lastMember? member?
  rw [List.reverse_append, List.find?_append, Option.map_or]

theorem any_lastOfEach (name : String) (ms : List (String × Value)) :
    (lastOfEach ms).any (·.1 == name) = ms.any (·.1 == name) := by
  induction ms with
  | nil => rfl
  | cons m ms ih =>
    obtain ⟨k, v⟩ := m
    rw [lastOfEach, List.any_cons]
    split
    · next hlater =>
      -- the name is kept with a later member
      rw [ih]
      by_cases hk : k = name
      · subst hk
        rw [hlater, Bool.or_true]
      · simp [hk]
    · rw [List.any_cons, ih]

/-- What is kept under a name is the last member of the name. -/
theorem member?_lastOfEach (name : String) (ms : List (String × Value)) :
    member? name (lastOfEach ms) = lastMember? name ms := by
  induction ms with
  | nil => rfl
  | cons m ms ih =>
    obtain ⟨k, v⟩ := m
    rw [lastMember?_cons, lastOfEach]
    by_cases hk : k = name
    · subst hk
      split
      · next hlater =>
        -- another member of the name follows
        rw [ih]
        cases hlast : lastMember? k ms with
        | some u => rfl
        | none =>
          rw [lastMember?_eq_none_iff, hlater] at hlast
          cases hlast
      · next hlater =>
        have hlast : lastMember? k ms = none :=
          lastMember?_eq_none_iff.mpr (Bool.not_eq_true _ ▸ hlater)
        rw [hlast, member?, List.find?_cons, beq_self_eq_true, if_pos rfl]
        rfl
    · rw [if_neg hk, Option.or_none]
      split
      · exact ih
      · rw [← ih, member?, List.find?_cons_of_neg (by simpa using hk)]
        rfl

theorem isRepeated_lastOfEach (name : String) (ms : List (String × Value)) :
    isRepeated name (lastOfEach ms) = false := by
  unfold isRepeated
  rw [decide_eq_false_iff_not, Nat.not_lt]
  induction ms with
  | nil => exact Nat.zero_le 1
  | cons m ms ih =>
    obtain ⟨k, v⟩ := m
    rw [lastOfEach]
    split
    · exact ih
    · next hlater =>
      by_cases hk : k = name
      · -- no member of the name is kept behind this one
        subst hk
        have hnone : (lastOfEach ms).filter (·.1 == k) = [] := by
          rw [List.filter_eq_nil_iff]
          intro m hm hname
          refine hlater ?_
          rw [← any_lastOfEach]
          exact List.any_eq_true.mpr ⟨m, hm, hname⟩
        rw [List.filter_cons, if_pos (beq_self_eq_true k), hnone]
        exact Nat.le_refl 1
      · rw [List.filter_cons_of_neg (by simpa using hk)]
        exact ih

theorem lastWinsItems_eq_map (vs : List Value) : lastWinsItems vs = vs.map lastWins := by
  induction vs with
  | nil => rfl
  | cons v vs ih => rw [lastWinsItems, ih, List.map_cons]

theorem lastMember?_lastWinsMembers (name : String) (ms : List (String × Value)) :
    lastMember? name (lastWinsMembers ms) = (lastMember? name ms).map lastWins := by
  induction ms with
  | nil => rfl
  | cons m ms ih =>
    rw [lastWinsMembers, lastMember?_cons, lastMember?_cons, ih]
    cases lastMember? name ms with
    | some u => rfl
    | none =>
      by_cases hm : m.1 = name <;> simp [hm]

/-! ### Fields -/

/-- What a value has for a field, given the name of the field and its place among the fields. -/
def held? (name : String) (i : Nat) : Value → Option Value
  | object ms => lastMember? name ms
  | array items => items[i]?
  | _ => none

/-- An object, or an array of no more than `n` items. -/
def HasForm (n : Nat) : Value → Prop
  | object _ => True
  | array items => items.length ≤ n
  | _ => False

/-- The field that is found: an array without the item ends before it. -/
def field (name : String) (i : Nat) (v : Value) : Field :=
  match v.held? name i, v with
  | some u, _ => .present u.lastWins
  | none, array _ => .cutOff
  | none, _ => .missing

/-- **Fields are found in the value as written.** -/
theorem fields?_lastWins {names : List String} {v : Value} (h : v.HasForm names.length) :
    v.lastWins.fields? names = some (names.mapIdx fun i name => v.field name i) := by
  cases v with
  | object ms =>
    have honce : names.any (isRepeated · (lastOfEach (lastWinsMembers ms))) = false :=
      List.any_eq_false.mpr fun name _ => by rw [isRepeated_lastOfEach]; exact Bool.false_ne_true
    rw [lastWins, fields?, honce, if_neg Bool.false_ne_true]
    refine congrArg some (List.ext_getElem? fun i => ?_)
    rw [List.getElem?_map, List.getElem?_mapIdx]
    refine congrArg (Option.map · _) (funext fun name => ?_)
    simp only [member?_lastOfEach, lastMember?_lastWinsMembers, field, held?]
    cases lastMember? name ms <;> rfl
  | array items =>
    have hshort : ¬ items.length > names.length := Nat.not_lt.mpr h
    rw [lastWins, fields?, lastWinsItems_eq_map, List.length_map, if_neg hshort]
    refine congrArg some (List.ext_getElem? fun i => ?_)
    rw [List.getElem?_mapIdx]
    have hlength : items.length ≤ names.length := h
    -- the item at the field's place, then the fields behind the last item
    rcases Nat.lt_or_ge i items.length with hi | hi
    · rw [List.getElem?_append_left (by simpa using hi),
        List.getElem?_eq_getElem (Nat.lt_of_lt_of_le hi hlength)]
      simp [field, held?, hi]
    · rw [List.getElem?_append_right (by simpa using hi), List.getElem?_replicate]
      simp only [List.length_map, field, held?, List.getElem?_eq_none hi]
      rcases Nat.lt_or_ge i names.length with hn | hn
      · rw [if_pos (by omega), List.getElem?_eq_getElem hn]
        rfl
      · rw [if_neg (by omega), List.getElem?_eq_none hn]
        rfl
  | _ => cases h

theorem fields?_lastWins_of_not_hasForm {names : List String} {v : Value}
    (h : ¬ v.HasForm names.length) : v.lastWins.fields? names = none := by
  cases v with
  | object ms => exact absurd trivial h
  | array items =>
    have hlong : names.length < (lastWinsItems items).length := by
      rw [lastWinsItems_eq_map, List.length_map]
      exact Nat.not_le.mp h
    rw [lastWins, fields?, if_pos hlong]
  | _ => rfl

/-! ### Reading one field -/

section Reading

variable {α : Type} {read : Value → Option α}

theorem required_field (hread : ∀ u : Value, read u.lastWins = read u) (name : String) (i : Nat)
    (v : Value) : (v.field name i).required read = (v.held? name i).bind read := by
  unfold field
  cases v.held? name i with
  | some u => exact hread u
  | none => cases v <;> rfl

theorem withDefault_field (hread : ∀ u : Value, read u.lastWins = read u) (default : α)
    (name : String) (i : Nat) (v : Value) :
    (v.field name i).withDefault default read = (v.held? name i).elim (some default) read := by
  unfold field
  cases v.held? name i with
  | some u => exact hread u
  | none => cases v <;> rfl

theorem text?_lastWins (v : Value) : v.lastWins.text? = v.text? := by
  cases v <;> rfl

theorem word?_lastWins (v : Value) : v.lastWins.word? = v.word? := by
  cases v <;> rfl

theorem nullable?_lastWins (hread : ∀ u : Value, read u.lastWins = read u) (v : Value) :
    v.lastWins.nullable? read = v.nullable? read := by
  have h := hread v
  cases v with
  | null => rfl
  | _ => exact congrArg (Option.map some) h

/-- What is read where `null` may stand is read of another value. -/
theorem read_of_nullable? {v : Value} {a : α} (h : v.nullable? read = some (some a)) :
    read v = some a := by
  cases v with
  | null => cases h
  | _ =>
    obtain ⟨a', ha', heq⟩ := Option.map_eq_some_iff.mp h
    rwa [Option.some.inj heq] at ha'

end Reading

end Value

end EditorInsight.Json
