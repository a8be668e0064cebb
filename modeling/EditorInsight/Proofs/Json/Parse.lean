import EditorInsight.Proofs.Json.Token

/-!
# Reading is exact

The reader goes over the tokens once, with a stack of what is still open. Each of its states waits
for a certain phrase, and has read it when the value is delivered to what is around it.

* `Phrase.ReadBy` says that a row of tokens takes the reader over a phrase, and
  `Derives.readBy` that every row that is a phrase by the grammar does.
* `phrase_first`: a reader that comes to its end has read a phrase first.
* `parse?_eq_some_iff`: a text is read as a value if and only if it is that value by the grammar.
* `parseStrict?_eq_some_iff`: read as a whole, every token has to have a value, and the nesting has
  to be no deeper than `maxDepth`.
-/

namespace EditorInsight.Json

/-! ### Phrases are read -/

/-- Whether a row of tokens takes the reader over a phrase, whatever is open around it. -/
def Phrase.ReadBy (ts : List Token) : Phrase → Prop
  | .value v => ∀ stack, ts.foldlM Reader.step (.value stack) = some (Reader.deliver v stack)
  | .items vs => ∀ items stack, ts.foldlM Reader.step (.value (.array items :: stack))
      = some (.afterItem (vs.reverse ++ items) stack)
  | .members ms => ∀ members stack, ts.foldlM Reader.step (.name members stack)
      = some (.afterMember (ms.reverse ++ members) stack)

/-- What the first token of a phrase may be. -/
def Phrase.MayBegin (t : Token) : Phrase → Prop
  | .value _ | .items _ => t ≠ .closeArray
  | .members _ => ∃ name, t = .string name

theorem Derives.first {p : Phrase} {ts : List Token} (h : DerivesTokens p ts) :
    ∃ t us, ts = t :: us ∧ p.MayBegin t := by
  induction h with
  | null h => exact ⟨_, _, h, nofun⟩
  | bool h => exact ⟨_, _, h, nofun⟩
  | number h => exact ⟨_, _, h, nofun⟩
  | string h => exact ⟨_, _, h, nofun⟩
  | emptyArray h₁ h₂ => subst h₁; exact ⟨_, _, rfl, nofun⟩
  | array h₁ => subst h₁; exact ⟨_, _, rfl, nofun⟩
  | emptyObject h₁ h₂ => subst h₁; exact ⟨_, _, rfl, nofun⟩
  | object h₁ => subst h₁; exact ⟨_, _, rfl, nofun⟩
  | lastItem _ ih => exact ih
  | item _ _ _ ih =>
    obtain ⟨t, us, rfl, ht⟩ := ih
    exact ⟨t, _, rfl, ht⟩
  | lastMember h₁ => subst h₁; exact ⟨_, _, rfl, _, rfl⟩
  | member h₁ => subst h₁; exact ⟨_, _, rfl, _, rfl⟩

/-- The first item of an array is read as any other item. -/
theorem foldlM_firstItem {vs : List Value} {ts : List Token} (h : DerivesTokens (.items vs) ts)
    (stack : List Frame) : ts.foldlM Reader.step (.firstItem stack)
      = ts.foldlM Reader.step (.value (.array [] :: stack)) := by
  obtain ⟨t, us, rfl, ht⟩ := h.first
  have hstep : Reader.step (.firstItem stack) t = Reader.step (.value (.array [] :: stack)) t := by
    cases t <;> first | rfl | exact absurd rfl ht
  rw [List.foldlM_cons, List.foldlM_cons, hstep]

/-- The first member of an object is read as any other member. -/
theorem foldlM_firstName {ms : List (Option String × Value)} {ts : List Token}
    (h : DerivesTokens (.members ms) ts) (stack : List Frame) :
    ts.foldlM Reader.step (.firstName stack) = ts.foldlM Reader.step (.name [] stack) := by
  obtain ⟨t, us, rfl, name, rfl⟩ := h.first
  rfl

/-- **Every phrase is read.** -/
theorem Derives.readBy {p : Phrase} {ts : List Token} (h : DerivesTokens p ts) : p.ReadBy ts := by
  -- by induction on the grammar: the reader is where it was, with the phrase put in its place
  induction h with
  | null h => subst h; exact fun stack => rfl
  | bool h => subst h; exact fun stack => rfl
  | number h => subst h; exact fun stack => rfl
  | @string s _ h =>
    subst h
    intro stack
    cases s <;> rfl
  | emptyArray h₁ h₂ => subst h₁ h₂; exact fun stack => rfl
  | @array vs a b c h₁ h₂ h₃ ih =>
    subst h₁ h₃
    intro stack
    -- the items are put in front of one another, and turned round at the end
    have hitems := (foldlM_firstItem h₂ stack).trans (ih [] stack)
    rw [List.foldlM_append, List.foldlM_append]
    change (List.foldlM Reader.step (.firstItem stack) b).bind _ = _
    rw [hitems, List.append_nil]
    change some (Reader.deliver (.array vs.reverse.reverse) stack) = _
    rw [List.reverse_reverse]
  | emptyObject h₁ h₂ => subst h₁ h₂; exact fun stack => rfl
  | @object ms a b c h₁ h₂ h₃ ih =>
    subst h₁ h₃
    intro stack
    have hmembers := (foldlM_firstName h₂ stack).trans (ih [] stack)
    rw [List.foldlM_append, List.foldlM_append]
    change (List.foldlM Reader.step (.firstName stack) b).bind _ = _
    rw [hmembers, List.append_nil]
    change some (Reader.deliver (objectOf ms.reverse.reverse) stack) = _
    rw [List.reverse_reverse]
  | lastItem _ ih => exact fun items stack => ih (.array items :: stack)
  | @item v vs a b c _ h₂ _ ih₁ ih₃ =>
    subst h₂
    intro items stack
    -- the first item is put in front of those before it, and then the others are read
    have hv := ih₁ (.array items :: stack)
    rw [List.foldlM_append, List.foldlM_append, hv]
    change List.foldlM Reader.step (.value (.array (v :: items) :: stack)) c = _
    rw [ih₃ (v :: items) stack, List.reverse_cons, List.append_assoc]
    rfl
  | lastMember h₁ h₂ _ ih =>
    subst h₁ h₂
    exact fun members stack => ih (.object members _ :: stack)
  | @member k v ms a b c d e h₁ h₂ _ h₄ _ ih₃ ih₅ =>
    subst h₁ h₂ h₄
    intro members stack
    -- the name waits for its value, and both are put in front of the members before
    have hv := ih₃ (.object members k :: stack)
    rw [List.foldlM_append, List.foldlM_append]
    change (List.foldlM Reader.step (.value (.object members k :: stack)) c >>= _) >>= _ = _
    rw [hv]
    change List.foldlM Reader.step (.name ((k, v) :: members) stack) e = _
    rw [ih₅ ((k, v) :: members) stack, List.reverse_cons, List.append_assoc]
    rfl

/-! ### What is read are phrases -/

/-- Whether a row of tokens takes the reader to its end, with a value. -/
def Reader.ReadsTo (r : Reader) (ts : List Token) (v : Value) : Prop :=
  ts.foldlM Reader.step r = some (.finished v)

namespace Reader

theorem ReadsTo.cons {r : Reader} {t : Token} {ts : List Token} {v : Value}
    (h : r.ReadsTo (t :: ts) v) : ∃ r', r.step t = some r' ∧ r'.ReadsTo ts v := by
  unfold ReadsTo at h
  rw [List.foldlM_cons] at h
  exact Option.bind_eq_some_iff.mp h

theorem ReadsTo.finished {u v : Value} {ts : List Token} (h : (finished u).ReadsTo ts v) :
    ts = [] ∧ u = v := by
  cases ts with
  | nil =>
    cases h
    exact ⟨rfl, rfl⟩
  | cons t ts =>
    obtain ⟨r, hstep, -⟩ := h.cons
    cases hstep

end Reader

/-- A reader that waits for a value, and comes to its end, reads a value first. -/
def ValueFirst (ts : List Token) : Prop :=
  ∀ stack v, (Reader.value stack).ReadsTo ts v →
    ∃ u a b, ts = a ++ b ∧ DerivesTokens (.value u) a ∧ (Reader.deliver u stack).ReadsTo b v

/-- The same for one that waits for an item: it reads items up to the end of the array. -/
def ItemsFirst (ts : List Token) : Prop :=
  ∀ items stack v, (Reader.value (.array items :: stack)).ReadsTo ts v →
    ∃ us a b, ts = a ++ .closeArray :: b ∧ DerivesTokens (.items us) a ∧
      (Reader.deliver (.array (items.reverse ++ us)) stack).ReadsTo b v

/-- The same for one that waits for a name: it reads members up to the end of the object. -/
def MembersFirst (ts : List Token) : Prop :=
  ∀ members stack v, (Reader.name members stack).ReadsTo ts v →
    ∃ us a b, ts = a ++ .closeObject :: b ∧ DerivesTokens (.members us) a ∧
      (Reader.deliver (objectOf (members.reverse ++ us)) stack).ReadsTo b v

/-- Behind an opening bracket an array ends at once, or it has items. -/
theorem arrayFirst {ts : List Token} (items : ItemsFirst ts) {stack : List Frame} {v : Value}
    (h : (Reader.firstItem stack).ReadsTo ts v) :
    ∃ u a b, .openArray :: ts = a ++ b ∧ DerivesTokens (.value u) a ∧
      (Reader.deliver u stack).ReadsTo b v := by
  cases ts with
  | nil => cases h
  | cons t ts =>
    by_cases ht : t = .closeArray
    · -- the array is empty
      subst ht
      exact ⟨_, [.openArray] ++ [.closeArray], ts, rfl, .emptyArray rfl rfl, h⟩
    · -- any other token is read as the first one of an item
      have hitem : (Reader.value (.array [] :: stack)).ReadsTo (t :: ts) v := by
        cases t <;> first | exact h | exact absurd rfl ht
      obtain ⟨us, a, b, hts, ha, hb⟩ := items [] stack v hitem
      refine ⟨_, [.openArray] ++ a ++ [.closeArray], b, ?_, .array rfl ha rfl, hb⟩
      rw [hts]
      simp

/-- Behind an opening brace an object ends at once, or it has members. -/
theorem objectFirst {ts : List Token} (members : MembersFirst ts) {stack : List Frame} {v : Value}
    (h : (Reader.firstName stack).ReadsTo ts v) :
    ∃ u a b, .openObject :: ts = a ++ b ∧ DerivesTokens (.value u) a ∧
      (Reader.deliver u stack).ReadsTo b v := by
  cases ts with
  | nil => cases h
  | cons t ts =>
    by_cases ht : t = .closeObject
    · -- the object is empty
      subst ht
      exact ⟨_, [.openObject] ++ [.closeObject], ts, rfl, .emptyObject rfl rfl, h⟩
    · -- any other token is read as the first name
      have hname : (Reader.name [] stack).ReadsTo (t :: ts) v := by
        cases t <;> first | exact h | exact absurd rfl ht
      obtain ⟨us, a, b, hts, ha, hb⟩ := members [] stack v hname
      refine ⟨_, [.openObject] ++ a ++ [.closeObject], b, ?_, .object rfl ha rfl, hb⟩
      rw [hts]
      simp

theorem valueFirst_of_shorter {ts : List Token}
    (shorter : ∀ us, us.length < ts.length → ItemsFirst us ∧ MembersFirst us) : ValueFirst ts := by
  intro stack v h
  cases ts with
  | nil => cases h
  | cons t ts =>
    obtain ⟨hitems, hmembers⟩ := shorter ts (Nat.lt_succ_self _)
    obtain ⟨r, hstep, h⟩ := h.cons
    cases t with
    -- one token is the whole value
    | null => cases hstep; exact ⟨_, [_], ts, rfl, .null rfl, h⟩
    | bool b => cases hstep; exact ⟨_, [_], ts, rfl, .bool rfl, h⟩
    | number n => cases hstep; exact ⟨_, [_], ts, rfl, .number rfl, h⟩
    | string s =>
      refine ⟨_, [_], ts, rfl, .string (s := s) rfl, ?_⟩
      cases s <;> cases hstep <;> exact h
    -- a value with brackets begins
    | openArray => cases hstep; exact arrayFirst hitems h
    | openObject => cases hstep; exact objectFirst hmembers h
    -- no value begins with any of these
    | closeArray => cases hstep
    | closeObject => cases hstep
    | comma => cases hstep
    | colon => cases hstep

/-- What follows a token is shorter than all of it. -/
theorem length_behind (a b : List Token) (t : Token) : b.length < (a ++ t :: b).length := by
  rw [List.length_append, List.length_cons]
  omega

theorem itemsFirst_of_shorter {ts : List Token} (value : ValueFirst ts)
    (shorter : ∀ us, us.length < ts.length → ItemsFirst us) : ItemsFirst ts := by
  intro items stack v h
  obtain ⟨u, a, b, rfl, ha, h⟩ := value _ v h
  -- behind a value the array goes on or ends
  cases b with
  | nil => cases h
  | cons t b =>
    obtain ⟨r, hstep, h⟩ := h.cons
    cases t with
    | comma =>
      cases hstep
      obtain ⟨us, a', b', rfl, ha', hb'⟩ := shorter b (length_behind a b .comma) (u :: items) stack v h
      refine ⟨u :: us, a ++ [.comma] ++ a', b', ?_, .item ha rfl ha', ?_⟩
      · simp
      · rwa [List.reverse_cons, List.append_assoc] at hb'
    | closeArray =>
      cases hstep
      exact ⟨[u], a, b, rfl, .lastItem ha, by rwa [List.reverse_cons] at h⟩
    | _ => cases hstep

theorem membersFirst_of_shorter {ts : List Token}
    (shorter : ∀ us, us.length < ts.length → ValueFirst us ∧ MembersFirst us) :
    MembersFirst ts := by
  intro members stack v h
  -- a name, a colon and a value, behind which the object goes on or ends; nothing else is read there
  cases ts with
  | nil => cases h
  | cons t ts =>
    obtain ⟨r, hstep, h⟩ := h.cons
    cases t with
    | string k =>
      cases hstep
      cases ts with
      | nil => cases h
      | cons t ts =>
        obtain ⟨r, hstep, h⟩ := h.cons
        cases t with
        | colon =>
          cases hstep
          obtain ⟨u, a, b, rfl, ha, h⟩ :=
            (shorter ts (length_behind [.string k] ts .colon)).1 _ v h
          cases b with
          | nil => cases h
          | cons t b =>
            obtain ⟨r, hstep, h⟩ := h.cons
            cases t with
            | comma =>
              -- the other members are behind the comma
              cases hstep
              obtain ⟨us, a', b', rfl, ha', hb'⟩ :=
                (shorter b (length_behind (.string k :: .colon :: a) b .comma)).2
                  ((k, u) :: members) stack v h
              refine ⟨(k, u) :: us, [.string k] ++ [.colon] ++ a ++ [.comma] ++ a', b', ?_,
                .member rfl rfl ha rfl ha', ?_⟩
              · simp
              · rwa [List.reverse_cons, List.append_assoc] at hb'
            | closeObject =>
              cases hstep
              exact ⟨[(k, u)], [.string k] ++ [.colon] ++ a, b, rfl, .lastMember rfl rfl ha,
                by rwa [List.reverse_cons] at h⟩
            | _ => cases hstep
        | _ => cases hstep
    | _ => cases hstep

/-- **What is read first is a phrase.** The induction is on the number of tokens: a value with
brackets ends before the tokens do, and so does each item and each member. -/
theorem phrase_first (ts : List Token) : ValueFirst ts ∧ ItemsFirst ts ∧ MembersFirst ts := by
  induction hn : ts.length using Nat.strongRecOn generalizing ts with
  | ind n ih =>
    subst hn
    have hvalue : ValueFirst ts :=
      valueFirst_of_shorter fun us hus => (ih us.length hus us rfl).2
    have hitems : ItemsFirst ts :=
      itemsFirst_of_shorter hvalue fun us hus => (ih us.length hus us rfl).2.1
    have hmembers : MembersFirst ts := membersFirst_of_shorter fun us hus =>
      ⟨(ih us.length hus us rfl).1, (ih us.length hus us rfl).2.2⟩
    exact ⟨hvalue, hitems, hmembers⟩

theorem ofTokens?_eq_some_iff {ts : List Token} {v : Value} :
    Value.ofTokens? ts = some v ↔ DerivesTokens (.value v) ts := by
  constructor
  · intro h
    unfold Value.ofTokens? at h
    split at h
    · next u hread =>
      cases h
      obtain ⟨u, a, b, rfl, ha, hb⟩ := (phrase_first ts).1 [] v hread
      -- nothing is open, so nothing may follow
      obtain ⟨rfl, rfl⟩ := hb.finished
      rwa [List.append_nil]
    · cases h
  · intro h
    have hread : ts.foldlM Reader.step (.value []) = some (.finished v) := h.readBy []
    rw [Value.ofTokens?, hread]

/-! ### Texts -/

/-- **Reading is exact.** A text is read as a value if and only if it is that value by the
grammar. -/
theorem parse?_eq_some_iff {text : String} {v : Value} : parse? text = some v ↔ IsText text v := by
  unfold parse? IsText
  constructor
  · intro h
    obtain ⟨ts, hscan, hread⟩ := Option.bind_eq_some_iff.mp h
    have hts := ofTokens?_eq_some_iff.mp hread
    rcases scan_sound hscan with ⟨rfl, -⟩ | hrow
    · -- a value has a token
      obtain ⟨t, us, hnil, -⟩ := hts.first
      cases hnil
    · exact hts.of_row hrow
  · intro h
    obtain ⟨ts, hscan, hts⟩ := h.exists_scan
    rw [hscan]
    exact ofTokens?_eq_some_iff.mpr hts

theorem isText_of_scan {text : String} {ts : List Token} {v : Value}
    (hscan : Token.scan text.toList = some ts) (hread : Value.ofTokens? ts = some v) :
    IsText text v := by
  refine parse?_eq_some_iff.mp ?_
  rw [parse?, hscan]
  exact hread

/-- **Reading as a whole is exact.** -/
theorem parseStrict?_eq_some_iff {text : String} {v : Value} :
    parseStrict? text = some v ↔ IsValuedText text v ∧ v.depth ≤ maxDepth := by
  rw [parseStrict?, Option.filter_eq_some_iff, parse?_eq_some_iff, isValuedText_iff, and_assoc,
    Bool.and_eq_true, decide_eq_true_eq]

end EditorInsight.Json
