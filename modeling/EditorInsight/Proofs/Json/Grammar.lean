import EditorInsight.Json.Parse

/-!
# The grammar of JSON text

What a JSON text is, said without a scanner and a reader: how each token is spelled, with blanks
around it, and which rows of tokens are a value. The rules are those of RFC 8259.

* `Number.Spelled`, `Piece.Spelled` and `Token.Spelled` are the rules for literals.
* `Derives` has the rules for values, items and members, over whatever the tokens are made of: over
  characters these are the rules for texts, over the tokens themselves those for rows of tokens.
* `IsText` says that a text is a value by the grammar, and which one. `IsValuedText` is the same
  for texts of which every token has a value (`Token.HasValue`), which the grammar does not ask for.
* `Row` is a row of tokens written one behind the other; `Derives.of_row` goes from the rules for rows
  of tokens to those for what they are made of.
* `isValuedText_iff`: every token has a value if and only if no part of what the text denotes is
  unreadable.
-/

namespace EditorInsight.Json

/-! ### Numbers -/

/-- One decimal digit or more. -/
structure Digits (cs : List Char) : Prop where
  ne_nil : cs ≠ []
  isDigit : ∀ c ∈ cs, isDigit c = true

namespace Number

/-- The digits before the point: a zero, or digits that do not begin with one. -/
inductive WholeSpelled : Nat → List Char → Prop where
  | zero : WholeSpelled 0 ['0']
  | digits {d : Char} {ds : List Char} (first : d ≠ '0') (digits : Digits (d :: ds)) :
      WholeSpelled (digitsValue (d :: ds)) (d :: ds)

/-- The point and the digits behind it, which may be left out together. -/
inductive FractionSpelled : List Nat → List Char → Prop where
  | absent : FractionSpelled [] []
  | digits {ds : List Char} (digits : Digits ds) :
      FractionSpelled (ds.map digitValue) ('.' :: ds)

/-- The sign of an exponent, and whether it is a minus. -/
inductive SignSpelled : Bool → List Char → Prop where
  | absent : SignSpelled false []
  | plus : SignSpelled false ['+']
  | minus : SignSpelled true ['-']

/-- An exponent, which may be left out. -/
inductive ExponentSpelled : Option Int → List Char → Prop where
  | absent : ExponentSpelled none []
  | digits {e : Char} {negative : Bool} {ss ds : List Char} (letter : e = 'e' ∨ e = 'E')
      (sign : SignSpelled negative ss) (digits : Digits ds) :
      ExponentSpelled
        (some (if negative then -(digitsValue ds : Int) else (digitsValue ds : Int)))
        (e :: ss ++ ds)

/-- A number without its sign. -/
inductive UnsignedSpelled (negative : Bool) : Number → List Char → Prop where
  | mk {n : Nat} {ds : List Nat} {e : Option Int} {ws fs es : List Char}
      (whole : WholeSpelled n ws) (fraction : FractionSpelled ds fs)
      (exponent : ExponentSpelled e es) :
      UnsignedSpelled negative ⟨negative, n, ds, e⟩ (ws ++ fs ++ es)

/-- A number. -/
inductive Spelled : Number → List Char → Prop where
  | positive {n : Number} {cs : List Char} (unsigned : UnsignedSpelled false n cs) : Spelled n cs
  | negative {n : Number} {cs : List Char} (unsigned : UnsignedSpelled true n cs) :
      Spelled n ('-' :: cs)

end Number

/-! ### Strings -/

/-- One character of a string literal: a character that stands for itself, or an escape. -/
inductive Piece.Spelled : Piece → List Char → Prop where
  | plain {c : Char} (printable : 0x20 ≤ c.toNat) (not_quote : c ≠ '"') (not_backslash : c ≠ '\\') :
      Spelled (.char c) [c]
  | escape {c d : Char} (escape : simpleEscape? d = some c) : Spelled (.char c) ['\\', d]
  | unit {a b c d : Char} {p q r s : Nat} (first : hexDigit? a = some p)
      (second : hexDigit? b = some q) (third : hexDigit? c = some r) (last : hexDigit? d = some s) :
      Spelled (.unit (((p * 16 + q) * 16 + r) * 16 + s)) ['\\', 'u', a, b, c, d]

/-- The characters between the quotes of a string literal. -/
inductive PiecesSpelled : List Piece → List Char → Prop where
  | nil : PiecesSpelled [] []
  | cons {p : Piece} {ps : List Piece} {cs ds : List Char} (head : p.Spelled cs)
      (tail : PiecesSpelled ps ds) : PiecesSpelled (p :: ps) (cs ++ ds)

/-- The characters that the pieces of a string stand for. An escape that is half of a surrogate pair
stands for a character together with the other half only. -/
inductive Joined : List Piece → List Char → Prop where
  | nil : Joined [] []
  | char {c : Char} {ps : List Piece} {cs : List Char} (tail : Joined ps cs) :
      Joined (.char c :: ps) (c :: cs)
  | unit {code : Nat} {ps : List Piece} {cs : List Char} (not_high : isHighSurrogate code = false)
      (not_low : isLowSurrogate code = false) (tail : Joined ps cs) :
      Joined (.unit code :: ps) (Char.ofNat code :: cs)
  | pair {a b : Nat} {ps : List Piece} {cs : List Char} (high : isHighSurrogate a = true)
      (low : isLowSurrogate b = true) (tail : Joined ps cs) :
      Joined (.unit a :: .unit b :: ps) (Char.ofNat (pairCode a b) :: cs)

/-! ### Tokens -/

namespace Token

/-- How tokens are spelled. -/
inductive Spelled : Token → List Char → Prop where
  | openArray : Spelled .openArray ['[']
  | closeArray : Spelled .closeArray [']']
  | openObject : Spelled .openObject ['\x7b']
  | closeObject : Spelled .closeObject ['\x7d']
  | comma : Spelled .comma [',']
  | colon : Spelled .colon [':']
  | null : Spelled .null ['n', 'u', 'l', 'l']
  | true : Spelled (.bool true) ['t', 'r', 'u', 'e']
  | false : Spelled (.bool false) ['f', 'a', 'l', 's', 'e']
  | number {n : Number} {cs : List Char} (number : n.Spelled cs) : Spelled (.number n) cs
  | string {ps : List Piece} {text cs : List Char} (pieces : PiecesSpelled ps cs)
      (joined : Joined ps text) : Spelled (.string (some (String.ofList text))) ('"' :: cs ++ ['"'])
  | halfPair {ps : List Piece} {cs : List Char} (pieces : PiecesSpelled ps cs)
      (half : ¬ ∃ text, Joined ps text) : Spelled (.string none) ('"' :: cs ++ ['"'])

/-- A row of blanks. -/
def Blanks (cs : List Char) : Prop := ∀ c ∈ cs, isSpace c = true

/-- A token with blanks around it. -/
def Padded (t : Token) (cs : List Char) : Prop :=
  ∃ before lexeme after, Blanks before ∧ t.Spelled lexeme ∧ Blanks after ∧
    cs = before ++ lexeme ++ after

/-- Whether a token has a value: a number has to be finite as a double, and a string has to have no
half of a surrogate pair. -/
def HasValue : Token → Prop
  | .number n => n.isFinite = true
  | .string s => s.isSome = true
  | _ => True

end Token

/-! ### Values -/

/-- A part of a text, with what it denotes. Items and members are at least one, with commas between
them. -/
inductive Phrase where
  | value (v : Value)
  | items (vs : List Value)
  | members (ms : List (Option String × Value))

/-- The rules for values, where `spelled` says how tokens are spelled. -/
inductive Derives {α : Type} (spelled : Token → List α → Prop) : Phrase → List α → Prop where
  | null {a : List α} (literal : spelled .null a) : Derives spelled (.value .null) a
  | bool {b : Bool} {a : List α} (literal : spelled (.bool b) a) :
      Derives spelled (.value (.bool b)) a
  | number {n : Number} {a : List α} (literal : spelled (.number n) a) :
      Derives spelled (.value (if n.isFinite then .number n else .unreadable)) a
  | string {s : Option String} {a : List α} (literal : spelled (.string s) a) :
      Derives spelled (.value (s.elim .unreadable .string)) a
  | emptyArray {a b : List α} (opening : spelled .openArray a) (closing : spelled .closeArray b) :
      Derives spelled (.value (.array [])) (a ++ b)
  | array {vs : List Value} {a b c : List α} (opening : spelled .openArray a)
      (items : Derives spelled (.items vs) b) (closing : spelled .closeArray c) :
      Derives spelled (.value (.array vs)) (a ++ b ++ c)
  | emptyObject {a b : List α} (opening : spelled .openObject a)
      (closing : spelled .closeObject b) : Derives spelled (.value (.object [])) (a ++ b)
  | object {ms : List (Option String × Value)} {a b c : List α} (opening : spelled .openObject a)
      (members : Derives spelled (.members ms) b) (closing : spelled .closeObject c) :
      Derives spelled (.value (objectOf ms)) (a ++ b ++ c)
  | lastItem {v : Value} {a : List α} (value : Derives spelled (.value v) a) :
      Derives spelled (.items [v]) a
  | item {v : Value} {vs : List Value} {a b c : List α} (value : Derives spelled (.value v) a)
      (comma : spelled .comma b) (items : Derives spelled (.items vs) c) :
      Derives spelled (.items (v :: vs)) (a ++ b ++ c)
  | lastMember {k : Option String} {v : Value} {a b c : List α} (name : spelled (.string k) a)
      (colon : spelled .colon b) (value : Derives spelled (.value v) c) :
      Derives spelled (.members [(k, v)]) (a ++ b ++ c)
  | member {k : Option String} {v : Value} {ms : List (Option String × Value)}
      {a b c d e : List α} (name : spelled (.string k) a) (colon : spelled .colon b)
      (value : Derives spelled (.value v) c) (comma : spelled .comma d)
      (members : Derives spelled (.members ms) e) :
      Derives spelled (.members ((k, v) :: ms)) (a ++ b ++ c ++ d ++ e)

/-- A text that is a value by the grammar, with blanks around it. -/
def IsText (text : String) (v : Value) : Prop := Derives Token.Padded (.value v) text.toList

/-- A text that is a value by the grammar, and every token of which has a value. -/
def IsValuedText (text : String) (v : Value) : Prop :=
  Derives (fun t cs => t.HasValue ∧ t.Padded cs) (.value v) text.toList

/-! ### Rows of tokens -/

/-- A row of tokens, written one behind the other. -/
inductive Row {α : Type} (spelled : Token → List α → Prop) : List Token → List α → Prop where
  | nil : Row spelled [] []
  | cons {t : Token} {ts : List Token} {a b : List α} (head : spelled t a)
      (tail : Row spelled ts b) : Row spelled (t :: ts) (a ++ b)

/-- The rules for rows of tokens. -/
abbrev DerivesTokens : Phrase → List Token → Prop := Derives fun t ts => ts = [t]

section Rows

variable {α : Type} {spelled : Token → List α → Prop}

theorem row_singleton_iff {t : Token} {a : List α} : Row spelled [t] a ↔ spelled t a := by
  constructor
  · intro h
    cases h with
    | cons head tail =>
      cases tail
      rwa [List.append_nil]
  · intro h
    have hrow : Row spelled [t] (a ++ []) := .cons h .nil
    rwa [List.append_nil] at hrow

theorem Row.append {ts us : List Token} {a b : List α} (h : Row spelled ts a)
    (h' : Row spelled us b) : Row spelled (ts ++ us) (a ++ b) := by
  induction h with
  | nil => exact h'
  | cons head _ ih =>
    rw [List.append_assoc]
    exact .cons head ih

theorem row_append_iff {ts us : List Token} {c : List α} :
    Row spelled (ts ++ us) c ↔ ∃ a b, Row spelled ts a ∧ Row spelled us b ∧ c = a ++ b := by
  constructor
  · intro h
    induction ts generalizing c with
    | nil => exact ⟨[], c, .nil, h, rfl⟩
    | cons t ts ih =>
      cases h with
      | cons head tail =>
        obtain ⟨a, b, ha, hb, rfl⟩ := ih tail
        exact ⟨_, b, .cons head ha, hb, (List.append_assoc _ a b).symm⟩
  · rintro ⟨a, b, ha, hb, rfl⟩
    exact ha.append hb

theorem Row.split {ts us vs : List Token} {d : List α} (h : Row spelled (ts ++ us ++ vs) d) :
    ∃ a b c, Row spelled ts a ∧ Row spelled us b ∧ Row spelled vs c ∧ d = a ++ b ++ c := by
  obtain ⟨_, c, hab, hc, rfl⟩ := row_append_iff.mp h
  obtain ⟨a, b, ha, hb, rfl⟩ := row_append_iff.mp hab
  exact ⟨a, b, c, ha, hb, hc, rfl⟩

/-- What a row of tokens is by the rules, its spelling is too. -/
theorem Derives.of_row {p : Phrase} {ts : List Token} {a : List α} (h : DerivesTokens p ts)
    (row : Row spelled ts a) : Derives spelled p a := by
  induction h generalizing a with
  -- one token
  | null h => subst h; exact .null (row_singleton_iff.mp row)
  | bool h => subst h; exact .bool (row_singleton_iff.mp row)
  | number h => subst h; exact .number (row_singleton_iff.mp row)
  | string h => subst h; exact .string (row_singleton_iff.mp row)
  -- brackets
  | emptyArray h₁ h₂ =>
    subst h₁ h₂
    obtain ⟨a₁, a₂, r₁, r₂, rfl⟩ := row_append_iff.mp row
    exact .emptyArray (row_singleton_iff.mp r₁) (row_singleton_iff.mp r₂)
  | array h₁ _ h₃ ih =>
    subst h₁ h₃
    obtain ⟨a₁, a₂, a₃, r₁, r₂, r₃, rfl⟩ := row.split
    exact .array (row_singleton_iff.mp r₁) (ih r₂) (row_singleton_iff.mp r₃)
  | emptyObject h₁ h₂ =>
    subst h₁ h₂
    obtain ⟨a₁, a₂, r₁, r₂, rfl⟩ := row_append_iff.mp row
    exact .emptyObject (row_singleton_iff.mp r₁) (row_singleton_iff.mp r₂)
  | object h₁ _ h₃ ih =>
    subst h₁ h₃
    obtain ⟨a₁, a₂, a₃, r₁, r₂, r₃, rfl⟩ := row.split
    exact .object (row_singleton_iff.mp r₁) (ih r₂) (row_singleton_iff.mp r₃)
  -- what stands between the brackets
  | lastItem _ ih => exact .lastItem (ih row)
  | item _ h₂ _ ih₁ ih₃ =>
    subst h₂
    obtain ⟨a₁, a₂, a₃, r₁, r₂, r₃, rfl⟩ := row.split
    exact .item (ih₁ r₁) (row_singleton_iff.mp r₂) (ih₃ r₃)
  | lastMember h₁ h₂ _ ih =>
    subst h₁ h₂
    obtain ⟨a₁, a₂, a₃, r₁, r₂, r₃, rfl⟩ := row.split
    exact .lastMember (row_singleton_iff.mp r₁) (row_singleton_iff.mp r₂) (ih r₃)
  | member h₁ h₂ _ h₄ _ ih₃ ih₅ =>
    subst h₁ h₂ h₄
    obtain ⟨a₁₃, a₄, a₅, r₁₃, r₄, r₅, rfl⟩ := row.split
    obtain ⟨a₁, a₂, a₃, r₁, r₂, r₃, rfl⟩ := r₁₃.split
    exact .member (row_singleton_iff.mp r₁) (row_singleton_iff.mp r₂) (ih₃ r₃)
      (row_singleton_iff.mp r₄) (ih₅ r₅)

end Rows

/-! ### Tokens without a value -/

theorem allReadable_iff {vs : List Value} :
    Value.allReadable vs = true ↔ ∀ v ∈ vs, v.isReadable = true := by
  induction vs with
  | nil => exact iff_of_true rfl fun v hv => nomatch hv
  | cons v vs ih => rw [Value.allReadable, Bool.and_eq_true, ih, List.forall_mem_cons]

theorem membersReadable_iff {ms : List (String × Value)} :
    Value.membersReadable ms = true ↔ ∀ m ∈ ms, m.2.isReadable = true := by
  induction ms with
  | nil => exact iff_of_true rfl fun m hm => nomatch hm
  | cons m ms ih => rw [Value.membersReadable, Bool.and_eq_true, ih, List.forall_mem_cons]

/-- The names of members all have a value, or the object has none. -/
theorem objectOf_cases (ms : List (Option String × Value)) :
    (∃ ns, ms = ns.map (fun m => (some m.1, m.2)) ∧ objectOf ms = .object ns) ∨
      (∃ m ∈ ms, m.1 = none) ∧ objectOf ms = .unreadable := by
  unfold objectOf
  -- one name that is unreadable makes the whole object unreadable
  induction ms with
  | nil => exact .inl ⟨[], rfl, rfl⟩
  | cons m ms ih =>
    obtain ⟨k, v⟩ := m
    cases k with
    | none => exact .inr ⟨⟨_, List.mem_cons_self, rfl⟩, rfl⟩
    | some k =>
      rw [List.mapM_cons]
      generalize List.mapM (m := Option) _ ms = names at ih ⊢
      rcases ih with ⟨ns, rfl, hns⟩ | ⟨⟨m, hm, hnone⟩, hns⟩
      · cases names with
        | none => cases hns
        | some ns' =>
          cases hns
          exact .inl ⟨(k, v) :: ns, rfl, rfl⟩
      · cases names with
        | none => exact .inr ⟨⟨m, List.mem_cons_of_mem _ hm, hnone⟩, rfl⟩
        | some ns' => cases hns

theorem isReadable_objectOf {ms : List (Option String × Value)} :
    (objectOf ms).isReadable = true ↔
      ∀ m ∈ ms, m.1.isSome = true ∧ m.2.isReadable = true := by
  rcases objectOf_cases ms with ⟨ns, rfl, hobject⟩ | ⟨⟨m, hm, hnone⟩, hobject⟩
  · rw [hobject, Value.isReadable, membersReadable_iff, List.forall_mem_map]
    exact forall₂_congr fun m _ => (and_iff_right rfl).symm
  · rw [hobject]
    refine iff_of_false nofun fun h => ?_
    have hsome := (h m hm).1
    rw [hnone] at hsome
    cases hsome

/-- Whether no part of what a phrase denotes is unreadable. -/
def Phrase.IsReadable : Phrase → Prop
  | .value v => v.isReadable = true
  | .items vs => ∀ v ∈ vs, v.isReadable = true
  | .members ms => ∀ m ∈ ms, m.1.isSome = true ∧ m.2.isReadable = true

/-- **Tokens without a value.** What is unreadable of a phrase comes from a token without a value,
and every such token makes something unreadable. -/
theorem derives_valued_iff {α : Type} {spelled : Token → List α → Prop} {p : Phrase} {a : List α} :
    Derives (fun t b => t.HasValue ∧ spelled t b) p a ↔
      Derives spelled p a ∧ p.IsReadable := by
  constructor
  · -- the parts are readable, so what they are put together to is
    intro h
    induction h with
    | null h => exact ⟨.null h.2, rfl⟩
    | bool h => exact ⟨.bool h.2, rfl⟩
    | @number n a h =>
      refine ⟨.number h.2, ?_⟩
      have hfinite : n.isFinite = true := h.1
      rw [if_pos hfinite]
      rfl
    | @string s a h =>
      refine ⟨.string h.2, ?_⟩
      obtain ⟨s, rfl⟩ := Option.isSome_iff_exists.mp h.1
      rfl
    | emptyArray h₁ h₂ => exact ⟨.emptyArray h₁.2 h₂.2, rfl⟩
    | array h₁ _ h₃ ih => exact ⟨.array h₁.2 ih.1 h₃.2, allReadable_iff.mpr ih.2⟩
    | emptyObject h₁ h₂ => exact ⟨.emptyObject h₁.2 h₂.2, rfl⟩
    | object h₁ _ h₃ ih => exact ⟨.object h₁.2 ih.1 h₃.2, isReadable_objectOf.mpr ih.2⟩
    | lastItem _ ih => exact ⟨.lastItem ih.1, List.forall_mem_singleton.mpr ih.2⟩
    | item _ h₂ _ ih₁ ih₃ =>
      exact ⟨.item ih₁.1 h₂.2 ih₃.1, List.forall_mem_cons.mpr ⟨ih₁.2, ih₃.2⟩⟩
    | lastMember h₁ h₂ _ ih =>
      exact ⟨.lastMember h₁.2 h₂.2 ih.1, List.forall_mem_singleton.mpr ⟨h₁.1, ih.2⟩⟩
    | member h₁ h₂ _ h₄ _ ih₃ ih₅ =>
      exact ⟨.member h₁.2 h₂.2 ih₃.1 h₄.2 ih₅.1,
        List.forall_mem_cons.mpr ⟨⟨h₁.1, ih₃.2⟩, ih₅.2⟩⟩
  · -- of a phrase that is readable every part is, down to the tokens
    rintro ⟨h, hreadable⟩
    induction h with
    | null h => exact .null ⟨trivial, h⟩
    | bool h => exact .bool ⟨trivial, h⟩
    | @number n a h =>
      refine .number ⟨?_, h⟩
      -- an infinite number would be unreadable
      by_cases hfinite : n.isFinite = true
      · exact hfinite
      · rw [if_neg hfinite] at hreadable
        cases hreadable
    | @string s a h =>
      refine .string ⟨?_, h⟩
      cases s with
      | none => cases hreadable
      | some s => rfl
    | emptyArray h₁ h₂ => exact .emptyArray ⟨trivial, h₁⟩ ⟨trivial, h₂⟩
    | array h₁ _ h₃ ih =>
      exact .array ⟨trivial, h₁⟩ (ih (allReadable_iff.mp hreadable)) ⟨trivial, h₃⟩
    | emptyObject h₁ h₂ => exact .emptyObject ⟨trivial, h₁⟩ ⟨trivial, h₂⟩
    | object h₁ _ h₃ ih =>
      exact .object ⟨trivial, h₁⟩ (ih (isReadable_objectOf.mp hreadable)) ⟨trivial, h₃⟩
    | lastItem _ ih => exact .lastItem (ih (hreadable _ List.mem_cons_self))
    | item _ h₂ _ ih₁ ih₃ =>
      obtain ⟨hv, hvs⟩ := List.forall_mem_cons.mp hreadable
      exact .item (ih₁ hv) ⟨trivial, h₂⟩ (ih₃ hvs)
    | lastMember h₁ h₂ _ ih =>
      obtain ⟨hk, hv⟩ := List.forall_mem_singleton.mp hreadable
      exact .lastMember ⟨hk, h₁⟩ ⟨trivial, h₂⟩ (ih hv)
    | member h₁ h₂ _ h₄ _ ih₃ ih₅ =>
      obtain ⟨⟨hk, hv⟩, hms⟩ := List.forall_mem_cons.mp hreadable
      exact .member ⟨hk, h₁⟩ ⟨trivial, h₂⟩ (ih₃ hv) ⟨trivial, h₄⟩ (ih₅ hms)

theorem isValuedText_iff {text : String} {v : Value} :
    IsValuedText text v ↔ IsText text v ∧ v.isReadable = true := derives_valued_iff

end EditorInsight.Json
