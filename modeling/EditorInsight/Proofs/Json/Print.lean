import EditorInsight.Json.Print
import EditorInsight.Proofs.Json.Grammar

/-!
# Written values are texts

The compact form of a value is a text by the grammar, and denotes the value.

* `Value.isWritable` leaves out what has no literal: unreadable values, and numbers that are not
  finite or have a fraction of more than digits.
* `Number.spelled_toChars`, `spelled_stringChars` and `Value.derives_toChars` go from literals to
  values.
* `Number.isFinite_ofNat`: machine words are finite.
* `isText_render`: what is written of a value is a text of it.
-/

namespace EditorInsight.Json

/-! ### Numbers -/

theorem isDigit_eq (c : Char) : isDigit c = c.isDigit := by
  have hdigits : isDigit c = (decide ('0' ≤ c) && decide (c ≤ '9')) := Bool.decide_and _ _
  rw [hdigits]
  rfl

theorem digitsValue_eq (cs : List Char) : digitsValue cs = Nat.ofDigitChars 10 cs 0 := by
  unfold digitsValue
  rw [Nat.ofDigitChars_eq_foldl]
  refine congrArg (fun f => cs.foldl f 0) (funext fun n => funext fun c => ?_)
  rw [Nat.mul_comm, digitValue]

namespace Number

theorem natChars_digits (n : Nat) : Digits (natChars n) where
  ne_nil := Nat.toDigits_ne_nil
  isDigit c hc := by
    rw [isDigit_eq]
    exact Nat.isDigit_of_mem_toDigits (by decide) (by decide) hc

theorem digitsValue_natChars (n : Nat) : digitsValue (natChars n) = n := by
  rw [digitsValue_eq, natChars, Nat.ofDigitChars_ten_toDigits]

/-- Only zero is written with a zero in front. -/
theorem natChars_head {n : Nat} (hn : n ≠ 0) : ∀ c ∈ (natChars n).head?, c ≠ '0' := by
  induction n using Nat.strongRecOn with
  | ind n ih =>
    intro c hc
    unfold natChars at hc
    rcases Nat.lt_or_ge n 10 with hlt | hge
    · rw [Nat.toDigits_of_lt_base hlt] at hc
      obtain rfl := Option.some.inj hc
      rwa [Ne, Nat.digitChar_eq_zero]
    · -- the last digit stands behind the digits of a tenth
      obtain ⟨d, ds, hds⟩ := List.exists_cons_of_ne_nil (natChars_digits (n / 10)).ne_nil
      have hrest := ih (n / 10) (by omega) (by omega)
      rw [natChars] at hds hrest
      rw [Nat.toDigits_of_base_le (by decide) hge, hds] at hc
      rw [hds] at hrest
      exact hrest c hc

theorem wholeSpelled_natChars (n : Nat) : WholeSpelled n (natChars n) := by
  by_cases hn : n = 0
  · subst hn
    exact .zero
  · obtain ⟨d, ds, hds⟩ := List.exists_cons_of_ne_nil (natChars_digits n).ne_nil
    have hvalue := digitsValue_natChars n
    have hdigits := natChars_digits n
    have hfirst : d ≠ '0' := natChars_head hn d (by rw [hds]; rfl)
    rw [hds] at hvalue hdigits ⊢
    have hspelled := WholeSpelled.digits hfirst hdigits
    rwa [hvalue] at hspelled

/-- Whether the fraction of a literal is made of decimal digits. -/
def HasDigits (n : Number) : Prop := ∀ d ∈ n.fraction, d < 10

instance (n : Number) : Decidable n.HasDigits :=
  inferInstanceAs (Decidable (∀ d ∈ n.fraction, d < 10))

theorem digit_of_lt {d : Nat} (hd : d < 10) :
    isDigit (Char.ofNat ('0'.toNat + d)) = true ∧ digitValue (Char.ofNat ('0'.toNat + d)) = d := by
  revert d
  decide

theorem fractionSpelled_toChars {ds : List Nat} (hds : ∀ d ∈ ds, d < 10) :
    FractionSpelled ds (if ds.isEmpty then []
      else '.' :: ds.map fun d => Char.ofNat ('0'.toNat + d)) := by
  cases ds with
  | nil => exact .absent
  | cons d ds =>
    have hdigits : Digits ((d :: ds).map fun d => Char.ofNat ('0'.toNat + d)) := by
      refine ⟨List.cons_ne_nil _ _, fun c hc => ?_⟩
      obtain ⟨e, he, rfl⟩ := List.mem_map.mp hc
      exact (digit_of_lt (hds e he)).1
    have hvalues : ((d :: ds).map fun d => Char.ofNat ('0'.toNat + d)).map digitValue = d :: ds := by
      rw [List.map_map]
      exact (List.map_congr_left fun e he => (digit_of_lt (hds e he)).2).trans (List.map_id _)
    have hspelled := FractionSpelled.digits hdigits
    rwa [hvalues] at hspelled

theorem exponentSpelled_toChars (e : Option Int) :
    ExponentSpelled e (match e with
      | none => []
      | some e => exponentChars e) := by
  cases e with
  | none => exact .absent
  | some e =>
    -- the digits are those of the absolute value, and the sign is written only if it is a minus
    have hvalue := digitsValue_natChars e.natAbs
    rcases Int.lt_or_le e 0 with he | he
    · have hspelled :=
        ExponentSpelled.digits (.inl rfl : 'e' = 'e' ∨ 'e' = 'E') .minus (natChars_digits e.natAbs)
      rw [hvalue, if_pos rfl, show -(e.natAbs : Int) = e by omega] at hspelled
      change ExponentSpelled (some e) (exponentChars e)
      rwa [exponentChars, if_pos he]
    · have hspelled :=
        ExponentSpelled.digits (.inl rfl : 'e' = 'e' ∨ 'e' = 'E') .absent (natChars_digits e.natAbs)
      rw [hvalue, if_neg Bool.false_ne_true, show (e.natAbs : Int) = e by omega] at hspelled
      change ExponentSpelled (some e) (exponentChars e)
      rwa [exponentChars, if_neg (by omega)]

theorem spelled_toChars {n : Number} (h : n.HasDigits) : n.Spelled n.toChars := by
  obtain ⟨negative, whole, ds, e⟩ := n
  have hunsigned (b : Bool) : UnsignedSpelled b ⟨b, whole, ds, e⟩ _ :=
    .mk (wholeSpelled_natChars whole) (fractionSpelled_toChars h) (exponentSpelled_toChars e)
  unfold toChars
  cases negative with
  | true => exact .negative (hunsigned true)
  | false => exact .positive (hunsigned false)

end Number

/-! ### Machine words

Every machine word is a finite double: its digits all fit, and rounding at most doubles it. -/

namespace Number

theorem le_foldl_digits (ds : List Nat) (s : Nat) : s ≤ ds.foldl (fun s d => s * 10 + d) s := by
  induction ds generalizing s with
  | nil => exact Nat.le_refl s
  | cons d ds ih => exact Nat.le_trans (by omega) (ih (s * 10 + d))

theorem ofWhole_eq {ds : List Nat} {s : Nat}
    (h : ds.foldl (fun s d => s * 10 + d) s < wordSize) :
    Scaled.ofWhole s ds = ⟨ds.foldl (fun s d => s * 10 + d) s, 0⟩ := by
  induction ds generalizing s with
  | nil => rfl
  | cons d ds ih =>
    have hfits : s * 10 + d < wordSize := Nat.lt_of_le_of_lt (le_foldl_digits ds (s * 10 + d)) h
    rw [Scaled.ofWhole, if_pos hfits]
    exact ih h

theorem foldl_digits (n : Nat) : (digits n).foldl (fun s d => s * 10 + d) 0 = n := by
  rw [digits, List.foldl_map]
  exact digitsValue_natChars n

theorem roundToDouble_le (n : Nat) : roundToDouble n ≤ 2 * n := by
  unfold roundToDouble
  simp only [Nat.shiftRight_eq_div_pow, Nat.shiftLeft_eq]
  split
  · omega
  · next hbits =>
    have hkept := Nat.div_mul_le_self n (2 ^ (n.log2 + 1 - 53))
    split
    · -- what is added is no more than the highest bit
      have hne : n ≠ 0 := by
        rintro rfl
        exact hbits (by decide)
      have hpower : 2 ^ (n.log2 + 1 - 53) ≤ n :=
        Nat.le_trans (Nat.pow_le_pow_right (by decide) (by omega)) (Nat.log2_self_le hne)
      rw [Nat.add_mul, Nat.one_mul]
      omega
    · omega

theorem isFinite_ofNat {n : Nat} (h : n < wordSize) : (ofNat n).isFinite = true := by
  have hvalue := foldl_digits n
  have hscaled : (ofNat n).scaled = ⟨n, 0⟩ := by
    have hwhole := ofWhole_eq (Nat.lt_of_le_of_lt (Nat.le_of_eq hvalue) h)
    rw [hvalue] at hwhole
    simp only [scaled, ofNat, hwhole, Scaled.addFraction, Option.getD_none]
    rfl
  -- rounding makes a number twice as large at most, and twice a word is far below the limit
  have hlimit : 2 * wordSize ≤ doubleLimit := by decide +kernel
  have hone : roundToDouble (Nat.pow 10 0) = 1 := by decide
  have hround := roundToDouble_le n
  have hsmall : roundToDouble n * roundToDouble (Nat.pow 10 (0 : Int).toNat) < doubleLimit := by
    change roundToDouble n * roundToDouble (Nat.pow 10 0) < doubleLimit
    rw [hone, Nat.mul_one]
    omega
  rw [isFinite, hscaled, Scaled.isFinite, Bool.or_eq_true]
  exact .inr ((Bool.and_eq_true _ _).mpr ⟨rfl, decide_eq_true hsmall⟩)

end Number

/-! ### Strings -/

/-- How a character is written: with one of the short escapes, with an escape of its code if it is
a control character, or as it is. -/
theorem escape_cases (c : Char) :
    (∃ d, escape c = ['\\', d] ∧ simpleEscape? d = some c) ∨
      (escape c = ['\\', 'u', '0', '0', hexDigit (c.toNat / 16), hexDigit (c.toNat % 16)] ∧
        c.toNat < 0x20) ∨
      (escape c = [c] ∧ 0x20 ≤ c.toNat ∧ c ≠ '"' ∧ c ≠ '\\') := by
  by_cases hshort : c = '"' ∨ c = '\\' ∨ c = '\x08' ∨ c = '\x0c' ∨ c = '\n' ∨ c = '\r' ∨ c = '\t'
  · rcases hshort with rfl | rfl | rfl | rfl | rfl | rfl | rfl <;> exact .inl ⟨_, rfl, rfl⟩
  · simp only [not_or] at hshort
    obtain ⟨hquote, hbackslash, hb, hf, hn, hr, ht⟩ := hshort
    simp only [escape, beq_iff_eq, hquote, hbackslash, hb, hf, hn, hr, ht, if_false]
    by_cases hcontrol : c.toNat < 0x20
    · exact .inr (.inl ⟨if_pos hcontrol, hcontrol⟩)
    · exact .inr (.inr ⟨if_neg hcontrol, Nat.not_lt.mp hcontrol, hquote, hbackslash⟩)

/-- An escape of the code of a control character. -/
theorem spelled_control {c : Char} (hc : c.toNat < 0x20) :
    (Piece.unit c.toNat).Spelled
      ['\\', 'u', '0', '0', hexDigit (c.toNat / 16), hexDigit (c.toNat % 16)] := by
  have hzero : hexDigit? '0' = some 0 := rfl
  have hhex : ∀ d < 16, hexDigit? (hexDigit d) = some d := by decide
  have hspelled := Piece.Spelled.unit hzero hzero (hhex (c.toNat / 16) (by omega))
    (hhex (c.toNat % 16) (by omega))
  rwa [show ((0 * 16 + 0) * 16 + c.toNat / 16) * 16 + c.toNat % 16 = c.toNat by omega] at hspelled

/-- Every character is written as a piece that stands for it, whatever follows. -/
theorem exists_spelled_escape (c : Char) : ∃ p : Piece, p.Spelled (escape c) ∧
    ∀ ps cs, Joined ps cs → Joined (p :: ps) (c :: cs) := by
  rcases escape_cases c with ⟨d, hescape, hshort⟩ | ⟨hescape, hcontrol⟩ |
    ⟨hescape, hprintable, hquote, hbackslash⟩
  · exact ⟨.char c, hescape ▸ .escape hshort, fun ps cs => .char⟩
  · refine ⟨.unit c.toNat, hescape ▸ spelled_control hcontrol, fun ps cs hjoined => ?_⟩
    have hhigh : isHighSurrogate c.toNat = false := by simp [isHighSurrogate]; omega
    have hlow : isLowSurrogate c.toNat = false := by simp [isLowSurrogate]; omega
    have hunit := Joined.unit hhigh hlow hjoined
    rwa [Char.ofNat_toNat] at hunit
  · exact ⟨.char c, hescape ▸ .plain hprintable hquote hbackslash, fun ps cs => .char⟩

theorem exists_spelled_escapes (cs : List Char) :
    ∃ ps, PiecesSpelled ps (cs.flatMap escape) ∧ Joined ps cs := by
  induction cs with
  | nil => exact ⟨[], .nil, .nil⟩
  | cons c cs ih =>
    obtain ⟨ps, hps, hjoined⟩ := ih
    obtain ⟨p, hp, hjoin⟩ := exists_spelled_escape c
    exact ⟨p :: ps, .cons hp hps, hjoin ps cs hjoined⟩

theorem spelled_stringChars (s : String) : Token.Spelled (.string (some s)) (stringChars s) := by
  obtain ⟨ps, hps, hjoined⟩ := exists_spelled_escapes s.toList
  have hspelled := Token.Spelled.string hps hjoined
  rwa [String.ofList_toList] at hspelled

/-! ### Values -/

namespace Value

mutual

/-- Whether a value can be written so that it is read again. -/
def isWritable : Value → Bool
  | null | bool _ | string _ => true
  | number n => n.isFinite && decide n.HasDigits
  | array items => allWritable items
  | object members => membersWritable members
  | unreadable => false

/-- `isWritable` of every item. -/
def allWritable : List Value → Bool
  | [] => true
  | v :: vs => isWritable v && allWritable vs

/-- `isWritable` of every member. -/
def membersWritable : List (String × Value) → Bool
  | [] => true
  | (_, v) :: ms => isWritable v && membersWritable ms

end

mutual

theorem isReadable_of_isWritable : (v : Value) → v.isWritable = true → v.isReadable = true
  | .null, _ | .bool _, _ | .string _, _ | .number _, _ => rfl
  | .array items, h => allReadable_of_allWritable items h
  | .object members, h => membersReadable_of_membersWritable members h

theorem allReadable_of_allWritable :
    (vs : List Value) → allWritable vs = true → allReadable vs = true
  | [], _ => rfl
  | v :: vs, h => by
    obtain ⟨hv, hvs⟩ := (Bool.and_eq_true _ _).mp h
    rw [allReadable, isReadable_of_isWritable v hv, allReadable_of_allWritable vs hvs]
    rfl

theorem membersReadable_of_membersWritable :
    (ms : List (String × Value)) → membersWritable ms = true → membersReadable ms = true
  | [], _ => rfl
  | (k, v) :: ms, h => by
    obtain ⟨hv, hms⟩ := (Bool.and_eq_true _ _).mp h
    rw [membersReadable, isReadable_of_isWritable v hv, membersReadable_of_membersWritable ms hms]
    rfl

end

theorem isWritable_nat {n : Nat} (h : n < wordSize) : (nat n).isWritable = true := by
  have hdigits : (Number.ofNat n).HasDigits := fun d hd => nomatch hd
  rw [nat, isWritable, Number.isFinite_ofNat h, decide_eq_true hdigits]
  rfl

theorem allWritable_iff {vs : List Value} :
    allWritable vs = true ↔ ∀ v ∈ vs, v.isWritable = true := by
  induction vs with
  | nil => exact iff_of_true rfl fun v hv => nomatch hv
  | cons v vs ih => rw [allWritable, Bool.and_eq_true, ih, List.forall_mem_cons]

/-- Members whose names all have a value. -/
def named (ms : List (String × Value)) : List (Option String × Value) :=
  ms.map fun m => (some m.1, m.2)

theorem objectOf_named (ms : List (String × Value)) : objectOf (named ms) = .object ms := by
  rcases objectOf_cases (named ms) with ⟨ns, hns, hobject⟩ | ⟨⟨m, hm, hnone⟩, -⟩
  · have hinjective (m n : String × Value) (h : (some m.1, m.2) = (some n.1, n.2)) : m = n :=
      Prod.ext (Option.some.inj (Prod.mk.inj h).1) (Prod.mk.inj h).2
    obtain rfl : ms = ns := (List.map_inj_right hinjective).mp hns
    exact hobject
  · obtain ⟨n, -, rfl⟩ := List.mem_map.mp hm
    cases hnone

end Value

theorem Token.Spelled.padded {t : Token} {cs : List Char} (h : t.Spelled cs) : t.Padded cs := by
  have hnone : Token.Blanks [] := fun c hc => nomatch hc
  exact ⟨[], cs, [], hnone, h, hnone, by rw [List.nil_append, List.append_nil]⟩

namespace Value

mutual

/-- What is written of a value, of items and of members is a phrase. The recursion is that of the
writer. -/
theorem derives_toChars : (v : Value) → v.isWritable = true →
    Derives Token.Padded (.value v) v.toChars
  | .null, _ => .null Token.Spelled.null.padded
  | .bool true, _ => .bool Token.Spelled.true.padded
  | .bool false, _ => .bool Token.Spelled.false.padded
  | .number n, h => by
    obtain ⟨hfinite, hdigits⟩ := (Bool.and_eq_true _ _).mp h
    have hnumber : Derives Token.Padded _ n.toChars :=
      .number (Token.Spelled.number (Number.spelled_toChars (of_decide_eq_true hdigits))).padded
    rwa [if_pos hfinite] at hnumber
  | .string s, _ => .string (spelled_stringChars s).padded
  | .array [], _ => .emptyArray Token.Spelled.openArray.padded Token.Spelled.closeArray.padded
  | .array (v :: vs), h =>
    .array Token.Spelled.openArray.padded (derives_itemsChars (v :: vs) (List.cons_ne_nil v vs) h)
      Token.Spelled.closeArray.padded
  | .object [], _ => .emptyObject Token.Spelled.openObject.padded Token.Spelled.closeObject.padded
  | .object (m :: ms), h => by
    have hmembers := derives_membersChars (m :: ms) (List.cons_ne_nil m ms) h
    have hobject := Derives.object Token.Spelled.openObject.padded hmembers
      Token.Spelled.closeObject.padded
    rwa [objectOf_named] at hobject

theorem derives_itemsChars : (vs : List Value) → vs ≠ [] → allWritable vs = true →
    Derives Token.Padded (.items vs) (itemsChars vs)
  | [], hne, _ => absurd rfl hne
  | [v], _, h => .lastItem (derives_toChars v ((Bool.and_eq_true _ _).mp h).1)
  | v :: w :: vs, _, h => by
    obtain ⟨hv, hvs⟩ := (Bool.and_eq_true _ _).mp h
    have hitem := Derives.item (derives_toChars v hv) Token.Spelled.comma.padded
      (derives_itemsChars (w :: vs) (List.cons_ne_nil w vs) hvs)
    rwa [List.append_assoc] at hitem

theorem derives_membersChars : (ms : List (String × Value)) → ms ≠ [] →
    membersWritable ms = true → Derives Token.Padded (.members (named ms)) (membersChars ms)
  | [], hne, _ => absurd rfl hne
  | [(k, v)], _, h => by
    have hv := derives_toChars v ((Bool.and_eq_true _ _).mp h).1
    have hmember := Derives.lastMember (spelled_stringChars k).padded Token.Spelled.colon.padded hv
    rwa [List.append_assoc] at hmember
  | (k, v) :: m :: ms, _, h => by
    obtain ⟨hv, hms⟩ := (Bool.and_eq_true _ _).mp h
    have hmember := Derives.member (spelled_stringChars k).padded Token.Spelled.colon.padded
      (derives_toChars v hv) Token.Spelled.comma.padded
      (derives_membersChars (m :: ms) (List.cons_ne_nil m ms) hms)
    simp only [List.append_assoc] at hmember
    rw [membersChars, List.append_assoc]
    exact hmember

end

end Value

/-- **What is written is read again**, as far as the grammar goes. -/
theorem isText_render {v : Value} (h : v.isWritable = true) : IsText (render v) v := by
  unfold IsText render
  rw [String.toList_ofList]
  exact v.derives_toChars h

end EditorInsight.Json
