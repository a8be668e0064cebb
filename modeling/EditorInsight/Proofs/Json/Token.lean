import EditorInsight.Proofs.Json.Grammar

/-!
# Scanning is exact

The scanner takes a text apart into tokens just as the grammar allows. A token is read off the front
of a text as soon as what follows cannot be a part of it, which is a question for numbers alone:
nothing else can be spelled longer.

* `Delimited` says of what follows that it does not go on with a number.
* `stringPieces_sound`, `stringPieces_complete`, `scanUnsigned_sound` and `scanUnsigned_complete` are
  the literals.
* `scanOne_sound` and `scanOne_complete` are one token.
* `scan_sound`: a scanned text is the row of its tokens, with blanks between them, or blank.
* `Derives.exists_scan`: what is a phrase by the grammar is scanned into a row of tokens that is the
  same phrase.
-/

namespace EditorInsight.Json

/-! ### Digits -/

/-- What follows does not go on with a digit. -/
def NoDigit (cs : List Char) : Prop := ∀ c ∈ cs.head?, isDigit c = false

/-- What follows does not go on with a number. -/
def Delimited (cs : List Char) : Prop :=
  ∀ c ∈ cs.head?, isDigit c = false ∧ c ≠ '.' ∧ c ≠ 'e' ∧ c ≠ 'E'

theorem Delimited.noDigit {cs : List Char} (h : Delimited cs) : NoDigit cs :=
  fun c hc => (h c hc).1

theorem spanDigits_append {ds rest : List Char} (hds : ∀ c ∈ ds, isDigit c = true)
    (hrest : NoDigit rest) : spanDigits (ds ++ rest) = (ds, rest) := by
  unfold spanDigits
  rw [List.takeWhile_append_of_pos hds, List.dropWhile_append_of_pos hds]
  cases rest with
  | nil => rw [List.takeWhile_nil, List.append_nil, List.dropWhile_nil]
  | cons c cs =>
    have hc : ¬ isDigit c = true := by rw [hrest c rfl]; exact Bool.false_ne_true
    rw [List.takeWhile_cons_of_neg hc, List.append_nil, List.dropWhile_cons_of_neg hc]

theorem spanDigits_eq {cs ds rest : List Char} (h : spanDigits cs = (ds, rest)) :
    cs = ds ++ rest ∧ ∀ c ∈ ds, isDigit c = true := by
  obtain ⟨rfl, rfl⟩ := Prod.mk.inj h
  exact ⟨List.takeWhile_append_dropWhile.symm, List.all_eq_true.mp List.all_takeWhile⟩

/-! ### The parts of a number -/

section Numbers

open Number

variable {cs rest : List Char}

theorem wholePart_sound {n : Nat} (h : wholePart cs = some (n, rest)) :
    ∃ ws, cs = ws ++ rest ∧ WholeSpelled n ws := by
  unfold wholePart at h
  split at h
  · cases h
  · next d ds r hspan =>
    obtain ⟨rfl, hdigits⟩ := spanDigits_eq hspan
    split at h
    · cases h
    · next hzero =>
      cases h
      refine ⟨d :: ds, rfl, ?_⟩
      by_cases hd : d = '0'
      · -- a zero at the front is the only digit
        subst hd
        have hds : ds = [] := by simpa using hzero
        subst hds
        exact .zero
      · exact .digits hd ⟨List.cons_ne_nil d ds, hdigits⟩

theorem wholePart_complete {n : Nat} {ws : List Char} (h : WholeSpelled n ws)
    (hrest : NoDigit rest) : wholePart (ws ++ rest) = some (n, rest) := by
  unfold wholePart
  cases h with
  | zero =>
    rw [spanDigits_append (List.forall_mem_singleton.mpr rfl) hrest]
    rfl
  | digits first digits =>
    rw [spanDigits_append digits.isDigit hrest]
    have hfirst : (_ == '0') = false := beq_eq_false_iff_ne.mpr first
    simp only [hfirst, Bool.false_and, Bool.false_eq_true, if_false]

theorem fractionPart_sound {ds : List Nat} (h : fractionPart cs = some (ds, rest)) :
    ∃ fs, cs = fs ++ rest ∧ FractionSpelled ds fs := by
  unfold fractionPart at h
  split at h
  · split at h
    · cases h
    · next ds r hne hspan =>
      obtain ⟨rfl, hdigits⟩ := spanDigits_eq hspan
      cases h
      exact ⟨'.' :: ds, rfl, .digits ⟨fun hnil => hne hnil, hdigits⟩⟩
  · cases h
    exact ⟨[], rfl, .absent⟩

theorem fractionPart_complete {ds : List Nat} {fs : List Char} (h : FractionSpelled ds fs)
    (hdigit : NoDigit rest) (hpoint : ∀ c ∈ rest.head?, c ≠ '.') :
    fractionPart (fs ++ rest) = some (ds, rest) := by
  cases h with
  | absent =>
    -- what follows does not begin with a point, so it is not taken for a fraction
    unfold fractionPart
    split
    · next heq => exact absurd rfl (hpoint '.' (by rw [← List.nil_append rest, heq]; rfl))
    · rfl
  | digits digits =>
    rw [List.cons_append, fractionPart, spanDigits_append digits.isDigit hdigit]
    split
    · next hnil => exact absurd (Prod.mk.inj hnil).1 digits.ne_nil
    · next heq =>
      obtain ⟨rfl, rfl⟩ := Prod.mk.inj heq
      rfl

theorem exponentSign_sound {negative : Bool} (h : exponentSign cs = (negative, rest)) :
    ∃ ss, cs = ss ++ rest ∧ SignSpelled negative ss := by
  unfold exponentSign at h
  split at h
  · cases h; exact ⟨['-'], rfl, .minus⟩
  · cases h; exact ⟨['+'], rfl, .plus⟩
  · cases h; exact ⟨[], rfl, .absent⟩

theorem exponentSign_complete {negative : Bool} {ss ds : List Char}
    (h : SignSpelled negative ss) (hds : Digits ds) :
    exponentSign (ss ++ (ds ++ rest)) = (negative, ds ++ rest) := by
  cases h with
  | absent =>
    obtain ⟨d, ds, rfl⟩ := List.exists_cons_of_ne_nil hds.ne_nil
    have hd : isDigit d = true := hds.isDigit d List.mem_cons_self
    unfold exponentSign
    split
    · next heq => cases heq; cases hd
    · next heq => cases heq; cases hd
    · rfl
  | plus => rfl
  | minus => rfl

theorem exponentPart_sound {e : Option Int} (h : exponentPart cs = some (e, rest)) :
    ∃ es, cs = es ++ rest ∧ ExponentSpelled e es := by
  unfold exponentPart at h
  split at h
  · cases h
    exact ⟨[], rfl, .absent⟩
  · next c cs =>
    split at h
    · next hletter =>
      -- behind the letter a sign may stand, and there has to be a digit
      have hletter : c = 'e' ∨ c = 'E' := by simpa using hletter
      cases hsign : exponentSign cs with
      | mk negative r =>
        obtain ⟨ss, rfl, hss⟩ := exponentSign_sound hsign
        rw [hsign] at h
        simp only at h
        split at h
        · cases h
        · next ds r' hne hspan =>
          obtain ⟨rfl, hdigits⟩ := spanDigits_eq hspan
          cases h
          refine ⟨c :: ss ++ ds, ?_, .digits hletter hss ⟨fun hnil => hne hnil, hdigits⟩⟩
          rw [List.append_assoc, List.cons_append]
    · cases h
      exact ⟨[], rfl, .absent⟩

theorem exponentPart_complete {e : Option Int} {es : List Char} (h : ExponentSpelled e es)
    (hdigit : NoDigit rest) (hletter : ∀ c ∈ rest.head?, c ≠ 'e' ∧ c ≠ 'E') :
    exponentPart (es ++ rest) = some (e, rest) := by
  cases h with
  | absent =>
    cases rest with
    | nil => rfl
    | cons c cs =>
      obtain ⟨he, hE⟩ := hletter c rfl
      have hnot : (c == 'e' || c == 'E') = false := by simp [he, hE]
      rw [List.nil_append, exponentPart, hnot]
      rfl
  | @digits c negative ss ds letter sign digits =>
    have hc : (c == 'e' || c == 'E') = true := by simpa using letter
    rw [List.append_assoc, List.cons_append, exponentPart, if_pos hc,
      exponentSign_complete sign digits]
    simp only [spanDigits_append digits.isDigit hdigit]
    split
    · next hnil => exact absurd (Prod.mk.inj hnil).1 digits.ne_nil
    · next heq =>
      obtain ⟨rfl, rfl⟩ := Prod.mk.inj heq
      rfl

/-! ### Numbers -/

theorem scanUnsigned_sound {negative : Bool} {t : Token}
    (h : scanUnsigned negative cs = some (t, rest)) :
    ∃ n lexeme, t = .number n ∧ cs = lexeme ++ rest ∧ UnsignedSpelled negative n lexeme := by
  unfold scanUnsigned at h
  simp only [bind, Option.bind_eq_some_iff] at h
  obtain ⟨⟨n, r₁⟩, h₁, ⟨ds, r₂⟩, h₂, ⟨e, r₃⟩, h₃, h⟩ := h
  obtain ⟨ws, rfl, hws⟩ := wholePart_sound h₁
  obtain ⟨fs, hfs, hfraction⟩ := fractionPart_sound h₂
  obtain ⟨es, hes, hexponent⟩ := exponentPart_sound h₃
  cases h
  simp only at hfs hes
  refine ⟨_, ws ++ fs ++ es, rfl, ?_, .mk hws hfraction hexponent⟩
  rw [hfs, hes, List.append_assoc, List.append_assoc]

/-- A number is read as long as it can be, so what follows may not go on with it. -/
theorem scanUnsigned_complete {negative : Bool} {n : Number} {lexeme : List Char}
    (h : UnsignedSpelled negative n lexeme) (hrest : Delimited rest) :
    scanUnsigned negative (lexeme ++ rest) = some (.number n, rest) := by
  obtain @⟨n, ds, e, ws, fs, es, hws, hfs, hes⟩ := h
  -- behind the fraction comes the letter of the exponent or what follows the number
  have hexponent : ∀ c ∈ (es ++ rest).head?, isDigit c = false ∧ c ≠ '.' := by
    cases hes with
    | absent => exact fun c hc => ⟨(hrest c hc).1, (hrest c hc).2.1⟩
    | digits letter =>
      rintro c hc
      obtain rfl := Option.some.inj hc
      rcases letter with rfl | rfl <;> decide
  -- behind the digits in front comes the point, or what comes behind the fraction
  have hfraction : NoDigit (fs ++ (es ++ rest)) := by
    cases hfs with
    | absent => exact fun c hc => (hexponent c hc).1
    | digits =>
      rintro c hc
      obtain rfl := Option.some.inj hc
      decide
  have h₁ := wholePart_complete hws hfraction
  have h₂ := fractionPart_complete hfs (fun c hc => (hexponent c hc).1) fun c hc =>
    (hexponent c hc).2
  have h₃ := exponentPart_complete hes hrest.noDigit fun c hc => (hrest c hc).2.2
  rw [List.append_assoc, List.append_assoc, scanUnsigned, h₁]
  simp only [bind, Option.bind_some, h₂, h₃]
  rfl

end Numbers

/-! ### Strings -/

theorem stringPieces_sound {cs rest : List Char} {ps : List Piece}
    (h : stringPieces cs = some (ps, rest)) :
    ∃ lexeme, cs = lexeme ++ '"' :: rest ∧ PiecesSpelled ps lexeme := by
  fun_induction stringPieces cs generalizing ps rest with
  | case1 => cases h
  | case2 cs =>
    cases h
    exact ⟨[], rfl, .nil⟩
  | case3 a b c d cs ih =>
    -- a unit that is written with four hexadecimal digits
    simp only [bind, Option.bind_eq_some_iff] at h
    obtain ⟨p, hp, q, hq, r, hr, s, hs, ⟨ps', r'⟩, htail, h⟩ := h
    cases h
    obtain ⟨lexeme, rfl, hlexeme⟩ := ih htail
    exact ⟨['\\', 'u', a, b, c, d] ++ lexeme, rfl, .cons (.unit hp hq hr hs) hlexeme⟩
  | case4 d cs _ ih =>
    -- a character that is escaped by a letter or a sign
    simp only [bind, Option.bind_eq_some_iff] at h
    obtain ⟨c, hc, ⟨ps', r'⟩, htail, h⟩ := h
    cases h
    obtain ⟨lexeme, rfl, hlexeme⟩ := ih htail
    exact ⟨['\\', d] ++ lexeme, rfl, .cons (.escape hc) hlexeme⟩
  | case5 => cases h
  | case6 c cs hquote _ _ hplain ih =>
    -- any other character stands for itself, unless it is a control character
    simp only [bind, Option.bind_eq_some_iff] at h
    obtain ⟨⟨ps', r'⟩, htail, h⟩ := h
    cases h
    obtain ⟨lexeme, rfl, hlexeme⟩ := ih htail
    have hplain : 0x20 ≤ c.toNat ∧ c ≠ '\\' := by simpa using hplain
    exact ⟨[c] ++ lexeme, rfl, .cons (.plain hplain.1 (fun hc => hquote hc) hplain.2) hlexeme⟩

/-- A piece at the front is taken off, whatever follows it. -/
theorem stringPieces_append {p : Piece} {cs : List Char} (h : p.Spelled cs) (rest : List Char) :
    stringPieces (cs ++ rest) = (stringPieces rest).map fun r => (p :: r.1, r.2) := by
  cases h with
  | @plain c printable not_quote not_backslash =>
    have hnot : (c.toNat < 0x20 || c == '\\') = false := by
      simp [not_backslash, Nat.not_lt.mpr printable]
    -- the equation of the last pattern asks that none of the patterns before it matches
    rw [List.singleton_append, stringPieces.eq_5]
    · rw [hnot]
      cases stringPieces rest <;> rfl
    · exact not_quote
    · rintro a b c' d cs hc -
      exact not_backslash hc
    · rintro d cs hc -
      exact not_backslash hc
  | @escape c d escape =>
    have hd : d ≠ 'u' := by rintro rfl; cases escape
    rw [List.cons_append, List.singleton_append, stringPieces.eq_4]
    · rw [escape]
      cases stringPieces rest <;> rfl
    · rintro a b c' d' cs hu -
      exact hd hu
  | unit first second third last =>
    simp only [List.cons_append, List.nil_append]
    rw [stringPieces, first, second, third, last]
    cases stringPieces rest <;> rfl

theorem stringPieces_complete {ps : List Piece} {cs : List Char} (h : PiecesSpelled ps cs)
    (rest : List Char) : stringPieces (cs ++ '"' :: rest) = some (ps, rest) := by
  induction h with
  | nil => rfl
  | cons head _ ih =>
    rw [List.append_assoc, stringPieces_append head, ih]
    rfl

theorem joinPieces_unit {code : Nat} (not_high : isHighSurrogate code = false)
    (not_low : isLowSurrogate code = false) (ps : List Piece) :
    joinPieces (.unit code :: ps) = (joinPieces ps).map (Char.ofNat code :: ·) := by
  cases ps with
  | nil => simp [joinPieces, not_high, not_low]
  | cons p ps => cases p <;> simp [joinPieces, not_high, not_low]

theorem joinPieces_eq_some_iff {ps : List Piece} {cs : List Char} :
    joinPieces ps = some cs ↔ Joined ps cs := by
  constructor
  · intro h
    fun_induction joinPieces ps generalizing cs with
    | case1 =>
      cases h
      exact .nil
    | case2 c ps ih =>
      obtain ⟨ds, hds, rfl⟩ := Option.map_eq_some_iff.mp h
      exact .char (ih hds)
    | case3 a b ps high low ih =>
      -- a high surrogate has to be followed by a low one, and both are one character
      obtain ⟨ds, hds, rfl⟩ := Option.map_eq_some_iff.mp h
      exact .pair high low (ih hds)
    | case4 => cases h
    | case5 => cases h
    | case6 a b ps not_high not_low ih =>
      -- a unit that is no surrogate is a character, whether another unit follows or something else
      obtain ⟨ds, hds, rfl⟩ := Option.map_eq_some_iff.mp h
      exact .unit (by simpa using not_high) (by simpa using not_low) (ih hds)
    | case7 => cases h
    | case8 code ps _ hplain ih =>
      obtain ⟨ds, hds, rfl⟩ := Option.map_eq_some_iff.mp h
      obtain ⟨not_high, not_low⟩ : isHighSurrogate code = false ∧ isLowSurrogate code = false := by
        simpa using hplain
      exact .unit not_high not_low (ih hds)
  · intro h
    induction h with
    | nil => rfl
    | char _ ih => rw [joinPieces, ih, Option.map_some]
    | unit not_high not_low _ ih => rw [joinPieces_unit not_high not_low, ih, Option.map_some]
    | pair high low _ ih => rw [joinPieces, if_pos high, if_pos low, ih, Option.map_some]

theorem joinPieces_eq_none_iff {ps : List Piece} :
    joinPieces ps = none ↔ ¬ ∃ text, Joined ps text := by
  rw [Option.eq_none_iff_forall_ne_some, not_exists]
  exact forall_congr' fun text => not_congr joinPieces_eq_some_iff

theorem spelled_string {ps : List Piece} {cs : List Char} (h : PiecesSpelled ps cs) :
    Token.Spelled (.string ((joinPieces ps).map String.ofList)) ('"' :: cs ++ ['"']) := by
  cases hjoin : joinPieces ps with
  | none => exact .halfPair h (joinPieces_eq_none_iff.mp hjoin)
  | some text => exact .string h (joinPieces_eq_some_iff.mp hjoin)

theorem scanString_complete {ps : List Piece} {cs : List Char} (h : PiecesSpelled ps cs)
    (rest : List Char) : ∃ ds, ('"' :: cs ++ ['"']) ++ rest = '"' :: ds ∧
      scanString ds = some (.string ((joinPieces ps).map String.ofList), rest) := by
  refine ⟨cs ++ '"' :: rest, ?_, ?_⟩
  · rw [List.cons_append, List.cons_append, List.append_assoc, List.singleton_append]
  · rw [scanString, stringPieces_complete h]
    rfl

/-! ### One token -/

theorem spelled_of_punctuation? {c : Char} {t : Token} (h : punctuation? c = some t) :
    t.Spelled [c] := by
  unfold punctuation? at h
  split at h <;> cases h
  · exact .openArray
  · exact .closeArray
  · exact .openObject
  · exact .closeObject
  · exact .comma
  · exact .colon

theorem scanName_sound {cs rest : List Char} {t : Token} (h : scanName cs = some (t, rest)) :
    ∃ lexeme, cs = lexeme ++ rest ∧ t.Spelled lexeme := by
  unfold scanName at h
  split at h
  · cases h; exact ⟨['n', 'u', 'l', 'l'], rfl, .null⟩
  · cases h; exact ⟨['t', 'r', 'u', 'e'], rfl, .true⟩
  · cases h; exact ⟨['f', 'a', 'l', 's', 'e'], rfl, .false⟩
  · cases h

theorem scanOne_sound {c : Char} {cs rest : List Char} {t : Token}
    (h : scanOne c cs = some (t, rest)) :
    ∃ lexeme, c :: cs = lexeme ++ rest ∧ t.Spelled lexeme := by
  unfold scanOne at h
  split at h
  · next hpunctuation =>
    cases h
    exact ⟨[c], rfl, spelled_of_punctuation? hpunctuation⟩
  · split at h
    · next hquote =>
      obtain rfl := beq_iff_eq.mp hquote
      obtain ⟨⟨ps, r⟩, hpieces, hread⟩ := Option.map_eq_some_iff.mp h
      obtain ⟨lexeme, rfl, hlexeme⟩ := stringPieces_sound hpieces
      cases hread
      refine ⟨'"' :: lexeme ++ ['"'], ?_, spelled_string hlexeme⟩
      rw [List.cons_append, List.cons_append, List.append_assoc, List.singleton_append]
    · split at h
      · -- a minus sign belongs to the number behind it
        next hminus =>
        obtain rfl := beq_iff_eq.mp hminus
        obtain ⟨n, lexeme, rfl, rfl, hn⟩ := scanUnsigned_sound h
        exact ⟨'-' :: lexeme, rfl, .number (.negative hn)⟩
      · split at h
        · obtain ⟨n, lexeme, rfl, hcs, hn⟩ := scanUnsigned_sound h
          exact ⟨lexeme, hcs, .number (.positive hn)⟩
        · exact scanName_sound h

/-- A digit begins a number and nothing else. -/
theorem scanOne_digit {c : Char} (h : isDigit c = true) (cs : List Char) :
    isSpace c = false ∧ scanOne c cs = scanUnsigned false (c :: cs) := by
  have hne (d : Char) (hd : isDigit d = false) : c ≠ d := by
    rintro rfl
    rw [h] at hd
    cases hd
  have hspace : isSpace c = false := by
    simp [isSpace, hne ' ' rfl, hne '\t' rfl, hne '\n' rfl, hne '\r' rfl]
  have hpunctuation : punctuation? c = none := by
    unfold punctuation?
    split <;> first | rfl | cases h
  refine ⟨hspace, ?_⟩
  rw [scanOne, hpunctuation]
  simp [hne '"' rfl, hne '-' rfl, h]

theorem Number.UnsignedSpelled.head {negative : Bool} {n : Number} {cs : List Char}
    (h : n.UnsignedSpelled negative cs) : ∃ d ds, cs = d :: ds ∧ isDigit d = true := by
  obtain @⟨n, ds, e, ws, fs, es, hws, hfs, hes⟩ := h
  cases hws with
  | zero => exact ⟨'0', fs ++ es, rfl, rfl⟩
  | @digits d ds first digits =>
    exact ⟨d, ds ++ fs ++ es, rfl, digits.isDigit d List.mem_cons_self⟩

/-- A token at the front is taken off, unless it is a number and what follows goes on with it. -/
theorem scanOne_complete {t : Token} {lexeme rest : List Char} (h : t.Spelled lexeme)
    (hrest : ∀ n, t = .number n → Delimited rest) :
    ∃ c cs, lexeme ++ rest = c :: cs ∧ isSpace c = false ∧ scanOne c cs = some (t, rest) := by
  cases h with
  | openArray => exact ⟨'[', rest, rfl, rfl, rfl⟩
  | closeArray => exact ⟨']', rest, rfl, rfl, rfl⟩
  | openObject => exact ⟨'\x7b', rest, rfl, rfl, rfl⟩
  | closeObject => exact ⟨'\x7d', rest, rfl, rfl, rfl⟩
  | comma => exact ⟨',', rest, rfl, rfl, rfl⟩
  | colon => exact ⟨':', rest, rfl, rfl, rfl⟩
  | null => exact ⟨'n', 'u' :: 'l' :: 'l' :: rest, rfl, rfl, rfl⟩
  | true => exact ⟨'t', 'r' :: 'u' :: 'e' :: rest, rfl, rfl, rfl⟩
  | false => exact ⟨'f', 'a' :: 'l' :: 's' :: 'e' :: rest, rfl, rfl, rfl⟩
  | number number =>
    cases number with
    | positive unsigned =>
      obtain ⟨d, ds, rfl, hd⟩ := unsigned.head
      obtain ⟨hspace, hscan⟩ := scanOne_digit hd (ds ++ rest)
      exact ⟨d, ds ++ rest, rfl, hspace, hscan.trans (scanUnsigned_complete unsigned (hrest _ rfl))⟩
    | negative unsigned =>
      exact ⟨'-', _, rfl, rfl, scanUnsigned_complete unsigned (hrest _ rfl)⟩
  | @string ps text cs pieces joined =>
    obtain ⟨ds, hds, hscan⟩ := scanString_complete pieces rest
    rw [joinPieces_eq_some_iff.mpr joined] at hscan
    exact ⟨'"', ds, hds, rfl, hscan⟩
  | halfPair pieces half =>
    -- surrogates that are no pairs are no text, but the string is read to its end
    obtain ⟨ds, hds, hscan⟩ := scanString_complete pieces rest
    rw [joinPieces_eq_none_iff.mpr half] at hscan
    exact ⟨'"', ds, hds, rfl, hscan⟩

/-! ### Whole texts -/

theorem scan_cons_space {c : Char} (h : isSpace c = true) (cs : List Char) :
    Token.scan (c :: cs) = Token.scan cs := by
  rw [Token.scan, if_pos h]

theorem scan_cons_token {c : Char} {cs rest : List Char} {t : Token} (h : isSpace c = false)
    (hone : scanOne c cs = some (t, rest)) :
    Token.scan (c :: cs) = (Token.scan rest).map (t :: ·) := by
  rw [Token.scan, if_neg (by rw [h]; exact Bool.false_ne_true)]
  split
  · next hnone => rw [hone] at hnone; cases hnone
  · next heq =>
    rw [hone] at heq
    cases heq
    rfl

theorem scan_blanks {bs : List Char} (h : Token.Blanks bs) (cs : List Char) :
    Token.scan (bs ++ cs) = Token.scan cs := by
  induction bs with
  | nil => rfl
  | cons b bs ih =>
    obtain ⟨hb, hbs⟩ := List.forall_mem_cons.mp h
    rw [List.cons_append, scan_cons_space hb, ih hbs]

theorem scan_sound {cs : List Char} {ts : List Token} (h : Token.scan cs = some ts) :
    (ts = [] ∧ Token.Blanks cs) ∨ Row Token.Padded ts cs := by
  fun_induction Token.scan cs generalizing ts with
  | case1 =>
    cases h
    exact .inl ⟨rfl, fun c hc => nomatch hc⟩
  | case2 c cs hspace ih =>
    rcases ih h with ⟨rfl, hblanks⟩ | hrow
    · exact .inl ⟨rfl, List.forall_mem_cons.mpr ⟨hspace, hblanks⟩⟩
    · -- the blank belongs to the first token
      cases hrow with
      | nil => exact .inl ⟨rfl, List.forall_mem_singleton.mpr hspace⟩
      | cons head tail =>
        obtain ⟨before, lexeme, after, hbefore, hlexeme, hafter, rfl⟩ := head
        refine .inr (.cons ⟨c :: before, lexeme, after, ?_, hlexeme, hafter, rfl⟩ tail)
        exact List.forall_mem_cons.mpr ⟨hspace, hbefore⟩
  | case3 => cases h
  | case4 c cs _ t rest hone _ ih =>
    obtain ⟨us, hscan, rfl⟩ := Option.map_eq_some_iff.mp h
    obtain ⟨lexeme, hcs, hlexeme⟩ := scanOne_sound hone
    rw [hcs]
    have hnone : Token.Blanks [] := fun c hc => nomatch hc
    rcases ih hscan with ⟨rfl, hblanks⟩ | hrow
    · -- the blanks at the end belong to the last token
      exact .inr (row_singleton_iff.mpr ⟨[], lexeme, rest, hnone, hlexeme, hblanks, rfl⟩)
    · refine .inr (.cons ⟨[], lexeme, [], hnone, hlexeme, hnone, ?_⟩ hrow)
      rw [List.nil_append, List.append_nil]

theorem delimited_cons {c : Char}
    (h : isDigit c = false ∧ c ≠ '.' ∧ c ≠ 'e' ∧ c ≠ 'E') (cs : List Char) :
    Delimited (c :: cs) := by
  rintro d hd
  obtain rfl := Option.some.inj hd
  exact h

theorem Token.Blanks.delimited {bs rest : List Char} (h : Token.Blanks bs)
    (hrest : Delimited rest) : Delimited (bs ++ rest) := by
  cases bs with
  | nil => exact hrest
  | cons b bs =>
    have hb : b = ' ' ∨ b = '\t' ∨ b = '\n' ∨ b = '\r' := by
      simpa [isSpace, or_assoc] using h b List.mem_cons_self
    refine delimited_cons ?_ _
    rcases hb with rfl | rfl | rfl | rfl <;> decide

/-- Whether characters in front of others are scanned into a row of tokens. -/
def ScansInto (cs : List Char) (ts : List Token) (rest : List Char) : Prop :=
  Token.scan (cs ++ rest) = (Token.scan rest).map (ts ++ ·)

theorem ScansInto.append {a b rest : List Char} {ts us : List Token}
    (h : ScansInto a ts (b ++ rest)) (h' : ScansInto b us rest) :
    ScansInto (a ++ b) (ts ++ us) rest := by
  unfold ScansInto at h h' ⊢
  rw [List.append_assoc, h, h', Option.map_map]
  refine congrArg (Option.map · _) (funext fun vs => ?_)
  exact (List.append_assoc ts us vs).symm

theorem Token.Padded.scansInto {t : Token} {cs rest : List Char} (h : t.Padded cs)
    (hrest : ∀ n, t = .number n → Delimited rest) : ScansInto cs [t] rest := by
  obtain ⟨before, lexeme, after, hbefore, hlexeme, hafter, rfl⟩ := h
  obtain ⟨c, ds, hcs, hspace, hone⟩ :=
    scanOne_complete hlexeme fun n hn => hafter.delimited (hrest n hn)
  unfold ScansInto
  rw [List.append_assoc, List.append_assoc, scan_blanks hbefore, hcs, scan_cons_token hspace hone,
    scan_blanks hafter]
  rfl

/-- No number goes on with a comma, a colon or a closing bracket. -/
theorem Token.Padded.delimited {t : Token} {cs : List Char} (h : t.Padded cs)
    (ht : t = .comma ∨ t = .colon ∨ t = .closeArray ∨ t = .closeObject) (rest : List Char) :
    Delimited (cs ++ rest) := by
  obtain ⟨before, lexeme, after, hbefore, hlexeme, -, rfl⟩ := h
  rw [List.append_assoc, List.append_assoc]
  refine hbefore.delimited ?_
  rcases ht with rfl | rfl | rfl | rfl <;> cases hlexeme <;>
    exact delimited_cons (by decide) _

/-- **What is a phrase by the grammar is scanned into a row of tokens that is the same phrase.** -/
theorem Derives.scansInto {p : Phrase} {cs : List Char} (h : Derives Token.Padded p cs) :
    ∃ ts, DerivesTokens p ts ∧ ∀ rest, Delimited rest → ScansInto cs ts rest := by
  -- what follows a phrase must not go on with its last number, so every part is scanned in front
  -- of the token behind it
  induction h with
  | null h => exact ⟨_, .null rfl, fun rest hrest => h.scansInto fun n hn => hrest⟩
  | bool h => exact ⟨_, .bool rfl, fun rest hrest => h.scansInto fun n hn => hrest⟩
  | number h => exact ⟨_, .number rfl, fun rest hrest => h.scansInto fun n hn => hrest⟩
  | string h => exact ⟨_, .string rfl, fun rest hrest => h.scansInto fun n hn => hrest⟩
  | emptyArray h₁ h₂ =>
    refine ⟨_, .emptyArray rfl rfl, fun rest hrest => ?_⟩
    exact (h₁.scansInto nofun).append (h₂.scansInto nofun)
  | array h₁ _ h₃ ih =>
    obtain ⟨ts, hts, hscan⟩ := ih
    refine ⟨_, .array rfl hts rfl, fun rest hrest => ?_⟩
    have hb := hscan _ (h₃.delimited (by simp) rest)
    exact ((h₁.scansInto nofun).append hb).append (h₃.scansInto nofun)
  | emptyObject h₁ h₂ =>
    refine ⟨_, .emptyObject rfl rfl, fun rest hrest => ?_⟩
    exact (h₁.scansInto nofun).append (h₂.scansInto nofun)
  | object h₁ _ h₃ ih =>
    obtain ⟨ts, hts, hscan⟩ := ih
    refine ⟨_, .object rfl hts rfl, fun rest hrest => ?_⟩
    have hb := hscan _ (h₃.delimited (by simp) rest)
    exact ((h₁.scansInto nofun).append hb).append (h₃.scansInto nofun)
  | lastItem _ ih =>
    obtain ⟨ts, hts, hscan⟩ := ih
    exact ⟨ts, .lastItem hts, hscan⟩
  | @item v vs a b c _ h₂ _ ih₁ ih₃ =>
    obtain ⟨ts₁, hts₁, hscan₁⟩ := ih₁
    obtain ⟨ts₃, hts₃, hscan₃⟩ := ih₃
    refine ⟨_, .item hts₁ rfl hts₃, fun rest hrest => ?_⟩
    have ha := hscan₁ _ (h₂.delimited (by simp) (c ++ rest))
    exact (ha.append (h₂.scansInto nofun)).append (hscan₃ rest hrest)
  | lastMember h₁ h₂ _ ih =>
    obtain ⟨ts, hts, hscan⟩ := ih
    refine ⟨_, .lastMember rfl rfl hts, fun rest hrest => ?_⟩
    exact ((h₁.scansInto nofun).append (h₂.scansInto nofun)).append (hscan rest hrest)
  | @member k v ms a b c d e h₁ h₂ _ h₄ _ ih₃ ih₅ =>
    obtain ⟨ts₃, hts₃, hscan₃⟩ := ih₃
    obtain ⟨ts₅, hts₅, hscan₅⟩ := ih₅
    refine ⟨_, .member rfl rfl hts₃ rfl hts₅, fun rest hrest => ?_⟩
    have hc := hscan₃ _ (h₄.delimited (by simp) (e ++ rest))
    have habc := ((h₁.scansInto nofun).append (h₂.scansInto nofun)).append hc
    exact (habc.append (h₄.scansInto nofun)).append (hscan₅ rest hrest)

/-- A phrase is scanned into tokens of the same phrase. -/
theorem Derives.exists_scan {p : Phrase} {cs : List Char} (h : Derives Token.Padded p cs) :
    ∃ ts, Token.scan cs = some ts ∧ DerivesTokens p ts := by
  obtain ⟨ts, hts, hscan⟩ := h.scansInto
  have hnil : Token.scan (cs ++ []) = (Token.scan []).map (ts ++ ·) :=
    hscan [] fun c hc => nomatch hc
  rw [List.append_nil, Token.scan, Option.map_some, List.append_nil] at hnil
  exact ⟨ts, hnil, hts⟩

end EditorInsight.Json
