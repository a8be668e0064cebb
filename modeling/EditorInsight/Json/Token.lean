import EditorInsight.Json.Value

/-!
# Tokens of JSON text

A text is cut into tokens after the grammar of RFC 8259: brackets, commas, colons, the three
literal names, numbers and strings, with blanks between them. The scan is strict about the grammar
and lenient about values: half of a surrogate pair gives a string token without a value.

* `Token.scan` cuts a text into tokens.
* `scanString`, `scanNumber` and `scanName` take one token off the front of a text; each leaves a
  rest that is no longer than what it was given, so the scan ends.
-/

namespace EditorInsight.Json

/-- A token of JSON text. -/
inductive Token where
  | openArray
  | closeArray
  | openObject
  | closeObject
  | comma
  | colon
  | null
  | bool (b : Bool)
  | number (n : Number)
  /-- A string; `none` if its escapes name half of a surrogate pair. -/
  | string (s : Option String)
deriving Repr, BEq, DecidableEq, Inhabited

/-- The blanks that may stand between tokens. -/
def isSpace (c : Char) : Bool :=
  c == ' ' || c == '\t' || c == '\n' || c == '\r'

/-! ### Strings -/

/-- A part of a string literal: a character, or a UTF-16 unit given by a `\u` escape. -/
inductive Piece where
  | char (c : Char)
  | unit (code : Nat)
deriving Repr, DecidableEq

/-- The first unit of a surrogate pair. -/
def isHighSurrogate (code : Nat) : Bool := 0xD800 ≤ code && code < 0xDC00

/-- The second unit of a surrogate pair. -/
def isLowSurrogate (code : Nat) : Bool := 0xDC00 ≤ code && code < 0xE000

/-- The code point of a surrogate pair. -/
def pairCode (high low : Nat) : Nat := 0x10000 + (high - 0xD800) * 0x400 + (low - 0xDC00)

/-- The characters that the pieces stand for, unless half of a surrogate pair is left over. -/
def joinPieces : List Piece → Option (List Char)
  | [] => some []
  | .char c :: rest => (joinPieces rest).map (c :: ·)
  | .unit high :: .unit low :: rest =>
    if isHighSurrogate high then
      if isLowSurrogate low then
        (joinPieces rest).map (Char.ofNat (pairCode high low) :: ·)
      else none
    else if isLowSurrogate high then none
    -- the second one is not used up: it may begin a pair
    else (joinPieces (.unit low :: rest)).map (Char.ofNat high :: ·)
  | .unit code :: rest =>
    if isHighSurrogate code || isLowSurrogate code then none
    else (joinPieces rest).map (Char.ofNat code :: ·)

/-- The value of a hexadecimal digit of either case. -/
def hexDigit? (c : Char) : Option Nat :=
  if '0' ≤ c ∧ c ≤ '9' then some (c.toNat - '0'.toNat)
  else if 'a' ≤ c ∧ c ≤ 'f' then some (c.toNat - 'a'.toNat + 10)
  else if 'A' ≤ c ∧ c ≤ 'F' then some (c.toNat - 'A'.toNat + 10)
  else none

/-- The character of a two-character escape, by the character after the backslash. -/
def simpleEscape? : Char → Option Char
  | '"' => some '"'
  | '\\' => some '\\'
  | '/' => some '/'
  | 'b' => some '\x08'
  | 'f' => some '\x0c'
  | 'n' => some '\n'
  | 'r' => some '\r'
  | 't' => some '\t'
  | _ => none

/-- The pieces of a string literal from behind its opening quote, and the text behind its closing
quote. Control characters have to be escaped. -/
def stringPieces : List Char → Option (List Piece × List Char)
  | [] => none
  | '"' :: rest => some ([], rest)
  | '\\' :: 'u' :: a :: b :: c :: d :: rest => do
    let a ← hexDigit? a
    let b ← hexDigit? b
    let c ← hexDigit? c
    let d ← hexDigit? d
    let (pieces, rest) ← stringPieces rest
    return (.unit (((a * 16 + b) * 16 + c) * 16 + d) :: pieces, rest)
  | '\\' :: c :: rest => do
    let c ← simpleEscape? c
    let (pieces, rest) ← stringPieces rest
    return (.char c :: pieces, rest)
  | c :: rest =>
    if c.toNat < 0x20 || c == '\\' then none
    else do
      let (pieces, rest) ← stringPieces rest
      return (.char c :: pieces, rest)

/-- Takes a string off the front of a text from behind its opening quote. -/
def scanString (cs : List Char) : Option (Token × List Char) :=
  (stringPieces cs).map fun (pieces, rest) =>
    (.string ((joinPieces pieces).map String.ofList), rest)

theorem stringPieces_length {cs rest : List Char} {pieces : List Piece}
    (h : stringPieces cs = some (pieces, rest)) : rest.length ≤ cs.length := by
  fun_induction stringPieces cs generalizing pieces rest with
  | case1 => cases h
  | case2 =>
    obtain ⟨-, rfl⟩ := Prod.mk.inj (Option.some.inj h)
    exact Nat.le_succ _
  | case3 a b c d cs ih =>
    -- behind the four digits
    simp only [bind, Option.bind_eq_some_iff] at h
    obtain ⟨_, _, _, _, _, _, _, _, ⟨p, r⟩, hr, h⟩ := h
    obtain ⟨-, rfl⟩ := Prod.mk.inj (Option.some.inj h)
    have hle : r.length ≤ cs.length := ih hr
    simp only [List.length_cons]
    omega
  | case4 c cs _ ih =>
    simp only [bind, Option.bind_eq_some_iff] at h
    obtain ⟨_, _, ⟨p, r⟩, hr, h⟩ := h
    obtain ⟨-, rfl⟩ := Prod.mk.inj (Option.some.inj h)
    have hle : r.length ≤ cs.length := ih hr
    simp only [List.length_cons]
    omega
  | case5 => cases h
  | case6 c cs _ _ _ _ ih =>
    simp only [bind, Option.bind_eq_some_iff] at h
    obtain ⟨⟨p, r⟩, hr, h⟩ := h
    obtain ⟨-, rfl⟩ := Prod.mk.inj (Option.some.inj h)
    exact Nat.le_succ_of_le (ih hr)

theorem scanString_length {cs rest : List Char} {t : Token}
    (h : scanString cs = some (t, rest)) : rest.length ≤ cs.length := by
  obtain ⟨⟨pieces, r⟩, hpieces, heq⟩ := Option.map_eq_some_iff.mp h
  obtain ⟨-, rfl⟩ := Prod.mk.inj heq
  exact stringPieces_length hpieces

/-! ### Numbers -/

/-- A decimal digit. -/
def isDigit (c : Char) : Bool := '0' ≤ c ∧ c ≤ '9'

/-- The value of a decimal digit. -/
def digitValue (c : Char) : Nat := c.toNat - '0'.toNat

/-- The number that a row of decimal digits denotes. -/
def digitsValue (cs : List Char) : Nat :=
  cs.foldl (fun n c => n * 10 + digitValue c) 0

/-- Splits the decimal digits off the front of a text. -/
def spanDigits (cs : List Char) : List Char × List Char :=
  (cs.takeWhile isDigit, cs.dropWhile isDigit)

/-- The whole part of a number: digits that begin with a zero only if it is the only one. -/
def wholePart (cs : List Char) : Option (Nat × List Char) :=
  match spanDigits cs with
  | ([], _) => none
  | (d :: ds, rest) =>
    if d == '0' && !ds.isEmpty then none else some (digitsValue (d :: ds), rest)

/-- The part of a number after a point, if there is a point. -/
def fractionPart : List Char → Option (List Nat × List Char)
  | '.' :: cs =>
    match spanDigits cs with
    | ([], _) => none
    | (ds, rest) => some (ds.map digitValue, rest)
  | cs => some ([], cs)

/-- The sign in front of an exponent, if there is one, and the text behind it. -/
def exponentSign : List Char → Bool × List Char
  | '-' :: cs => (true, cs)
  | '+' :: cs => (false, cs)
  | cs => (false, cs)

/-- The exponent of a number, if there is one. -/
def exponentPart : List Char → Option (Option Int × List Char)
  | [] => some (none, [])
  | c :: cs =>
    if c == 'e' || c == 'E' then
      let (negative, cs) := exponentSign cs
      match spanDigits cs with
      | ([], _) => none
      | (ds, rest) =>
        let e : Int := digitsValue ds
        some (some (if negative then -e else e), rest)
    else some (none, c :: cs)

/-- Takes a number off the front of a text, behind its sign. -/
def scanUnsigned (negative : Bool) (cs : List Char) : Option (Token × List Char) := do
  let (whole, rest) ← wholePart cs
  let (fraction, rest) ← fractionPart rest
  let (exponent, rest) ← exponentPart rest
  return (.number ⟨negative, whole, fraction, exponent⟩, rest)

theorem spanDigits_length (cs : List Char) : (spanDigits cs).2.length ≤ cs.length :=
  (List.dropWhile_sublist isDigit).length_le

theorem wholePart_length_lt {cs rest : List Char} {n : Nat} (h : wholePart cs = some (n, rest)) :
    rest.length < cs.length := by
  have hsum : (spanDigits cs).1.length + (spanDigits cs).2.length = cs.length := by
    rw [← List.length_append]
    exact congrArg List.length List.takeWhile_append_dropWhile
  unfold wholePart at h
  split at h
  · cases h
  · next d ds r heq =>
    rw [heq] at hsum
    split at h
    · cases h
    · obtain ⟨-, rfl⟩ := Prod.mk.inj (Option.some.inj h)
      simp only [List.length_cons] at hsum
      omega

theorem fractionPart_length {cs rest : List Char} {ds : List Nat}
    (h : fractionPart cs = some (ds, rest)) : rest.length ≤ cs.length := by
  unfold fractionPart at h
  split at h
  · next cs =>
    have hl := spanDigits_length cs
    split at h
    · cases h
    · next heq =>
      obtain ⟨-, rfl⟩ := Prod.mk.inj (Option.some.inj h)
      rw [heq] at hl
      exact Nat.le_succ_of_le hl
  · obtain ⟨-, rfl⟩ := Prod.mk.inj (Option.some.inj h)
    exact Nat.le_refl _

theorem exponentSign_length (cs : List Char) : (exponentSign cs).2.length ≤ cs.length := by
  unfold exponentSign
  split
  · exact Nat.le_succ _
  · exact Nat.le_succ _
  · exact Nat.le_refl _

theorem exponentPart_length {cs rest : List Char} {e : Option Int}
    (h : exponentPart cs = some (e, rest)) : rest.length ≤ cs.length := by
  unfold exponentPart at h
  split at h
  · obtain ⟨-, rfl⟩ := Prod.mk.inj (Option.some.inj h)
    exact Nat.le_refl _
  · next c cs =>
    split at h
    · have hsign := exponentSign_length cs
      have hdigits := spanDigits_length (exponentSign cs).2
      dsimp only at h
      split at h
      · cases h
      · next heq =>
        obtain ⟨-, rfl⟩ := Prod.mk.inj (Option.some.inj h)
        rw [heq] at hdigits
        exact Nat.le_succ_of_le (Nat.le_trans hdigits hsign)
    · obtain ⟨-, rfl⟩ := Prod.mk.inj (Option.some.inj h)
      exact Nat.le_refl _

theorem scanUnsigned_length_lt {cs rest : List Char} {negative : Bool} {t : Token}
    (h : scanUnsigned negative cs = some (t, rest)) : rest.length < cs.length := by
  unfold scanUnsigned at h
  simp only [bind, Option.bind_eq_some_iff] at h
  obtain ⟨⟨_, r₁⟩, h₁, ⟨_, r₂⟩, h₂, ⟨_, r₃⟩, h₃, h⟩ := h
  obtain ⟨-, rfl⟩ := Prod.mk.inj (Option.some.inj h)
  calc r₃.length
    _ ≤ r₂.length := exponentPart_length h₃
    _ ≤ r₁.length := fractionPart_length h₂
    _ < cs.length := wholePart_length_lt h₁

/-! ### The scan -/

/-- Takes a literal name off the front of a text. -/
def scanName : List Char → Option (Token × List Char)
  | 'n' :: 'u' :: 'l' :: 'l' :: rest => some (.null, rest)
  | 't' :: 'r' :: 'u' :: 'e' :: rest => some (.bool true, rest)
  | 'f' :: 'a' :: 'l' :: 's' :: 'e' :: rest => some (.bool false, rest)
  | _ => none

/-- The token that a single character makes. -/
def punctuation? : Char → Option Token
  | '[' => some .openArray
  | ']' => some .closeArray
  | '{' => some .openObject
  | '}' => some .closeObject
  | ',' => some .comma
  | ':' => some .colon
  | _ => none

/-- Takes one token off a text that begins with the character `c`. -/
def scanOne (c : Char) (rest : List Char) : Option (Token × List Char) :=
  match punctuation? c with
  | some t => some (t, rest)
  | none =>
    if c == '"' then scanString rest
    else if c == '-' then scanUnsigned true rest
    else if isDigit c then scanUnsigned false (c :: rest)
    else scanName (c :: rest)

theorem scanName_length {cs rest : List Char} {t : Token} (h : scanName cs = some (t, rest)) :
    rest.length < cs.length := by
  unfold scanName at h
  split at h
  · obtain ⟨-, rfl⟩ := Prod.mk.inj (Option.some.inj h)
    exact Nat.lt_add_of_pos_right (by decide : 0 < 4)
  · obtain ⟨-, rfl⟩ := Prod.mk.inj (Option.some.inj h)
    exact Nat.lt_add_of_pos_right (by decide : 0 < 4)
  · obtain ⟨-, rfl⟩ := Prod.mk.inj (Option.some.inj h)
    exact Nat.lt_add_of_pos_right (by decide : 0 < 5)
  · cases h

theorem scanOne_length {c : Char} {cs rest : List Char} {t : Token}
    (h : scanOne c cs = some (t, rest)) : rest.length < (c :: cs).length := by
  unfold scanOne at h
  split at h
  · obtain ⟨-, rfl⟩ := Prod.mk.inj (Option.some.inj h)
    exact Nat.lt_succ_self _
  · split at h
    · exact Nat.lt_succ_of_le (scanString_length h)
    · split at h
      · exact Nat.lt_succ_of_lt (scanUnsigned_length_lt h)
      · split at h
        · exact scanUnsigned_length_lt h
        · exact scanName_length h

/-- The tokens of a text, if all of it follows the grammar of tokens. -/
def Token.scan : List Char → Option (List Token)
  | [] => some []
  | c :: cs =>
    if isSpace c then Token.scan cs
    else
      match h : scanOne c cs with
      | none => none
      | some (t, rest) =>
        have := scanOne_length h
        (Token.scan rest).map (t :: ·)
termination_by cs => cs.length
decreasing_by all_goals (simp only [List.length_cons] at *; omega)

end EditorInsight.Json
