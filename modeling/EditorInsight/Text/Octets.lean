/-!
# Texts from octets

Reading the UTF-8 form of a text. Octets that are no text are grouped: each longest start of a
character that is not completed makes one ill-formed group, and so does each octet that cannot start
a character.

* `decode` gives, in order, the characters and the ill-formed groups.
* `decode?` accepts only texts; `decodeLossy` puts the replacement character for each group.
-/

namespace EditorInsight.Text

/-- A character that has begun and needs more octets. -/
structure Partial where
  /-- How many octets are still needed. -/
  missing : Nat
  /-- The least value of the next octet. -/
  low : Nat
  /-- The greatest value of the next octet. -/
  high : Nat
  /-- The bits read so far. -/
  bits : Nat
deriving DecidableEq, Repr

/-- What an octet does where a character may start: it is one, it begins one, or it is
ill-formed. The bounds on the second octet exclude overlong forms, surrogates and code points that
do not exist. -/
def startOctet (b : Nat) : Option Char ⊕ Partial :=
  if b < 0x80 then .inl (some (Char.ofNat b))
  else if b < 0xC2 then .inl none
  else if b < 0xE0 then .inr ⟨1, 0x80, 0xBF, b - 0xC0⟩
  else if b < 0xF0 then
    .inr ⟨2, if b = 0xE0 then 0xA0 else 0x80, if b = 0xED then 0x9F else 0xBF, b - 0xE0⟩
  else if b < 0xF5 then
    .inr ⟨3, if b = 0xF0 then 0x90 else 0x80, if b = 0xF4 then 0x8F else 0xBF, b - 0xF0⟩
  else .inl none

/-- The characters of a row of octets, with `none` for each ill-formed group. -/
def decodeFrom : List UInt8 → Option Partial → List (Option Char)
  | [], none => []
  | [], some _ => [none]
  | b :: bs, none =>
    match startOctet b.toNat with
    | .inl c => c :: decodeFrom bs none
    | .inr p => decodeFrom bs (some p)
  | b :: bs, some p =>
    if p.low ≤ b.toNat ∧ b.toNat ≤ p.high then
      let bits := p.bits * 64 + (b.toNat - 0x80)
      if p.missing = 1 then some (Char.ofNat bits) :: decodeFrom bs none
      else decodeFrom bs (some ⟨p.missing - 1, 0x80, 0xBF, bits⟩)
    else
      match startOctet b.toNat with
      | .inl c => none :: c :: decodeFrom bs none
      | .inr q => none :: decodeFrom bs (some q)

/-- The characters of a row of octets, with `none` for each ill-formed group. -/
def decode (octets : List UInt8) : List (Option Char) := decodeFrom octets none

/-- The text that the octets are the UTF-8 form of, if there is one. -/
def decode? (octets : List UInt8) : Option String :=
  ((decode octets).mapM id).map String.ofList

/-- The character that stands for an ill-formed group. -/
def replacement : Char := '\ufffd'

/-- The text of the octets, with a replacement character for each ill-formed group. -/
def decodeLossy (octets : List UInt8) : String :=
  String.ofList ((decode octets).map (·.getD replacement))

/-- The UTF-8 form of a text. -/
def encode (s : String) : List UInt8 := s.toUTF8.toList

end EditorInsight.Text
