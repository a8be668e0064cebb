/-!
# Numbers of JSON text

A number literal is kept as it is written: sign, whole part, digits after the point and exponent.
Whole numbers are read off exactly; every other literal only has to denote a finite double.

* `Number.ofNat` and `Number.toWord?`: writing and reading the whole numbers of a 64-bit word.
* `Number.isFinite`: the literal does not overflow a double.
* `Number.toChars`: the text of a literal.
-/

namespace EditorInsight.Json

/-- The number of values of an unsigned machine word. Whole numbers in documents have to be below
it. -/
def wordSize : Nat := Nat.pow 2 64

/-- A number literal. A literal without a point has no fraction digits. -/
structure Number where
  /-- Whether a minus sign stands in front. -/
  negative : Bool
  /-- The value of the digits before the point. -/
  whole : Nat
  /-- The digits after the point. -/
  fraction : List Nat
  /-- The power of ten after the letter `e`. -/
  exponent : Option Int
deriving DecidableEq, Repr

namespace Number

/-- The literal of a natural number. -/
def ofNat (n : Nat) : Number := ⟨false, n, [], none⟩

/-- The literal of an integer. -/
def ofInt (n : Int) : Number := ⟨n < 0, n.natAbs, [], none⟩

/-- The machine word that a literal denotes: only a literal of digits alone denotes one, so neither
`1.0` nor `1e2` nor `-0` does. -/
def toWord? (n : Number) : Option Nat :=
  if !n.negative && n.fraction.isEmpty && n.exponent.isNone && n.whole < wordSize then
    some n.whole
  else none

/-! ### Finite doubles

A literal is turned into a double by scaling a whole significand that fits a machine word. Digits
that no longer fit are dropped: before the point each dropped digit counts as a factor of ten, after
the point it counts for nothing. -/

/-- A significand together with the power of ten it is scaled by. -/
structure Scaled where
  /-- The digits that fit a machine word. -/
  significand : Nat
  /-- The power of ten. -/
  power : Int
deriving DecidableEq, Repr

/-- Takes the digits before the point while they fit; each digit after that scales by ten. -/
def Scaled.ofWhole : Nat → List Nat → Scaled
  | significand, [] => ⟨significand, 0⟩
  | significand, d :: ds =>
    if significand * 10 + d < wordSize then ofWhole (significand * 10 + d) ds
    else ⟨significand, (d :: ds).length⟩

/-- Takes the digits after the point while they fit and drops the others. -/
def Scaled.addFraction : Scaled → List Nat → Scaled
  | s, [] => s
  | s, d :: ds =>
    if s.significand * 10 + d < wordSize then
      addFraction ⟨s.significand * 10 + d, s.power - 1⟩ ds
    else s

/-- Decimal digits, the most significant first; zero has the one digit `0`. -/
def digits (n : Nat) : List Nat :=
  (Nat.toDigits 10 n).map fun c => c.toNat - '0'.toNat

/-- The scaled significand that stands for a literal. -/
def scaled (n : Number) : Scaled :=
  let s := (Scaled.ofWhole 0 (digits n.whole)).addFraction n.fraction
  ⟨s.significand, s.power + n.exponent.getD 0⟩

/-- A natural number rounded to the 53 significant bits of a double; a tie goes to the even
neighbour. -/
def roundToDouble (n : Nat) : Nat :=
  let bits := n.log2 + 1
  if bits ≤ 53 then n
  else
    let shift := bits - 53
    let kept := n >>> shift
    let rest := n % Nat.pow 2 shift
    let half := Nat.pow 2 (shift - 1)
    if rest > half || (rest == half && kept % 2 == 1) then (kept + 1) <<< shift
    else kept <<< shift

/-- The least magnitude that rounds to infinity rather than to the largest double. -/
def doubleLimit : Nat := Nat.pow 2 1024 - Nat.pow 2 970

/-- The largest power of ten that a double holds. -/
def maxPower : Int := 308

/-- Whether a scaled significand stays below infinity when both factors are rounded to doubles
before they are multiplied. Scaling down never overflows. -/
def Scaled.isFinite (s : Scaled) : Bool :=
  s.significand == 0 || s.power < 0 ||
    (s.power ≤ maxPower &&
      roundToDouble s.significand * roundToDouble (Nat.pow 10 s.power.toNat) < doubleLimit)

/-- Whether a literal denotes a finite double. -/
def isFinite (n : Number) : Bool := n.scaled.isFinite

/-! ### Text -/

/-- The characters of a natural number in decimal. -/
def natChars (n : Nat) : List Char := Nat.toDigits 10 n

/-- The characters of an exponent part. -/
def exponentChars (e : Int) : List Char :=
  'e' :: (if e < 0 then ['-'] else []) ++ natChars e.natAbs

/-- The characters of a literal. -/
def toChars (n : Number) : List Char :=
  (if n.negative then ['-'] else []) ++ natChars n.whole ++
    (if n.fraction.isEmpty then []
     else '.' :: n.fraction.map fun d => Char.ofNat ('0'.toNat + d)) ++
    (match n.exponent with
     | none => []
     | some e => exponentChars e)

end Number

end EditorInsight.Json
