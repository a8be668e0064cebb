/-!
# Characters of YAML text

Which characters a YAML text may hold, which of them are blanks and line breaks, and where a text is
in lines and columns.

* `normalizeBreaks` gives every line break that is read as a newline the form of a newline.
* `isPrintable` holds of the characters that may occur at all.
* `Mark.next` moves over one character.
-/

namespace EditorInsight.Yaml

/-- The characters that a text may hold: tab, line breaks and what is not a control character. -/
def isPrintable (c : Char) : Bool :=
  let code := c.toNat
  code == 0x09 || code == 0x0A || code == 0x0D || (0x20 ≤ code && code ≤ 0x7E) || code == 0x85 ||
    (0xA0 ≤ code && code ≤ 0xD7FF) || (0xE000 ≤ code && code ≤ 0xFFFD) || 0x10000 ≤ code

/-- Writes a carriage return, also one before a newline, and the next-line character as a newline.
The line and paragraph separators stay what they are. -/
def normalizeBreaks : List Char → List Char
  | [] => []
  | '\r' :: '\n' :: cs => '\n' :: normalizeBreaks cs
  | c :: cs => (if c == '\r' || c == '\u0085' then '\n' else c) :: normalizeBreaks cs

/-- A space or a tab. -/
def isBlank (c : Char) : Bool := c == ' ' || c == '\t'

/-- A line break of a text with normalized breaks. -/
def isBreak (c : Char) : Bool := c == '\n' || c == '\u2028' || c == '\u2029'

/-- The characters of names: ASCII letters and digits, the underscore and the hyphen. -/
def isNameChar (c : Char) : Bool := c.isAlphanum || c == '_' || c == '-'

/-- The mark that some texts begin with to tell their encoding. At the front of a line it is skipped
like a blank; elsewhere it is a character of the text. -/
def byteOrderMark : Char := '\ufeff'

/-- Whether a text begins with a blank or a break, or is at its end. -/
def atBlankOrEnd : List Char → Bool
  | [] => true
  | c :: _ => isBlank c || isBreak c

/-- A place in a text: line and column, counted from zero. -/
structure Mark where
  /-- The line. -/
  line : Nat
  /-- The column, in characters. -/
  column : Nat
  /-- The column, in octets of the UTF-8 form. -/
  octets : Nat
deriving DecidableEq, Repr, Inhabited

namespace Mark

/-- The place behind a character. -/
def next (m : Mark) (c : Char) : Mark :=
  if isBreak c then ⟨m.line + 1, 0, 0⟩ else ⟨m.line, m.column + 1, m.octets + c.utf8Size⟩

/-- The place some ASCII characters further on the same line. -/
def forward (m : Mark) (n : Nat) : Mark := ⟨m.line, m.column + n, m.octets + n⟩

end Mark

/-- Whether three equal characters stand at the front of a text, with a blank, a break or the end
behind them. -/
def startsWithTriple (c : Char) : List Char → Bool
  | a :: b :: d :: rest => a == c && b == c && d == c && atBlankOrEnd rest
  | _ => false

/-- Whether the mark of a document's start or end stands at the front of a line. -/
def atDocumentMark (m : Mark) (cs : List Char) : Bool :=
  m.column == 0 && (startsWithTriple '-' cs || startsWithTriple '.' cs)

end EditorInsight.Yaml
