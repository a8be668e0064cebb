import EditorInsight.Json.Token
import EditorInsight.Yaml.Character

/-!
# Scalars of YAML text

The four ways to write a piece of text: plain, in single quotes, in double quotes, and as an
indented block whose lines are kept or folded. Inside a scalar, blanks at the ends of lines
disappear and a single line break is folded to a space.

* `Gap` is what stands between two words of a plain or quoted scalar; `Gap.fold` is the text that
  it comes to.
* `scanPlain`, `scanSingleQuoted`, `scanDoubleQuoted` and `scanBlock` take a scalar off the front of
  a text.
-/

namespace EditorInsight.Yaml

/-- How a scalar is written. -/
inductive ScalarStyle where
  | plain
  | singleQuoted
  | doubleQuoted
  | literal
  | folded
deriving DecidableEq, Repr, Inhabited

/-- A scalar taken off a text, and what is left. -/
structure Scanned where
  /-- The characters of the scalar. -/
  text : List Char
  /-- Whether a line break was passed behind the last word. -/
  passedBreak : Bool
  /-- What is left of the text. -/
  rest : List Char
  /-- Where the rest begins. -/
  mark : Mark
deriving Repr

/-- What stands between two words of a scalar. -/
inductive Gap where
  /-- Blanks on one line, in order; possibly none. -/
  | blanks (cs : List Char)
  /-- Line breaks, in order. The first one is missing if it was escaped. -/
  | breaks (first : Option Char) (more : List Char)
deriving Repr

namespace Gap

/-- No gap at all. -/
def none : Gap := blanks []

/-- The gap with one more blank. Next to a line break blanks disappear. -/
def addBlank : Gap → Char → Gap
  | blanks cs, c => blanks (cs ++ [c])
  | g, _ => g

/-- The gap with one more line break. -/
def addBreak : Gap → Char → Gap
  | blanks _, c => breaks (some c) []
  | breaks first more, c => breaks first (more ++ [c])

/-- Whether there is a line break in the gap. -/
def hasBreak : Gap → Bool
  | blanks _ => false
  | breaks _ _ => true

/-- Whether anything stands in the gap. -/
def isNone : Gap → Bool
  | blanks cs => cs.isEmpty
  | breaks _ _ => false

/-- The text that a gap comes to: blanks stay, one newline becomes a space, and of several breaks
the first newline disappears. -/
def fold : Gap → List Char
  | blanks cs => cs
  | breaks (some '\n') [] => [' ']
  | breaks (some '\n') more => more
  | breaks (some c) more => c :: more
  | breaks Option.none more => more

end Gap

/-- The indicators that end a plain scalar inside brackets. -/
def isFlowIndicator (c : Char) : Bool :=
  c == ',' || c == '[' || c == ']' || c == '\x7b' || c == '\x7d'

/-- The characters that may not follow a colon inside brackets. -/
def clashesWithColon : List Char → Bool
  | c :: _ => isFlowIndicator c || c == '?'
  | [] => false

/-- Takes a plain scalar off a text. Inside brackets (`inFlow`) the flow indicators end it; outside,
a line that is indented less than `indent` does. `words` holds the characters read so far, the last
one first, and `gap` what was passed since. -/
def scanPlain (inFlow : Bool) (indent : Int) :
    List Char → Mark → List Char → Gap → Option Scanned
  | [], m, words, gap => some ⟨words.reverse, gap.hasBreak, [], m⟩
  | c :: cs, m, words, gap =>
    if isBlank c then
      -- a tab does not indent
      if gap.hasBreak && m.column < indent && c == '\t' then none
      else scanPlain inFlow indent cs (m.next c) words (gap.addBlank c)
    else if isBreak c then scanPlain inFlow indent cs (m.next c) words (gap.addBreak c)
    else
      let isFirst := words.isEmpty && gap.isNone
      let atWordStart := isFirst || !gap.isNone
      let ended :=
        (!isFirst && !gap.isNone && !inFlow && m.column < indent) ||
        (atWordStart && (atDocumentMark m (c :: cs) || c == '#')) ||
        (c == ':' && atBlankOrEnd cs && !(inFlow && clashesWithColon cs)) ||
        (inFlow && isFlowIndicator c)
      if ended then some ⟨words.reverse, gap.hasBreak, c :: cs, m⟩
      else if inFlow && c == ':' && clashesWithColon cs then none
      else scanPlain inFlow indent cs (m.next c) (c :: (gap.fold.reverse ++ words)) .none

/-- Takes a scalar in single quotes off a text, from behind the opening quote. A quote inside is
written twice. -/
def scanSingleQuoted : List Char → Mark → List Char → Gap → Option Scanned
  | [], _, _, _ => none
  | '\'' :: '\'' :: cs, m, words, gap =>
    scanSingleQuoted cs (m.forward 2) ('\'' :: (gap.fold.reverse ++ words)) .none
  | c :: cs, m, words, gap =>
    if isBlank c then scanSingleQuoted cs (m.next c) words (gap.addBlank c)
    else if isBreak c then scanSingleQuoted cs (m.next c) words (gap.addBreak c)
    else if atDocumentMark m (c :: cs) then none
    else
      let words := gap.fold.reverse ++ words
      if c == '\'' then some ⟨words.reverse, false, cs, m.forward 1⟩
      else scanSingleQuoted cs (m.next c) (c :: words) .none

/-- The character of an escape of one letter in double quotes. -/
def escaped? : Char → Option Char
  | '0' => some '\x00'
  | 'a' => some '\x07'
  | 'b' => some '\x08'
  | 't' | '\t' => some '\t'
  | 'n' => some '\n'
  | 'v' => some '\x0b'
  | 'f' => some '\x0c'
  | 'r' => some '\r'
  | 'e' => some '\x1b'
  | ' ' => some ' '
  | '"' => some '"'
  | '/' => some '/'
  | '\\' => some '\\'
  | 'N' => some '\u0085'
  | '_' => some '\u00a0'
  | 'L' => some '\u2028'
  | 'P' => some '\u2029'
  | _ => none

/-- The character whose code point the hexadecimal digits give. -/
def charOfHex? (digits : List Char) : Option Char := do
  let ds ← digits.mapM Json.hexDigit?
  let code := ds.foldl (fun n d => n * 16 + d) 0
  if (0xD800 ≤ code && code ≤ 0xDFFF) || code > 0x10FFFF then none else some (Char.ofNat code)

/-- Takes a scalar in double quotes off a text, from behind the opening quote. -/
def scanDoubleQuoted : List Char → Mark → List Char → Gap → Option Scanned
  | [], _, _, _ => none
  | '\\' :: 'x' :: a :: b :: cs, m, words, gap => do
    let c ← charOfHex? [a, b]
    scanDoubleQuoted cs (m.forward 4) (c :: (gap.fold.reverse ++ words)) .none
  | '\\' :: 'u' :: a :: b :: c :: d :: cs, m, words, gap => do
    let c ← charOfHex? [a, b, c, d]
    scanDoubleQuoted cs (m.forward 6) (c :: (gap.fold.reverse ++ words)) .none
  | '\\' :: 'U' :: a :: b :: c :: d :: e :: f :: g :: h :: cs, m, words, gap => do
    let c ← charOfHex? [a, b, c, d, e, f, g, h]
    scanDoubleQuoted cs (m.forward 10) (c :: (gap.fold.reverse ++ words)) .none
  | '\\' :: c :: cs, m, words, gap =>
    let words := gap.fold.reverse ++ words
    -- an escaped break joins two lines without a space between them
    if isBreak c then scanDoubleQuoted cs (m.next c) words (.breaks none [])
    else do
      let e ← escaped? c
      scanDoubleQuoted cs (m.forward 2) (e :: words) .none
  | c :: cs, m, words, gap =>
    if isBlank c then scanDoubleQuoted cs (m.next c) words (gap.addBlank c)
    else if isBreak c then scanDoubleQuoted cs (m.next c) words (gap.addBreak c)
    else if c == '\\' || atDocumentMark m (c :: cs) then none
    else
      let words := gap.fold.reverse ++ words
      if c == '"' then some ⟨words.reverse, false, cs, m.forward 1⟩
      else scanDoubleQuoted cs (m.next c) (c :: words) .none

/-! ### Blocks -/

/-- What becomes of the line breaks at the end of a block. -/
inductive Chomping where
  /-- None is kept. -/
  | strip
  /-- The one behind the last line is kept. -/
  | clip
  /-- All are kept. -/
  | keep
deriving DecidableEq, Repr, Inhabited

/-- The header of a block: chomping and indentation, in either order. -/
def blockHeader (cs : List Char) : Option (Chomping × Option Nat × List Char) :=
  let chomping? : Char → Option Chomping
    | '+' => some .keep
    | '-' => some .strip
    | _ => none
  let indent? (c : Char) : Option Nat :=
    if Json.isDigit c then some (Json.digitValue c) else none
  -- an indentation of zero is refused
  let checked (h : Chomping × Option Nat × List Char) :=
    if h.2.1 = some 0 then none else some h
  match cs with
  | [] => some (.clip, none, [])
  | c :: rest =>
    match chomping? c, indent? c with
    | some chomping, _ =>
      match rest with
      | d :: rest' =>
        match indent? d with
        | some n => checked (chomping, some n, rest')
        | none => some (chomping, none, rest)
      | [] => some (chomping, none, [])
    | none, some n =>
      match rest with
      | d :: rest' =>
        match chomping? d with
        | some chomping => checked (chomping, some n, rest')
        | none => checked (.clip, some n, rest)
      | [] => checked (.clip, some n, [])
    | none, none => some (.clip, none, cs)

/-- What is left of a line behind blanks and a comment, if nothing else stands on it; the line break
is taken too. -/
def restOfLine (cs : List Char) (m : Mark) : Option (List Char × Mark) :=
  let blanks := cs.takeWhile isBlank
  let cs := cs.dropWhile isBlank
  let comment := if cs.head? == some '#' then cs.takeWhile (!isBreak ·) else []
  let cs := cs.drop comment.length
  let m := comment.foldl Mark.next (m.forward blanks.length)
  match cs with
  | [] => some ([], m)
  | c :: rest => if isBreak c then some (rest, m.next c) else none

/-- The blank lines in front of a block, and the greatest indentation among them and the first line
that is not blank. A tab may not stand in the indentation. -/
def leadingLines : List Char → Mark → Nat → List Char → Option (Nat × List Char × List Char × Mark)
  | [], m, widest, breaks => some (max widest m.column, breaks.reverse, [], m)
  | c :: cs, m, widest, breaks =>
    if c == ' ' then leadingLines cs (m.next c) widest breaks
    else if c == '\t' then none
    else
      let widest := max widest m.column
      if isBreak c then leadingLines cs (m.next c) widest (c :: breaks)
      else some (widest, breaks.reverse, c :: cs, m)

/-- What has been read of a block. -/
structure Block where
  /-- The characters of the finished lines, the last one first. -/
  text : List Char
  /-- The break behind the last line, if there is one. -/
  lineBreak : List Char
  /-- The breaks of the blank lines since, in order. -/
  blankLines : List Char
  /-- Whether the last line began with a blank. -/
  wasIndented : Bool

namespace Block

/-- Begins a line whose first character is `c`. When lines are folded, the break between two lines
that do not begin with a blank becomes a space, or disappears before blank lines. -/
def startLine (b : Block) (literal : Bool) (c : Char) : Block :=
  let folds := !literal && b.lineBreak == ['\n'] && !b.wasIndented && !isBlank c
  let between := if folds then (if b.blankLines.isEmpty then [' '] else []) else b.lineBreak
  ⟨c :: (b.blankLines.reverse ++ (between.reverse ++ b.text)), [], [], isBlank c⟩

/-- The text of a finished block. -/
def finish (b : Block) (chomping : Chomping) : List Char :=
  b.text.reverse ++ (if chomping = .strip then [] else b.lineBreak) ++
    (if chomping = .keep then b.blankLines else [])

end Block

/-- Reads the lines of a block that are indented by `indent`, until a line that is indented less.
`inLine` says whether a line has begun. -/
def scanLines (literal : Bool) (indent : Nat) :
    List Char → Mark → Bool → Block → Option (Block × List Char × Mark)
  | [], m, _, b => some (b, [], m)
  | c :: cs, m, true, b =>
    if isBreak c then scanLines literal indent cs (m.next c) false { b with lineBreak := [c] }
    else scanLines literal indent cs (m.next c) true { b with text := c :: b.text }
  | c :: cs, m, false, b =>
    if m.column < indent && c == ' ' then scanLines literal indent cs (m.next c) false b
    else if m.column < indent && c == '\t' then none
    else if isBreak c then
      scanLines literal indent cs (m.next c) false { b with blankLines := b.blankLines ++ [c] }
    else if m.column = indent then
      scanLines literal indent cs (m.next c) true (b.startLine literal c)
    else some (b, c :: cs, m)

/-- Takes a block off a text, from behind its indicator. `outer` is the indentation around it. -/
def scanBlock (literal : Bool) (outer : Int) (cs : List Char) (m : Mark) : Option Scanned := do
  let (chomping, given, rest) ← blockHeader cs
  let (rest, m) ← restOfLine rest (m.forward (cs.length - rest.length))
  match given with
  | some n =>
    let indent := if outer ≥ 0 then outer.toNat + n else n
    let (b, rest, m) ← scanLines literal indent rest m false ⟨[], [], [], false⟩
    return ⟨b.finish chomping, false, rest, m⟩
  | none =>
    -- the first line with text gives the indentation, or a blank one before it that is wider
    let (widest, breaks, rest, m) ← leadingLines rest m 0 []
    let indent := max (max widest (outer + 1).toNat) 1
    let (b, rest, m) ← scanLines literal indent rest m false ⟨[], [], breaks, false⟩
    return ⟨b.finish chomping, false, rest, m⟩

end EditorInsight.Yaml
