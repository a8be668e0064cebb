import EditorInsight.Yaml.Scalar

/-!
# Tokens of YAML text

A text is cut into tokens with its indentation made explicit: where a line is indented further than
the collection around it, a token opens a new collection, and where it is indented less, tokens end
collections. Whether something is the key of a mapping is known only at the colon behind it, so the
key's token is inserted afterwards, at the place that was kept for it.

* `Scanner` is the state of the scan; `Scanner.fetch` takes the next token.
* `Token.scan` cuts a whole text into tokens.
-/

namespace EditorInsight.Yaml

/-- A token of YAML text. -/
inductive Token where
  | versionDirective (major minor : Nat)
  | tagDirective (handle tag : List Char)
  | documentStart
  | documentEnd
  | blockSequenceStart
  | blockMappingStart
  | blockEnd
  | flowSequenceStart
  | flowSequenceEnd
  | flowMappingStart
  | flowMappingEnd
  | blockEntry
  | flowEntry
  | key
  | value
  | alias (name : List Char)
  | anchor (name : List Char)
  | tag (handle rest : List Char)
  | scalar (style : ScalarStyle) (text : List Char)
  | streamEnd
deriving Repr, DecidableEq, Inhabited

/-- A place where a key may turn out to begin. -/
structure KeyPlace where
  /-- Whether only a key may stand here. -/
  required : Bool
  /-- How many tokens come before the key. -/
  tokenCount : Nat
  /-- Where the key begins. -/
  mark : Mark
deriving Repr

/-- The longest key in octets, from its first character to the colon. -/
def maxKeyLength : Nat := 1024

/-- The state of a scan. -/
structure Scanner where
  /-- What is left of the text. -/
  rest : List Char
  /-- Where the rest begins. -/
  mark : Mark := ⟨0, 0, 0⟩
  /-- The tokens so far. -/
  tokens : List Token := []
  /-- The column of the innermost block collection; below zero outside all of them. -/
  indent : Int := -1
  /-- The columns of the block collections around it. -/
  indents : List Int := []
  /-- The place kept for a key, for the innermost brackets first; the last entry is for the text
  outside all brackets. -/
  keys : List (Option KeyPlace) := [none]
  /-- Whether a key may begin here. -/
  keyAllowed : Bool := true
deriving Repr

namespace Scanner

/-- Whether the scan is inside brackets. -/
def inFlow (s : Scanner) : Bool := s.keys.length > 1

/-- Adds a token at the end. -/
def push (s : Scanner) (t : Token) : Scanner := { s with tokens := s.tokens ++ [t] }

/-- Inserts a token behind the first `n` tokens. -/
def insert (s : Scanner) (n : Nat) (t : Token) : Scanner :=
  { s with tokens := s.tokens.take n ++ t :: s.tokens.drop n }

/-- Moves over some ASCII characters of the line. -/
def skip (s : Scanner) (n : Nat) : Scanner :=
  { s with rest := s.rest.drop n, mark := s.mark.forward n }

/-! ### Indentation -/

/-- Opens a block collection if the column lies further in than the innermost one. Its token is put
behind the first `n` tokens. Inside brackets indentation says nothing. -/
def rollIndent (s : Scanner) (column : Nat) (n : Nat) (t : Token) : Scanner :=
  if s.inFlow then s
  else if s.indent < column then
    { s.insert n t with indents := s.indent :: s.indents, indent := column }
  else s

/-- Ends the block collections that lie further in than the column. -/
def unrollIndent (s : Scanner) (column : Int) : Scanner :=
  if s.inFlow then s
  else
    let ended := (s.indent :: s.indents).takeWhile (· > column)
    let left := (s.indent :: s.indents).dropWhile (· > column)
    { s with
      tokens := s.tokens ++ List.replicate ended.length .blockEnd
      indent := left.headD (-1)
      indents := left.tail }

/-! ### Keys -/

/-- Gives up the place kept for a key, unless a key has to stand there. -/
def removeKey (s : Scanner) : Option Scanner :=
  match s.keys with
  | some place :: keys => if place.required then none else some { s with keys := none :: keys }
  | _ => some s

/-- Keeps the current place for a key, if one may begin here. A key has to stand in the column of
the block collection. -/
def saveKey (s : Scanner) : Option Scanner :=
  if s.keyAllowed then do
    let s ← s.removeKey
    let place : KeyPlace :=
      ⟨!s.inFlow && s.indent == s.mark.column, s.tokens.length, s.mark⟩
    return { s with keys := some place :: s.keys.tail }
  else some s

/-- Whether a key that begins at a place can no longer end at the mark: a key stands on one line and
is not too long. -/
def KeyPlace.isStale (m : Mark) (place : KeyPlace) : Bool :=
  place.mark.line < m.line || place.mark.octets + maxKeyLength < m.octets

/-- Gives up every place whose key can no longer end here. -/
def dropStaleKeys (s : Scanner) : Option Scanner := do
  let keys ← s.keys.mapM fun place =>
    match place with
    | some p =>
      if KeyPlace.isStale s.mark p then (if p.required then none else some none)
      else some (some p)
    | none => some none
  return { s with keys := keys }

/-! ### Between tokens -/

/-- Skips blanks, comments and line breaks up to the next token. Outside brackets a key may begin on
a new line, and a tab may not stand where a key may begin. -/
def skipBetween (inFlow : Bool) : List Char → Mark → Bool → Bool → List Char × Mark × Bool
  | [], m, keyAllowed, _ => ([], m, keyAllowed)
  | c :: cs, m, keyAllowed, inComment =>
    if isBreak c then skipBetween inFlow cs (m.next c) (keyAllowed || !inFlow) false
    else if inComment then skipBetween inFlow cs (m.next c) keyAllowed true
    else if c == byteOrderMark && m.column == 0 then
      skipBetween inFlow cs (m.next c) keyAllowed false
    else if c == ' ' || (c == '\t' && (inFlow || !keyAllowed)) then
      skipBetween inFlow cs (m.next c) keyAllowed false
    else if c == '#' then skipBetween inFlow cs (m.next c) keyAllowed true
    else (c :: cs, m, keyAllowed)

/-! ### Single tokens -/

/-- The end of the text. -/
def fetchEnd (s : Scanner) : Option Scanner := do
  let mark := if s.mark.column = 0 then s.mark else ⟨s.mark.line + 1, 0, 0⟩
  let s ← ({ s with mark := mark }.unrollIndent (-1)).removeKey
  return { s with keyAllowed := false }.push .streamEnd

/-- Three characters that start or end a document. -/
def fetchDocumentMark (s : Scanner) (t : Token) : Option Scanner := do
  let s ← (s.unrollIndent (-1)).removeKey
  return ({ s with keyAllowed := false }.skip 3).push t

/-- An opening bracket. -/
def fetchOpen (s : Scanner) (t : Token) : Option Scanner := do
  let s ← s.saveKey
  return ({ s with keys := none :: s.keys, keyAllowed := true }.skip 1).push t

/-- A closing bracket. -/
def fetchClose (s : Scanner) (t : Token) : Option Scanner := do
  let s ← s.removeKey
  let keys := if s.inFlow then s.keys.tail else s.keys
  return ({ s with keys := keys, keyAllowed := false }.skip 1).push t

/-- A comma inside brackets. -/
def fetchFlowEntry (s : Scanner) : Option Scanner := do
  let s ← s.removeKey
  return ({ s with keyAllowed := true }.skip 1).push .flowEntry

/-- The hyphen before an item of a block sequence. -/
def fetchBlockEntry (s : Scanner) : Option Scanner := do
  if !s.inFlow && !s.keyAllowed then none
  let s := s.rollIndent s.mark.column s.tokens.length .blockSequenceStart
  let s ← s.removeKey
  return ({ s with keyAllowed := true }.skip 1).push .blockEntry

/-- The question mark before a key. -/
def fetchKey (s : Scanner) : Option Scanner := do
  if !s.inFlow && !s.keyAllowed then none
  let s := s.rollIndent s.mark.column s.tokens.length .blockMappingStart
  let s ← s.removeKey
  return ({ s with keyAllowed := !s.inFlow }.skip 1).push .key

/-- The colon before a value. If a place was kept for a key, the key begins there. -/
def fetchValue (s : Scanner) : Option Scanner := do
  match s.keys with
  | some place :: keys =>
    let s := s.insert place.tokenCount .key
    let s := s.rollIndent place.mark.column place.tokenCount .blockMappingStart
    return ({ s with keys := none :: keys, keyAllowed := false }.skip 1).push .value
  | _ =>
    if !s.inFlow && !s.keyAllowed then none
    let s := s.rollIndent s.mark.column s.tokens.length .blockMappingStart
    return ({ s with keyAllowed := !s.inFlow }.skip 1).push .value

/-- The characters that may follow the name of an anchor or alias. -/
def mayFollowName : List Char → Bool
  | [] => true
  | c :: _ =>
    isBlank c || isBreak c || c == '?' || c == ':' || c == ',' || c == ']' || c == '\x7d' ||
      c == '%' || c == '@' || c == '\x60'

/-- An anchor or an alias. -/
def fetchAnchor (s : Scanner) (make : List Char → Token) : Option Scanner := do
  let s ← s.saveKey
  let s := { s with keyAllowed := false }.skip 1
  let name := s.rest.takeWhile isNameChar
  let s := s.skip name.length
  if name.isEmpty || !mayFollowName s.rest then none
  else return s.push (make name)

/-- The scalar that was taken off the text. -/
def putScalar (s : Scanner) (style : ScalarStyle) (r : Scanned) : Scanner :=
  { s with rest := r.rest, mark := r.mark }.push (.scalar style r.text)

/-- A scalar in quotes. -/
def fetchQuoted (s : Scanner) (style : ScalarStyle)
    (scan : List Char → Mark → List Char → Gap → Option Scanned) : Option Scanner := do
  let s ← s.saveKey
  let s := { s with keyAllowed := false }.skip 1
  return s.putScalar style (← scan s.rest s.mark [] .none)

/-- A plain scalar. Behind a line break a key may begin again. -/
def fetchPlain (s : Scanner) : Option Scanner := do
  let s ← s.saveKey
  let r ← scanPlain s.inFlow (s.indent + 1) s.rest s.mark [] .none
  return { s with keyAllowed := r.passedBreak }.putScalar .plain r

/-- A block scalar. -/
def fetchBlock (s : Scanner) (style : ScalarStyle) : Option Scanner := do
  let s ← s.removeKey
  let s := { s with keyAllowed := true }.skip 1
  return s.putScalar style (← scanBlock (style == .literal) s.indent s.rest s.mark)

/-! ### Tags -/

/-- The characters of a tag, apart from escapes; `verbatim` also admits the flow indicators that may
stand in one. -/
def isTagChar (verbatim : Bool) (c : Char) : Bool :=
  isNameChar c || ";/?:@&=+$.!~*'()".toList.contains c || (verbatim && ",[]".toList.contains c)

/-- The octet of two hexadecimal digits. -/
def octet? (a b : Char) : Option Nat := do
  return (← Json.hexDigit? a) * 16 + (← Json.hexDigit? b)

/-- How many octets follow the first one of a character. -/
def octetsAfter? (first : Nat) : Option Nat :=
  if first < 0x80 then some 0
  else if 0xC0 ≤ first && first < 0xE0 then some 1
  else if 0xE0 ≤ first && first < 0xF0 then some 2
  else if 0xF0 ≤ first && first < 0xF8 then some 3
  else none

/-- The text of a tag, with escapes replaced by their octets. `pending` is the number of octets that
still belong to the last character. -/
def tagText (verbatim : Bool) : List Char → Nat → Option (List Char × List Char)
  | '%' :: a :: b :: cs, pending => do
    let o ← octet? a b
    -- the first octet of a character says how many belong to it
    let pending ←
      if pending = 0 then octetsAfter? o
      else if 0x80 ≤ o && o < 0xC0 then some (pending - 1) else none
    let (text, rest) ← tagText verbatim cs pending
    return (Char.ofNat o :: text, rest)
  | c :: cs, pending =>
    if pending ≠ 0 || c == '%' then none
    else if isTagChar verbatim c then do
      let (text, rest) ← tagText verbatim cs 0
      return (c :: text, rest)
    else some ([], c :: cs)
  | [], pending => if pending = 0 then some ([], []) else none

/-- The handle of a tag: an exclamation mark, a name, and a second exclamation mark if there is
one. -/
def tagHandle (cs : List Char) : Option (List Char × List Char) :=
  match cs with
  | '!' :: cs =>
    let name := cs.takeWhile isNameChar
    match cs.drop name.length with
    | '!' :: rest => some ('!' :: name ++ ['!'], rest)
    | rest => some ('!' :: name, rest)
  | _ => none

/-- Whether a handle has a second exclamation mark. -/
def isFullHandle (handle : List Char) : Bool :=
  handle.length > 1 && handle.getLast? == some '!'

/-- What counts of the text of a tag: it ends at an escaped NUL, although what stands behind is read
over. -/
def effectiveText (text : List Char) : List Char := text.takeWhile (· != '\x00')

/-- Takes a tag off a text. A tag without a full handle has the handle `!`; the lone exclamation
mark is a tag of its own. -/
def scanTag (cs : List Char) : Option (Token × List Char) :=
  match cs with
  | '!' :: '<' :: rest => do
    let (text, rest) ← tagText true rest 0
    if text.isEmpty then none
    match rest with
    | '>' :: rest => return (.tag [] (effectiveText text), rest)
    | _ => none
  | _ => do
    let (handle, rest) ← tagHandle cs
    let (text, rest) ← tagText false rest 0
    if isFullHandle handle then
      if text.isEmpty then none
      return (.tag handle (effectiveText text), rest)
    else
      -- what was read as a handle is the beginning of the text
      let text := handle.drop 1 ++ effectiveText text
      if text.isEmpty then return (.tag [] ['!'], rest)
      else return (.tag ['!'] text, rest)

/-- A tag. -/
def fetchTag (s : Scanner) : Option Scanner := do
  let s ← s.saveKey
  let (t, rest) ← scanTag s.rest
  let s := { s with keyAllowed := false }.skip (s.rest.length - rest.length)
  if atBlankOrEnd rest || (s.inFlow && rest.head? == some ',') then return s.push t
  else none

/-! ### Directives -/

/-- The longest number of a version, in digits. -/
def maxVersionDigits : Nat := 9

/-- A number of a version. -/
def versionNumber (cs : List Char) : Option (Nat × List Char) :=
  let ds := cs.takeWhile Json.isDigit
  if ds.isEmpty || ds.length > maxVersionDigits then none
  else some (Json.digitsValue ds, cs.drop ds.length)

/-- The version in a directive. -/
def scanVersion (cs : List Char) : Option (Token × List Char) := do
  let (major, rest) ← versionNumber (cs.dropWhile isBlank)
  match rest with
  | '.' :: rest =>
    let (minor, rest) ← versionNumber rest
    return (.versionDirective major minor, rest)
  | _ => none

/-- The handle and the tag in a directive. -/
def scanTagDirective (cs : List Char) : Option (Token × List Char) := do
  let (handle, rest) ← tagHandle (cs.dropWhile isBlank)
  if !(isFullHandle handle || handle == ['!']) then none
  match rest with
  | c :: _ =>
    if !isBlank c then none
    let (text, rest) ← tagText true (rest.dropWhile isBlank) 0
    if text.isEmpty || !atBlankOrEnd rest then none
    else return (.tagDirective handle (effectiveText text), rest)
  | [] => none

/-- A line that begins with a percent sign. -/
def fetchDirective (s : Scanner) : Option Scanner := do
  let s ← (s.unrollIndent (-1)).removeKey
  let text := s.rest.drop 1
  let name := text.takeWhile isNameChar
  let behind := text.drop name.length
  if name.isEmpty || !atBlankOrEnd behind then none
  let (t, rest) ←
    if name == "YAML".toList then scanVersion behind
    else if name == "TAG".toList then scanTagDirective behind
    else none
  let (rest, mark) ← restOfLine rest (s.mark.forward (s.rest.length - rest.length))
  return { s with keyAllowed := false, rest := rest, mark := mark }.push t

/-! ### The scan -/

/-- The characters with which a plain scalar may not begin. -/
def isIndicator (c : Char) : Bool :=
  "-?:,[]\x7b\x7d#&*!|>'\"%@\x60".toList.contains c

/-- Whether a plain scalar begins here. A hyphen, and outside brackets a question mark or a colon,
may begin one if no blank follows. -/
def startsPlain (inFlow : Bool) (c : Char) (rest : List Char) : Bool :=
  !(isBlank c || isBreak c || isIndicator c) ||
    (c == '-' && !(rest.head?.any isBlank)) ||
    (!inFlow && (c == '?' || c == ':') && !atBlankOrEnd rest)

/-- Takes the token with which the text begins, at a place where blanks have been skipped. -/
def fetchToken (s : Scanner) : Option Scanner :=
  match s.rest with
  | [] => s.fetchEnd
  | c :: rest =>
    -- what stands only at the beginning of a line comes first
    if s.mark.column == 0 && c == '%' then s.fetchDirective
    else if s.mark.column == 0 && startsWithTriple '-' s.rest then
      s.fetchDocumentMark .documentStart
    else if s.mark.column == 0 && startsWithTriple '.' s.rest then s.fetchDocumentMark .documentEnd
    else if c == '[' then s.fetchOpen .flowSequenceStart
    else if c == '\x7b' then s.fetchOpen .flowMappingStart
    else if c == ']' then s.fetchClose .flowSequenceEnd
    else if c == '\x7d' then s.fetchClose .flowMappingEnd
    else if c == ',' then s.fetchFlowEntry
    else if c == '-' && atBlankOrEnd rest then s.fetchBlockEntry
    else if c == '?' && (s.inFlow || atBlankOrEnd rest) then s.fetchKey
    else if c == ':' && (s.inFlow || atBlankOrEnd rest) then s.fetchValue
    else if c == '*' then s.fetchAnchor .alias
    else if c == '&' then s.fetchAnchor .anchor
    else if c == '!' then s.fetchTag
    else if c == '|' && !s.inFlow then s.fetchBlock .literal
    else if c == '>' && !s.inFlow then s.fetchBlock .folded
    else if c == '\'' then s.fetchQuoted .singleQuoted scanSingleQuoted
    else if c == '"' then s.fetchQuoted .doubleQuoted scanDoubleQuoted
    else if startsPlain s.inFlow c rest then s.fetchPlain
    else none

/-- Takes the next token. -/
def fetch (s : Scanner) : Option Scanner := do
  let (rest, mark, keyAllowed) := skipBetween s.inFlow s.rest s.mark s.keyAllowed false
  let s ← { s with rest := rest, mark := mark, keyAllowed := keyAllowed }.dropStaleKeys
  (s.unrollIndent s.mark.column).fetchToken

/-- Takes tokens until the text is at its end. Each step takes at least one character, so the number
of characters bounds the steps. -/
def run : Nat → Scanner → Option (List Token)
  | 0, _ => none
  | fuel + 1, s => do
    let s' ← s.fetch
    if s'.tokens.getLast? == some .streamEnd then return s'.tokens
    else run fuel s'

end Scanner

/-- The tokens of a text. A character that may not occur makes the text unreadable. -/
def Token.scan (text : List Char) : Option (List Token) :=
  if text.all isPrintable then
    let cs := normalizeBreaks text
    Scanner.run (cs.length + 2) { rest := cs }
  else none

end EditorInsight.Yaml
