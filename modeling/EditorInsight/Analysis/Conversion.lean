import EditorInsight.Analysis.Helper
import EditorInsight.Painting

/-!
# Columns of the helper with machine words

The conversion of columns as a machine does it, with every sum and every difference computed in
words. A caret is in a buffer, but the helper may report any word as a column, and past the end of a
line the length of the line is added to what is left of it.

* `charColumnInWords?` and `byteColumnInWords?` are the two directions.
* `HelperRequest.ofInWords?` is the request of a question, `toByteColumnsInWords?` converts the
  columns of reported places.
* `Helper.engineInWords` is the engine; it has no answer where the program stops.
-/

namespace EditorInsight

/-- The character column of a byte column. -/
def charColumnInWords? (m : Arithmetic) (line : List Char) (column : Nat) : Option Nat :=
  m.add? (charsBefore line column) (column - Text.width line)

/-- The byte column of a character column. Within the line it is looked up, past the end it is a
sum. -/
def byteColumnInWords? (m : Arithmetic) (line : List Char) (column : Nat) : Option Nat :=
  if column < line.length then some (Text.width (line.take column))
  else m.add? (Text.width line) (column - line.length)

/-- The characters of a line, if there is such a line, without what ends it. -/
def LineIndex.lineCharsInWords? (m : Arithmetic) (ix : LineIndex) (text : List Char) (line : Nat) :
    Option (Option (List Char)) :=
  match ix.lineStart? line with
  | none => some none
  | some start => do
    let stop ← ix.lineEndInWords? m line
    return (Text.slice? text start stop).map fun cs =>
      if cs.getLast? = some '\r' then cs.dropLast else cs

namespace Analysis

open Json

/-- The request of a question. On a line that does not exist the column stays as it is. -/
def HelperRequest.ofInWords? (m : Arithmetic) (op : HelperOp) (q : Query) : Option HelperRequest := do
  let line := q.position.line
  let cs := q.source.toList
  let ix ← LineIndex.ofCharsInWords? m cs
  match ← ix.lineCharsInWords? m cs line with
  | some text => return ⟨op, q.source, q.path, line, ← charColumnInWords? m text q.position.column⟩
  | none => return ⟨op, q.source, q.path, line, q.position.column⟩

/-- The line of text that a reported place is on, if it is known. -/
def lineOfInWords? (m : Arithmetic) (q : Query) (ix : LineIndex) (l : EngineLocation) :
    Option (Option (List Char)) :=
  match l.code with
  | some code => some (some (Text.trimEndChars (fun c => c == '\r' || c == '\n') code.toList))
  | none =>
    match l.line, l.modulePath with
    | some line, some path =>
      if path.same q.path then ix.lineCharsInWords? m q.source.toList line else some none
    | _, _ => some none

/-- The place with its column in bytes, if the text of its line is known. -/
def EngineLocation.toByteColumnInWords? (m : Arithmetic) (q : Query) (ix : LineIndex)
    (l : EngineLocation) : Option EngineLocation := do
  match ← lineOfInWords? m q ix l with
  | some text => return { l with column := ← byteColumnInWords? m text l.column }
  | none => return l

/-- The places with their columns in bytes. -/
def toByteColumnsInWords? (m : Arithmetic) (q : Query) (ls : List EngineLocation) :
    Option (List EngineLocation) := do
  let ix ← LineIndex.ofCharsInWords? m q.source.toList
  ls.mapM (·.toByteColumnInWords? m q ix)

namespace Helper

variable {n : Type → Type} [Monad n]

/-- Asks the helper. -/
def callInWords {α : Type} (h : Helper) (m : Arithmetic) (launch : Launcher n)
    (read : Value → Option α) (op : HelperOp) (q : Query) : OptionT n (Except EngineFailure α) := do
  let request ← OptionT.mk (pure (HelperRequest.ofInWords? m op q))
  let run ← OptionT.lift (launch (h.invocation request))
  return (h.interpret read run).mapError fun e => ⟨e.message⟩

/-- Asks the helper for places. -/
def placesInWords (h : Helper) (m : Arithmetic) (launch : Launcher n) (op : HelperOp) (q : Query) :
    OptionT n (Except EngineFailure (List EngineLocation)) := do
  match ← h.callInWords m launch (Value.list? EngineLocation.ofJson?) op q with
  | .ok ls => return .ok (← OptionT.mk (pure (toByteColumnsInWords? m q ls)))
  | .error e => return .error e

/-- The engine that asks the helper. -/
def engineInWords (h : Helper) (m : Arithmetic) (launch : Launcher n) : Engine (OptionT n) where
  goto q := h.placesInWords m launch .goto q
  references q := h.placesInWords m launch .references q
  signatures q := h.callInWords m launch (Value.list? EngineSignature.ofJson?) .signatures q
  help q := h.callInWords m launch (Value.list? Value.text?) .help q
  completions q := h.callInWords m launch (Value.list? CompletionItem.ofJson?) .complete q

end Helper

end Analysis

end EditorInsight
