import EditorInsight.Column
import EditorInsight.Config.Settings
import EditorInsight.Json.Parse
import EditorInsight.Json.Print
import EditorInsight.LineIndex
import EditorInsight.Process
import EditorInsight.Serial.Engine

/-!
# The analysis helper

An engine that runs as a program of its own. Each question starts the interpreter with the helper's
script, writes one request to it and reads one response. The helper counts columns in characters,
buffers count them in bytes; columns are converted on the way in and on the way out.

* `HelperRequest.of` is the request of a question.
* `toByteColumns` converts the columns of reported places.
* `HelperError` says what can go wrong, from starting the helper to reading its response.
* `Helper.engine` is the engine.
-/

namespace EditorInsight.Analysis

open Json

/-- The questions that the helper knows. -/
inductive HelperOp where
  | goto
  | references
  | signatures
  | help
  | complete
deriving DecidableEq, Repr

/-- The name of a question. -/
def HelperOp.name : HelperOp → String
  | goto => "goto"
  | references => "references"
  | signatures => "signatures"
  | help => "help"
  | complete => "complete"

/-- What is sent to the helper. -/
structure HelperRequest where
  /-- The question. -/
  op : HelperOp
  /-- The text of the buffer. -/
  source : String
  /-- The path of the buffer. -/
  path : Path
  /-- The line of the caret. -/
  line : Nat
  /-- The column of the caret in characters. -/
  column : Nat
deriving DecidableEq, Repr

namespace HelperRequest

/-- The request of a question. On a line that does not exist the column stays as it is. -/
def of (op : HelperOp) (q : Query) : HelperRequest :=
  let line := q.position.line
  let cs := q.source.toList
  let column :=
    match (LineIndex.ofChars cs).lineChars? cs line with
    | some text => charColumn text q.position.column
    | none => q.position.column
  ⟨op, q.source, q.path, line, column⟩

/-- The written form of a request. -/
def toJson (r : HelperRequest) : Value :=
  .object [("op", .string r.op.name), ("source", .string r.source), ("path", .string r.path.text),
    ("line", .nat r.line), ("column", .nat r.column)]

end HelperRequest

/-- The line of text that a reported place is on: the one that was reported with it, or, for a place
in the file that was asked about, the one in the buffer. -/
def lineOf? (q : Query) (l : EngineLocation) : Option (List Char) :=
  match l.code with
  | some code => some (Text.trimEndChars (fun c => c == '\r' || c == '\n') code.toList)
  | none =>
    match l.line, l.modulePath with
    | some line, some path =>
      if path.same q.path then
        let cs := q.source.toList
        (LineIndex.ofChars cs).lineChars? cs line
      else none
    | _, _ => none

/-- The place with its column in bytes, if the text of its line is known. -/
def EngineLocation.toByteColumn (q : Query) (l : EngineLocation) : EngineLocation :=
  match lineOf? q l with
  | some text => { l with column := byteColumn text l.column }
  | none => l

/-- The places with their columns in bytes. -/
def toByteColumns (q : Query) (ls : List EngineLocation) : List EngineLocation :=
  ls.map (·.toByteColumn q)

/-- What the helper sends back. -/
structure HelperResponse (α : Type) where
  /-- Whether the question was answered. -/
  ok : Bool
  /-- The answer. -/
  result : Option α
  /-- Why there is none. -/
  error : Option String

/-- Reads a response whose result is read by `read`. -/
def HelperResponse.ofJson? {α : Type} (read : Value → Option α) (v : Value) :
    Option (HelperResponse α) := do
  let [ok, result, error] ← v.fields? ["ok", "result", "error"] | none
  return {
    ok := ← ok.required Value.bool?
    result := ← result.optional read
    error := ← error.withDefault none (Value.nullable? Value.text?) }

/-- What goes wrong with the helper. -/
inductive HelperError where
  | failedToStart (program : Path)
  /-- No output came in time. -/
  | timedOut (timeout : Nat)
  /-- The output is no text. -/
  | unreadableText
  /-- The output is no response. -/
  | unreadableResponse (status : ExitStatus)
  /-- The response says that it has a result, and has none. -/
  | noResult
  /-- The helper reports an error, with or without words. -/
  | reported (message : Option String)
deriving DecidableEq, Repr

/-- The wording of an error. -/
def HelperError.message : HelperError → String
  | failedToStart program => "failed to start " ++ program.text
  | timedOut timeout => "analysis helper timed out after " ++ millisText timeout
  | unreadableText => "failed to read helper output"
  | unreadableResponse status =>
    "unreadable helper output (exit status " ++ status.message ++ ")"
  | noResult => "helper answered without a result"
  | reported message => message.getD "unknown helper error"

/-- The engine's settings. -/
structure Helper where
  /-- The interpreter that runs the script. -/
  interpreter : Path
  /-- How long one call may take, in milliseconds. -/
  timeout : Nat
  /-- The script. -/
  script : String := ""
deriving DecidableEq, Repr

namespace Helper

/-- The engine that the settings ask for. -/
def ofSettings (c : Config.Settings) : Helper :=
  { interpreter := c.interpreter, timeout := c.analysis.timeout }

/-- The call of the helper for a request. -/
def invocation (h : Helper) (r : HelperRequest) : Invocation where
  program := h.interpreter
  args := ["-c", h.script]
  stdin := some (render r.toJson)

/-- Reads what came of a call. -/
def interpret {α : Type} (h : Helper) (read : Value → Option α) :
    Except OsError Finished → Except HelperError α
  | .error _ => .error (.failedToStart h.interpreter)
  | .ok run =>
    if h.timeout < run.duration then .error (.timedOut h.timeout)
    else
      -- a status that is not zero does not matter if the answer can be read
      match Text.decode? run.stdout with
      | none => .error .unreadableText
      | some output =>
        match (parse? output).bind (HelperResponse.ofJson? read) with
        | none => .error (.unreadableResponse run.status)
        | some response =>
          if response.ok then
            match response.result with
            | some a => .ok a
            | none => .error .noResult
          else .error (.reported response.error)

/-- Asks the helper. -/
def call {m : Type → Type} [Monad m] {α : Type} (h : Helper) (launch : Launcher m)
    (read : Value → Option α) (op : HelperOp) (q : Query) : m (Except EngineFailure α) := do
  let run ← launch (h.invocation (.of op q))
  return (h.interpret read run).mapError fun e => ⟨e.message⟩

/-- Asks the helper for places. -/
def places {m : Type → Type} [Monad m] (h : Helper) (launch : Launcher m) (op : HelperOp)
    (q : Query) : m (Except EngineFailure (List EngineLocation)) := do
  let ls ← h.call launch (Value.list? EngineLocation.ofJson?) op q
  return ls.map (toByteColumns q)

/-- The engine that asks the helper. -/
def engine {m : Type → Type} [Monad m] (h : Helper) (launch : Launcher m) : Engine m where
  goto q := h.places launch .goto q
  references q := h.places launch .references q
  signatures q := h.call launch (Value.list? EngineSignature.ofJson?) .signatures q
  help q := h.call launch (Value.list? Value.text?) .help q
  completions q := h.call launch (Value.list? CompletionItem.ofJson?) .complete q

end Helper

end EditorInsight.Analysis
