import EditorInsight.Analysis.Helper
import EditorInsight.Cli.Arguments
import EditorInsight.Cli.Outcome
import EditorInsight.Cli.Surroundings
import EditorInsight.Navigation
import EditorInsight.Session.Basic

/-!
# Questions about a place

Answers one question about a place in a file. The definition of a name is asked for as a click in an
editor would, by an editor that only writes where it would go.

* `answerText` writes an answer.
* `define` is the click, `query` is the command.
-/

namespace EditorInsight.Cli

open Analysis Json

/-- A note where there is nothing to show. Programs get none. -/
def note (styled : Bool) (format : Format) (text : String) : String :=
  match format with
  | .human => Style.yellow.apply styled text ++ "\n"
  | .json => ""

/-- Uses as lines. -/
def usesText (format : Format) (hits : List ReferenceHit) : String :=
  match format with
  | .human => unlines (hits.map (·.menuLabel))
  | .json => String.join (hits.map fun h => jsonLine h.toJson)

/-- A completion as a line. -/
def completionLine (styled : Bool) (format : Format) (c : CompletionItem) : String :=
  match format, c.kind with
  | .human, some kind => c.label ++ " " ++ Style.dim.apply styled kind ++ "\n"
  | .human, none => c.label ++ "\n"
  | .json, _ => jsonLine c.toJson

/-- A place that is jumped to, as a line. -/
def placeLine (styled : Bool) (format : Format) (file : Path) (p : Position) : String :=
  match format with
  | .human => Style.bold.apply styled file.text ++ s!":{p.line}:{p.column}\n"
  | .json => jsonLine (.object [("file", .string file.text), ("position", p.toJson)])

/-- An answer as text. -/
def answerText (styled : Bool) (format : Format) : Answer → String
  | .definition symbol =>
    (symbol.map fun s => placeLine styled format s.filePath s.position).getD ""
  | .references hits =>
    (if hits.isEmpty then note styled format "No references found" else "") ++ usesText format hits
  | .hover doc =>
    match format, doc with
    | .human, some doc => doc ++ "\n"
    | .human, none => note styled format "No documentation"
    | .json, doc => jsonLine (.object [("documentation", .option .string doc)])
  | .callTip tips =>
    match format with
    | .human => unlines (tips.map (Style.cyan.apply styled))
    | .json => jsonLine (.array (tips.map .string))
  | .completions items => String.join (items.map (completionLine styled format))

variable {m : Type → Type} [Monad m]

/-- The engine of the settings. -/
def engineOf (s : Surroundings m) (c : Config.Settings) : Engine m :=
  (Helper.ofSettings c).engine s.launch

/-- The cache of the settings, without any answers. -/
def cacheOf (c : Config.Settings) : Option Cache := if c.analysis.cache then some {} else none

/-- An engine whose answers come with a text that is being written. -/
def writing (e : Engine m) : Engine (StateT String m) where
  goto q := StateT.lift (e.goto q)
  references q := StateT.lift (e.references q)
  signatures q := StateT.lift (e.signatures q)
  help q := StateT.lift (e.help q)
  completions q := StateT.lift (e.completions q)

/-- An editor that only writes where it would go. -/
def printingHost (styled : Bool) (target : Target) : Host (StateT String m) Path where
  current := return some target.file
  openAndFocus path := return .ok path
  setCursor path p := modify (· ++ placeLine styled target.format path p)

/-- Shows the definition of the name at a place. Without one its uses are shown. -/
def define (s : Surroundings m) (c : Config.Settings) (target : Target) (source : String) :
    m Outcome := do
  let ((result, _), written) ←
    (click String.hash (writing (engineOf s c)) (printingHost s.styled target) s.files (cacheOf c)
      source target.position).run ""
  match result with
  | .ok (.showReferenceMenu hits) => return { stdout := usesText target.format hits }
  | .ok .nothing => return { stdout := note s.styled target.format "No definition found" }
  | .ok _ => return { stdout := written }
  | .error e =>
    return { stderr := Style.red.apply s.styled "✗" ++ " " ++ e.message ++ "\n", exit := 1 }

/-- Answers a question about a place in a file. -/
def query (s : Surroundings m) (c : Config.Settings) (kind : QueryKind) (target : Target) :
    m (Except Failure Outcome) := do
  match Buffer.load s.files target.file with
  | .error e =>
    return .error ⟨"Failed to open " ++ target.file.text,
      [(SessionError.load target.file e).message, e.message]⟩
  | .ok b =>
    match kind with
    | .definition => return .ok (← define s c target b.text)
    | kind =>
      let (answer, _) ←
        ask String.hash (engineOf s c) (cacheOf c) ⟨b.text, b.path, target.position⟩ kind
      return .ok { stdout := answerText s.styled target.format answer }

end EditorInsight.Cli
