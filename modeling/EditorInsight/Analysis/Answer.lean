import EditorInsight.Analysis.Engine
import EditorInsight.Text.Blank

/-!
# Answers of the analysis

The rules by which the reports of an engine become answers for the editor: places without a file are
dropped, and so is the place that was asked about.

* `ResolvedSymbol` and `ReferenceHit` are places an editor can jump to.
* `definitionOf`, `referencesOf`, `callTipOf` and `hoverOf` are the rules.
* `QueryKind` and `Answer`: five kinds of questions, each with its own form of answer and its own
  empty answer.
* `Engine.answer` asks an engine and applies the rule.
-/

namespace EditorInsight.Analysis

/-- Where a symbol is defined. -/
structure ResolvedSymbol where
  /-- The file. -/
  filePath : Path
  /-- The place in it. -/
  position : Position
deriving DecidableEq, Repr, Inhabited

/-- Where a symbol is used. -/
structure ReferenceHit where
  /-- The file. -/
  filePath : Path
  /-- The place in it. -/
  position : Position
  /-- The text of the line. -/
  sourceLine : String
deriving DecidableEq, Repr, Inhabited

namespace ReferenceHit

/-- The entry of a menu: the name of the file, the line and its text. -/
def menuLabel (h : ReferenceHit) : String :=
  let file := h.filePath.fileName?.getD h.filePath.text
  file ++ s!"    {h.position.line}   " ++ Text.trim h.sourceLine

/-- The place as one to jump to. -/
def toSymbol (h : ReferenceHit) : ResolvedSymbol := ⟨h.filePath, h.position⟩

end ReferenceHit

/-- The place that a report names, if it names a file. An unknown line is line zero. -/
def EngineLocation.toSymbol? (l : EngineLocation) : Option ResolvedSymbol :=
  l.modulePath.map fun p => ⟨p, ⟨l.line.getD 0, l.column⟩⟩

/-- Whether a place is on the line that was asked about. -/
def Query.isSite (q : Query) (s : ResolvedSymbol) : Bool :=
  s.filePath.same q.path && s.position.line == q.position.line

/-- The definition among the reported places: the first one in a file. A definition on the line that
was asked about counts as none, because the caret is already there. -/
def definitionOf (q : Query) (ls : List EngineLocation) : Option ResolvedSymbol :=
  (ls.findSome? EngineLocation.toSymbol?).filter fun s => !q.isSite s

/-- The uses among the reported places: those in files, without the line that was asked about. -/
def referencesOf (q : Query) (ls : List EngineLocation) : List ReferenceHit :=
  let hit? (l : EngineLocation) : Option ReferenceHit :=
    l.toSymbol?.map fun s => ⟨s.filePath, s.position, l.code.getD ""⟩
  (ls.filterMap hit?).filter fun h => !q.isSite h.toSymbol

/-- The call tip of a signature. Without known parameters a blank stands in their place. -/
def callTipOf (s : EngineSignature) : String :=
  match s.params with
  | some params => s.name ++ "(" ++ ", ".intercalate params ++ ")"
  | none => s.name ++ " "

/-- The documentation to be shown. -/
def hoverOf (docs : List String) : Option String := docs.head?

/-- The kinds of questions. -/
inductive QueryKind where
  | definition
  | references
  | callTip
  | hover
  | completions
deriving DecidableEq, Repr, Inhabited

/-- An answer to a question of some kind. -/
inductive Answer where
  | definition (symbol : Option ResolvedSymbol)
  | references (hits : List ReferenceHit)
  | callTip (tips : List String)
  | hover (doc : Option String)
  | completions (items : List CompletionItem)
deriving DecidableEq, Repr, Inhabited

/-- The answer that knows nothing. -/
def QueryKind.emptyAnswer : QueryKind → Answer
  | definition => .definition none
  | references => .references []
  | callTip => .callTip []
  | hover => .hover none
  | completions => .completions []

namespace Answer

/-- The kind of question that an answer is for. -/
def kind : Answer → QueryKind
  | definition _ => .definition
  | references _ => .references
  | callTip _ => .callTip
  | hover _ => .hover
  | completions _ => .completions

/-- The definition that an answer gives. -/
def symbol? : Answer → Option ResolvedSymbol
  | definition symbol => symbol
  | _ => none

/-- The uses that an answer gives. -/
def hits : Answer → List ReferenceHit
  | references hits => hits
  | _ => []

end Answer

/-- Asks an engine and applies the rule for the kind of question. -/
def Engine.answer {m : Type → Type} [Monad m] (e : Engine m) (q : Query) :
    QueryKind → m (Except EngineFailure Answer)
  | .definition => return (← e.goto q).map fun ls => .definition (definitionOf q ls)
  | .references => return (← e.references q).map fun ls => .references (referencesOf q ls)
  | .callTip => return (← e.signatures q).map fun ss => .callTip (ss.map callTipOf)
  | .hover => return (← e.help q).map fun docs => .hover (hoverOf docs)
  | .completions => return (← e.completions q).map .completions

end EditorInsight.Analysis
