import EditorInsight.Path
import EditorInsight.Position

/-!
# Analysis engines

What an engine is asked about a buffer and what it reports, before any rule of the editor is
applied. An engine may fail at every question, since the text of a buffer in the middle of an edit
is often no valid source.

* `Query` is a question: text, path and caret.
* `EngineLocation`, `EngineSignature` and `CompletionItem` are what engines report.
* `Engine` is an engine: an answer to each of five questions.
-/

namespace EditorInsight.Analysis

/-- A question about a buffer. -/
structure Query where
  /-- The text of the buffer. -/
  source : String
  /-- The path of the buffer. -/
  path : Path
  /-- The caret. -/
  position : Position
deriving DecidableEq, Repr, Inhabited

/-- A place that an engine reports. -/
structure EngineLocation where
  /-- The file; missing for what is built in. -/
  modulePath : Option Path
  /-- The line, if it is known. -/
  line : Option Nat
  /-- The column. -/
  column : Nat
  /-- The text of the line. -/
  code : Option String
deriving DecidableEq, Repr, Inhabited

/-- What can be called at the caret. -/
structure EngineSignature where
  /-- The name of what is called. -/
  name : String
  /-- The parameters, if they are known. -/
  params : Option (List String)
deriving DecidableEq, Repr, Inhabited

/-- A way to complete the word at the caret. -/
structure CompletionItem where
  /-- The completed word. -/
  label : String
  /-- What kind of thing it names. -/
  kind : Option String := none
  /-- More about it. -/
  detail : Option String := none
deriving DecidableEq, Repr, Inhabited

/-- Why an engine failed, in words. -/
structure EngineFailure where
  /-- The wording. -/
  message : String
deriving DecidableEq, Repr, Inhabited

/-- An analysis engine. -/
structure Engine (m : Type → Type) where
  /-- Where the name at the caret is defined. -/
  goto : Query → m (Except EngineFailure (List EngineLocation))
  /-- Where the name at the caret is used. -/
  references : Query → m (Except EngineFailure (List EngineLocation))
  /-- What is called at the caret. -/
  signatures : Query → m (Except EngineFailure (List EngineSignature))
  /-- Documentation of the names at the caret, the best match first. -/
  help : Query → m (Except EngineFailure (List String))
  /-- How the word at the caret can be completed. -/
  completions : Query → m (Except EngineFailure (List CompletionItem))

end EditorInsight.Analysis
