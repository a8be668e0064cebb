import EditorInsight.Analysis.Answer

/-!
# Caching answers

Answers are kept by file, text, kind of question and caret, where the text is represented by a
digest. At most one text of each file is kept: when an answer for another text of the file comes in,
the answers for the old one are dropped.

* `Cache.get?` and `Cache.insert` look up and keep answers.
* `ask` answers a question from the cache, and otherwise from the engine. A failure becomes the
  empty answer and is not kept.
-/

namespace EditorInsight.Analysis

/-- What an answer is kept by. -/
structure CacheKey where
  /-- The components of the path. -/
  path : List Component
  /-- The digest of the text. -/
  digest : UInt64
  /-- The kind of question. -/
  kind : QueryKind
  /-- The caret. -/
  position : Position
deriving DecidableEq, Repr

/-- The key of a question. -/
def Query.key (digest : String → UInt64) (q : Query) (kind : QueryKind) : CacheKey :=
  ⟨q.path.components, digest q.source, kind, q.position⟩

/-- Answers that are kept. -/
structure Cache where
  /-- The answers by their keys. -/
  entries : List (CacheKey × Answer) := []
  /-- The digest of the text that answers are kept for, by file. -/
  revisions : List (List Component × UInt64) := []
deriving Repr, Inhabited

namespace Cache

/-- The number of answers that are kept. -/
def size (c : Cache) : Nat := c.entries.length

/-- A cache that keeps nothing. -/
def clear (_ : Cache) : Cache := {}

/-- The answer that is kept for a key. -/
def get? (c : Cache) (k : CacheKey) : Option Answer := c.entries.lookup k

/-- Whether an answer is for an old text of the file of a key. -/
def isOutdated (k : CacheKey) (old : CacheKey) : Bool :=
  old.path == k.path && old.digest != k.digest

/-- Keeps an answer. If the last answer for the file was for another text, those for old texts are
dropped. -/
def insert (c : Cache) (k : CacheKey) (a : Answer) : Cache :=
  let entries :=
    match c.revisions.lookup k.path with
    | some digest =>
      if digest = k.digest then c.entries else c.entries.filter fun e => !isOutdated k e.1
    | none => c.entries
  { entries := (k, a) :: entries.filter (·.1 != k)
    revisions := (k.path, k.digest) :: c.revisions.filter (·.1 != k.path) }

end Cache

/-- Answers a question from the cache if there is one that knows the answer, and otherwise from the
engine. What is kept counts only if it is an answer to this kind of question. -/
def ask {m : Type → Type} [Monad m] (digest : String → UInt64) (e : Engine m)
    (cache : Option Cache) (q : Query) (kind : QueryKind) : m (Answer × Option Cache) := do
  let key := q.key digest kind
  match (cache.bind (·.get? key)).filter (·.kind == kind) with
  | some a => return (a, cache)
  | none =>
    match ← e.answer q kind with
    | .ok a => return (a, cache.map (·.insert key a))
    | .error _ => return (kind.emptyAnswer, cache)

end EditorInsight.Analysis
