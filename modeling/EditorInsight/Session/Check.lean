import EditorInsight.Lint.Run
import EditorInsight.Session.Basic

/-!
# The cycle of checks

A buffer whose rest is over is written to its file, and a check of that file is issued. The check
comes back later, from anywhere; it counts only if the buffer is still open, still belongs to the
same file and still has the text that was checked.

* `Session.poll` issues the checks that are due.
* `Session.completeCheckBy` takes the findings of a check, or discards them, by any way to paint;
  `Session.completeCheck?` does so in any build, and `Session.completeCheck` in one that does not stop.
* `Session.runDueChecks?` and `Session.runDueChecks` do both in one go; `WorkerEnd.complete` is what a
  worker sends back.
-/

namespace EditorInsight

/-- A check that the session wants done. -/
structure CheckRequest where
  /-- The buffer. -/
  buffer : BufferId
  /-- The generation of the text that was written to the file. -/
  generation : Nat
  /-- The file. -/
  path : Path
deriving DecidableEq, Repr, Inhabited

/-- A check that is done. -/
structure CheckCompleted where
  /-- What was asked for. -/
  request : CheckRequest
  /-- What was found. -/
  diagnostics : List Diagnostic
deriving DecidableEq, Repr, Inhabited

/-- The completion of a request. -/
def CheckRequest.complete (r : CheckRequest) (ds : List Diagnostic) : CheckCompleted := ⟨r, ds⟩

namespace OpenBuffer

/-- Whether a check of the buffer has to be issued: its rest is over and no check is under way. -/
def wantsCheck (o : OpenBuffer) (now : Nat) : Bool := !o.inFlight && o.debouncer.isDue now

/-- The state after a check was issued. -/
def issued (o : OpenBuffer) : OpenBuffer :=
  { o with debouncer := o.debouncer.cancel, inFlight := true }

/-- The check of the buffer as it is. -/
def request (id : BufferId) (o : OpenBuffer) : CheckRequest :=
  ⟨id, o.buffer.generation, o.buffer.path⟩

/-- Whether a check was done for the file and the text that the buffer has now. -/
def accepts (o : OpenBuffer) (r : CheckRequest) : Bool :=
  o.buffer.path.same r.path && o.buffer.generation == r.generation

/-- Takes the findings of a check for the text that the buffer has now. Only other findings than the
last ones are painted. -/
def takeFindingsBy {m : Type → Type} [Monad m] (paint : Painter m) (o : OpenBuffer)
    (ds : List Diagnostic) (now : Nat) : m (OpenBuffer × Bool) :=
  match o.debouncer.record ds now with
  | (d, .unchanged) => return ({ o with debouncer := d }, false)
  | (d, .changed) => do
    let layers ← o.layers.applyBy paint o.buffer.text ds
    return ({ o with debouncer := d, layers := layers, diagnostics := ds }, true)

end OpenBuffer

namespace Session

/-- Issues the checks that are due among some buffers, in their order, and writes their files. -/
def pollBuffers (now : Nat) : FileSystem → List (BufferId × OpenBuffer) →
    List (BufferId × OpenBuffer) × FileSystem × List CheckRequest
  | fs, [] => ([], fs, [])
  | fs, (id, o) :: rest =>
    if o.wantsCheck now then
      let (rest, fs, requests) := pollBuffers now (o.flush fs) rest
      ((id, o.issued) :: rest, fs, o.request id :: requests)
    else
      let (rest, fs, requests) := pollBuffers now fs rest
      ((id, o) :: rest, fs, requests)

/-- Issues the checks that are due. Where checking is switched off there are none. -/
def poll (s : Session) (fs : FileSystem) (now : Nat) : Session × FileSystem × List CheckRequest :=
  if s.lintEnabled then
    let (buffers, fs, requests) := pollBuffers now fs s.buffers
    ({ s with buffers := buffers }, fs, requests)
  else (s, fs, [])

/-- Takes a check that is done and says whether the findings were painted again. The check is
discarded if its buffer is closed, or has another path or another text by now. -/
def completeCheckBy {m : Type → Type} [Monad m] (paint : Painter m) (s : Session)
    (c : CheckCompleted) (now : Nat) : m (Session × Bool) :=
  match s.get? c.request.buffer with
  | none => return (s, false)
  | some o =>
    let o := { o with inFlight := false }
    if o.accepts c.request then do
      let (o, repainted) ← o.takeFindingsBy paint c.diagnostics now
      return (s.put c.request.buffer o, repainted)
    else return (s.put c.request.buffer o, false)

/-- Takes a check in a build that may stop. -/
def completeCheck? (build : Arithmetic) (s : Session) (c : CheckCompleted) (now : Nat) :
    Option (Session × Bool) :=
  s.completeCheckBy (paintInWords? build) c now

/-- Takes a check in a build that does not stop. -/
def completeCheck (s : Session) (c : CheckCompleted) (now : Nat) : Session × Bool :=
  Id.run (s.completeCheckBy .unchecked c now)

section Linting

variable {m : Type → Type} [Monad m]

/-- Runs checks one after the other and takes their findings at once. -/
def runChecksBy (paint : Painter m) (check : Path → m (List Diagnostic)) (now : Nat) :
    Session → List CheckRequest → m (Session × Nat)
  | s, [] => return (s, 0)
  | s, r :: rest => do
    let ds ← check r.path
    let (s, repainted) ← s.completeCheckBy paint (r.complete ds) now
    let (s, n) ← runChecksBy paint check now s rest
    return (s, if repainted then n + 1 else n)

/-- Runs every check that is due, and counts the buffers that were painted again. The linter sees
the files as they are after all due buffers were written. -/
def runDueChecksBy (paint : Painter m) (check : FileSystem → Path → m (List Diagnostic))
    (s : Session) (fs : FileSystem) (now : Nat) : m (Session × FileSystem × Nat) := do
  let (s, fs, requests) := s.poll fs now
  let (s, n) ← runChecksBy paint (check fs) now s requests
  return (s, fs, n)

/-- Runs every check that is due in a build that may stop. What the linter has done by then stays
done. -/
def runDueChecks? (build : Arithmetic) (check : FileSystem → Path → m (List Diagnostic))
    (s : Session) (fs : FileSystem) (now : Nat) : OptionT m (Session × FileSystem × Nat) :=
  s.runDueChecksBy (.ofBuild build) (fun fs p => OptionT.lift (check fs p)) fs now

/-- Runs checks in a build that does not stop. -/
def runChecks (check : Path → m (List Diagnostic)) (now : Nat) (s : Session)
    (requests : List CheckRequest) : m (Session × Nat) :=
  runChecksBy .unchecked check now s requests

/-- Runs every check that is due in a build that does not stop. -/
def runDueChecks (check : FileSystem → Path → m (List Diagnostic)) (s : Session) (fs : FileSystem)
    (now : Nat) : m (Session × FileSystem × Nat) :=
  s.runDueChecksBy .unchecked check fs now

end Linting

end Session

/-! ### Workers -/

/-- How a linter that runs elsewhere may end. -/
inductive WorkerEnd where
  /-- It came back, with a run or without one. -/
  | returned (outcome : Except Lint.LintFailure Lint.LintRun)
  /-- It broke off. -/
  | broken
deriving Inhabited

/-- What a worker sends back for a request. It always sends something, so that the buffer can be
checked again; a linter that broke off has no findings. -/
def WorkerEnd.complete (r : CheckRequest) : WorkerEnd → CheckCompleted
  | returned outcome => r.complete (Lint.findingsOf outcome)
  | broken => r.complete []

end EditorInsight
