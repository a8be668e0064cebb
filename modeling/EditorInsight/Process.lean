import EditorInsight.FileSystem

/-!
# Starting programs

What is asked for when a program is started, what comes back, and which file a program name stands
for. How programs really run is left to the caller: everything that starts one takes a `Launcher`.

* `Invocation`, `Finished` and `ExitStatus`.
* `scriptProgram?` and `checkForm` tell how a file is run: machine code as it is, a script by the
  program that its first line names.
* `resolveProgram` finds the file of a program: a bare name is looked up in a list of directories,
  any other path is taken as it is.
* `millisText` writes a length of time.
-/

namespace EditorInsight

/-- A program to be started. -/
structure Invocation where
  /-- The name or path of the program. -/
  program : Path
  /-- The arguments behind the name. -/
  args : List String
  /-- What is written to its standard input, if anything is. -/
  stdin : Option String := none
deriving DecidableEq, Repr, Inhabited

/-- How a program ended. -/
inductive ExitStatus where
  | exited (code : Nat)
  | signaled (signal : Nat)
deriving DecidableEq, Repr, Inhabited

/-- The names of the signals that end a program. -/
def signalNames : List (Nat × String) :=
  [(1, "SIGHUP"), (2, "SIGINT"), (3, "SIGQUIT"), (4, "SIGILL"), (5, "SIGTRAP"), (6, "SIGABRT"),
    (7, "SIGBUS"), (8, "SIGFPE"), (9, "SIGKILL"), (10, "SIGUSR1"), (11, "SIGSEGV"),
    (12, "SIGUSR2"), (13, "SIGPIPE"), (14, "SIGALRM"), (15, "SIGTERM"), (16, "SIGSTKFLT"),
    (17, "SIGCHLD"), (18, "SIGCONT"), (19, "SIGSTOP"), (20, "SIGTSTP"), (21, "SIGTTIN"),
    (22, "SIGTTOU"), (23, "SIGURG"), (24, "SIGXCPU"), (25, "SIGXFSZ"), (26, "SIGVTALRM"),
    (27, "SIGPROF"), (28, "SIGWINCH"), (29, "SIGIO"), (30, "SIGPWR"), (31, "SIGSYS")]

namespace ExitStatus

/-- The exit code; none if a signal ended the program. -/
def code? : ExitStatus → Option Int
  | exited code => some code
  | signaled _ => none

/-- The wording of an end. -/
def message : ExitStatus → String
  | exited code => s!"exit status: {code}"
  | signaled signal =>
    s!"signal: {signal}" ++ ((signalNames.lookup signal).map fun n => " (" ++ n ++ ")").getD ""

end ExitStatus

/-- What a program left behind. -/
structure Finished where
  /-- What it wrote to standard output. -/
  stdout : List UInt8
  /-- What it wrote to standard error. -/
  stderr : List UInt8
  /-- How it ended. -/
  status : ExitStatus
  /-- How long its output took, in milliseconds. -/
  duration : Nat
deriving DecidableEq, Repr, Inhabited

/-- A way to run programs. -/
abbrev Launcher (m : Type → Type) := Invocation → m (Except OsError Finished)

/-! ### How files are run -/

/-- How much of a file is looked at to find out how it is run, in octets. -/
def headLength : Nat := 256

/-- How many scripts may run one another. -/
def maxScripts : Nat := 5

/-- The longest argument of a program, in bytes. -/
def maxArgument : Nat := 131071

/-- A space or a tab. -/
def isBlankOctet (b : UInt8) : Bool := b == 0x20 || b == 0x09

/-- The program that runs a script. Its path stands on the first line, behind a number sign and an
exclamation mark, and ends at a blank, at a null octet or with the line. A line that is cut off
before the path has ended names no program. -/
def scriptProgram? (bytes : List UInt8) : Option Path :=
  let head := (bytes ++ List.replicate headLength 0).take headLength
  let behind := head.drop 2
  let line := behind.takeWhile (· != 0x0A)
  let text := line.dropWhile isBlankOctet
  let name := text.takeWhile fun b => b != 0 && !isBlankOctet b
  let isCutOff := line.length == behind.length && name.length == text.length
  if head.take 2 != [0x23, 0x21] || text.isEmpty || isCutOff then none
  else some ⟨Text.decodeLossy name⟩

/-- What is in the regular file that a path leads to, and its names from the root, if somebody may
execute it. -/
def executableAt (fs : FileSystem) (p : Path) : Except OsError (List String × Contents) := do
  match ← fs.find p with
  | (location, .file mode contents) =>
    if FileSystem.isExecutableMode mode then return (location, contents)
    else throw .permissionDenied
  | _ => throw .permissionDenied

/-- Makes sure that a file can be run. Machine code can; a script can if the program that runs it
can. `scripts` is the number of scripts that may still run one another. -/
def checkForm (fs : FileSystem) : Nat → Contents → Except OsError Unit
  | _, .program => .ok ()
  | scripts, contents =>
    match scriptProgram? contents.toOctets with
    | none => .error .unknownFormat
    | some p => do
      let (_, contents) ← executableAt fs p
      match scripts with
      | 0 => .error .tooManyLinks
      | scripts + 1 => checkForm fs scripts contents

/-! ### Programs and files -/

/-- The directories of a search path, which are separated by colons. -/
def splitSearchPath (text : String) : List Path := (text.splitOn ":").map Path.mk

/-- The file that a path leads to, by its path without links, if it can be run with the
arguments. -/
def programAt (fs : FileSystem) (args : List String) (p : Path) : Except OsError Path := do
  let (location, contents) ← executableAt fs p
  if args.any fun a => decide (maxArgument < Text.byteLength a) then throw .argumentsTooLong
  checkForm fs maxScripts contents
  return FileSystem.absolute location

/-- The first file of a name in a list of directories that can be run. A file that may not be
executed is passed over, and reported only if there is no other; what is wrong with a file that may
be executed is reported at once. -/
def searchProgram (fs : FileSystem) (args : List String) (name : String) :
    List Path → OsError → Except OsError Path
  | [], e => .error e
  | dir :: dirs, e =>
    match programAt fs args (dir.child name) with
    | .error .permissionDenied => searchProgram fs args name dirs .permissionDenied
    | .error .notFound | .error .notADirectory => searchProgram fs args name dirs e
    | result => result

/-- The file that is executed for an invocation, by its path without links. -/
def resolveProgram (fs : FileSystem) (searchPath : List Path) (i : Invocation) :
    Except OsError Path :=
  let name := i.program.text
  if (name :: i.args).any (·.toList.contains '\x00') then .error .nullInArgument
  else if name.isEmpty then .error .notFound
  else if name.toList.contains '/' then programAt fs i.args i.program
  else searchProgram fs i.args name searchPath .notFound

/-! ### Lengths of time -/

/-- Three decimal digits of a number below a thousand, without the zeros at the end. -/
def thousandths (n : Nat) : String :=
  let ds := [n / 100, n / 10 % 10, n % 10]
  String.ofList ((ds.reverse.dropWhile (· == 0)).reverse.map fun d => Char.ofNat ('0'.toNat + d))

/-- A length of time in milliseconds, written in seconds from one second on, and otherwise in
milliseconds. -/
def millisText (ms : Nat) : String :=
  if ms = 0 then "0ns"
  else if ms < 1000 then s!"{ms}ms"
  else
    let fraction := thousandths (ms % 1000)
    s!"{ms / 1000}" ++ (if fraction.isEmpty then "" else "." ++ fraction) ++ "s"

end EditorInsight
