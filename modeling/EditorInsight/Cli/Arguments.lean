import EditorInsight.Analysis.Answer

/-!
# Command lines

The arguments of a command line, read into a command and its options. Options may stand anywhere;
short ones may be written together, and a value may be attached or follow as the next argument. A
double hyphen ends the options. Two options are known to every command and may also stand in front
of it; the one that stands behind it counts.

* `Command` is what can be asked for, `Request` is a command with its common options.
* `parseArguments` reads a command line.
* `Stop` says why there is no command to carry out.
-/

namespace EditorInsight.Cli

open Analysis (QueryKind)

/-- How results are written. -/
inductive Format where
  /-- For people. -/
  | human
  /-- For programs. -/
  | json
deriving DecidableEq, Repr, Inhabited

/-- A place in a file that is asked about. -/
structure Target where
  /-- The file. -/
  file : Path
  /-- The place in it. -/
  position : Position
  /-- How the answer is written. -/
  format : Format
deriving DecidableEq, Repr, Inhabited

/-- What can be asked for. -/
inductive Command where
  /-- Checks files. -/
  | check (paths : List String) (format : Format)
  /-- Asks a question about a place. -/
  | query (kind : QueryKind) (target : Target)
  /-- Runs a file. -/
  | run (file : Path)
  /-- Checks a file whenever it changes. -/
  | watch (file : Path)
  /-- Lists interpreters. -/
  | interpreters
deriving DecidableEq, Repr, Inhabited

/-- A command with the options that every command knows. -/
structure Request where
  /-- The file with the settings, if one is named. -/
  config : Option Path
  /-- Whether more is logged. -/
  verbose : Bool
  /-- The command. -/
  command : Command
deriving DecidableEq, Repr, Inhabited

/-- What is wrong with a command line. -/
inductive UsageError where
  | missingCommand
  | unknownCommand (name : String)
  | unknownOption (text : String)
  /-- A value is attached to an option that takes none. -/
  | unexpectedValue (option : String)
  | missingValue (option : String)
  | repeatedOption (option : String)
  | invalidValue (option value : String)
  | unexpectedArgument (text : String)
  | missingArgument (name : String)
deriving DecidableEq, Repr, Inhabited

/-- The wording of an error. -/
def UsageError.message : UsageError → String
  | missingCommand => "a command is required"
  | unknownCommand name => "unrecognized command: " ++ name
  | unknownOption text => "unexpected option: " ++ text
  | unexpectedValue option => option ++ " takes no value"
  | missingValue option => option ++ " needs a value"
  | repeatedOption option => option ++ " cannot be used more than once"
  | invalidValue option value => "invalid value for " ++ option ++ ": " ++ value
  | unexpectedArgument text => "unexpected argument: " ++ text
  | missingArgument name => "missing argument: " ++ name

/-- Why there is no command to carry out. -/
inductive Stop where
  /-- Help is asked for. -/
  | help
  /-- The version is asked for. -/
  | version
  | usage (e : UsageError)
deriving DecidableEq, Repr, Inhabited

/-! ### Options -/

/-- The options. -/
inductive Flag where
  | config
  | verbose
  | format
  | help
  | version
deriving DecidableEq, Repr, Inhabited

namespace Flag

/-- The letter of an option. -/
def short : Flag → Char
  | config => 'c'
  | verbose => 'v'
  | format => 'f'
  | help => 'h'
  | version => 'V'

/-- The name of an option. -/
def long : Flag → String
  | config => "config"
  | verbose => "verbose"
  | format => "format"
  | help => "help"
  | version => "version"

/-- An option as it is written. -/
def text (o : Flag) : String := "--" ++ o.long

/-- Whether an option takes a value. -/
def takesValue : Flag → Bool
  | config | format => true
  | verbose | help | version => false

/-- The options in front of a command. -/
def common : List Flag := [config, verbose, help, version]

end Flag

/-- What has been said by options. -/
structure Options where
  /-- The file with the settings. -/
  config : Option Path := none
  /-- Whether more is logged. -/
  verbose : Bool := false
  /-- How results are written. -/
  format : Option Format := none
deriving DecidableEq, Repr, Inhabited

/-- A path that is given as an argument: any text but the empty one. -/
def readPath? (text : String) : Option Path := if text.isEmpty then none else some ⟨text⟩

/-- A format by its name. -/
def readFormat? : String → Option Format
  | "human" => some .human
  | "json" => some .json
  | _ => none

/-- A number of 64 bits in decimal digits, perhaps behind a plus sign. -/
def readNumber? (text : String) : Option Nat :=
  let digits := match text.toList with
    | '+' :: rest => rest
    | cs => cs
  if digits.isEmpty || !digits.all Char.isDigit then none
  else
    let n := digits.foldl (fun n c => n * 10 + (c.toNat - '0'.toNat)) 0
    if n < Nat.pow 2 64 then some n else none

namespace Options

/-- Takes an option without a value. -/
def switch (o : Options) : Flag → Except Stop Options
  | .help => .error .help
  | .version => .error .version
  | .verbose =>
    if o.verbose then .error (.usage (.repeatedOption Flag.verbose.text))
    else .ok { o with verbose := true }
  | flag => .error (.usage (.missingValue flag.text))

/-- Takes an option with its value. No option can be given twice. -/
def assign (o : Options) (flag : Flag) (value : String) : Except Stop Options :=
  let invalid : Except Stop Options := .error (.usage (.invalidValue flag.text value))
  match flag with
  | .config =>
    if o.config.isSome then .error (.usage (.repeatedOption flag.text))
    else
      match readPath? value with
      | some path => .ok { o with config := some path }
      | none => invalid
  | .format =>
    if o.format.isSome then .error (.usage (.repeatedOption flag.text))
    else
      match readFormat? value with
      | some format => .ok { o with format := some format }
      | none => invalid
  | _ => .error (.usage (.unexpectedValue flag.text))

end Options

/-- What a part of an argument says. -/
inductive Piece where
  /-- An option without a value. -/
  | switch (flag : Flag)
  /-- An option with its value. -/
  | assign (flag : Flag) (value : String)
  /-- An option whose value is the next argument. -/
  | await (flag : Flag)
  /-- No option at all. -/
  | operand (text : String)
  | endOfOptions
  | wrong (e : UsageError)
deriving DecidableEq, Repr

namespace Piece

/-- The options in a row of letters. What follows the letter of an option that takes a value is the
value, without an equals sign in front of it. -/
def ofLetters (known : List Flag) : List Char → List Piece
  | [] => []
  | c :: rest =>
    match known.find? (·.short == c) with
    | none => [wrong (.unknownOption ("-" ++ String.singleton c))]
    | some flag =>
      if flag.takesValue then
        match rest with
        | [] => [await flag]
        | '=' :: value => [assign flag (String.ofList value)]
        | value => [assign flag (String.ofList value)]
      else switch flag :: ofLetters known rest

/-- The option of a long name, with the value behind an equals sign. -/
def ofLongName (known : List Flag) (cs : List Char) : Piece :=
  let name := String.ofList (cs.takeWhile (· != '='))
  match known.find? (·.long == name), cs.dropWhile (· != '=') with
  | none, _ => wrong (.unknownOption ("--" ++ name))
  | some flag, [] => if flag.takesValue then await flag else switch flag
  | some flag, _ :: value =>
    if flag.takesValue then assign flag (String.ofList value)
    else wrong (.unexpectedValue flag.text)

/-- What an argument says. A lone hyphen is no option. -/
def ofArgument (known : List Flag) (argument : String) : List Piece :=
  match argument.toList with
  | ['-', '-'] => [endOfOptions]
  | '-' :: '-' :: cs => [ofLongName known cs]
  | '-' :: c :: cs => ofLetters known (c :: cs)
  | _ => [operand argument]

end Piece

/-! ### Reading -/

/-- How far a command line has been read. -/
structure Progress where
  /-- The options so far. -/
  options : Options := {}
  /-- The option whose value comes next. -/
  awaited : Option Flag := none
  /-- Whether options have ended. -/
  ended : Bool := false
  /-- The other arguments so far. -/
  operands : List String := []
deriving DecidableEq, Repr, Inhabited

namespace Progress

/-- Takes a part of an argument. -/
def take (p : Progress) (piece : Piece) : Except Stop Progress :=
  match p.awaited, piece with
  | some flag, .operand text => do
    return { p with options := ← p.options.assign flag text, awaited := none }
  | some flag, _ => .error (.usage (.missingValue flag.text))
  | none, .switch flag => do return { p with options := ← p.options.switch flag }
  | none, .assign flag value => do return { p with options := ← p.options.assign flag value }
  | none, .await flag => .ok { p with awaited := some flag }
  | none, .operand text => .ok { p with operands := p.operands ++ [text] }
  | none, .endOfOptions => .ok { p with ended := true }
  | none, .wrong e => .error (.usage e)

/-- Takes an argument. -/
def feed (known : List Flag) (p : Progress) (argument : String) : Except Stop Progress :=
  let pieces := if p.ended then [.operand argument] else Piece.ofArgument known argument
  pieces.foldlM take p

/-- Makes sure that no option still waits for its value. -/
def finish (p : Progress) : Except Stop Progress :=
  match p.awaited with
  | some flag => .error (.usage (.missingValue flag.text))
  | none => .ok p

end Progress

/-- Reads the options in front of a command. The command's name and what follows it are left. -/
def splitCommand : Progress → List String → Except Stop (Options × String × List String)
  | p, [] => do
    let _ ← p.finish
    throw (.usage .missingCommand)
  | p, argument :: rest => do
    let p ← p.feed Flag.common argument
    match p.operands with
    | [] => splitCommand p rest
    | name :: _ =>
      if p.ended then throw (.usage (.unexpectedArgument name))
      return (p.options, name, rest)

/-- A single argument that a command takes. -/
inductive Parameter where
  | file
  | line
  | column
deriving DecidableEq, Repr, Inhabited

namespace Parameter

/-- The name of an argument. -/
def name : Parameter → String
  | file => "file"
  | line => "line"
  | column => "column"

/-- Whether a text can be read as the argument. -/
def accepts : Parameter → String → Bool
  | file, text => (readPath? text).isSome
  | line, text | column, text => (readNumber? text).isSome

end Parameter

/-- A command that is not read to its end. -/
inductive CommandName where
  | check
  | query (kind : QueryKind)
  | run
  | watch
  | interpreters
deriving DecidableEq, Repr, Inhabited

namespace CommandName

/-- The commands by their names. -/
def names : List (String × CommandName) :=
  [("check", check), ("definition", query .definition), ("references", query .references),
    ("hover", query .hover), ("calltip", query .callTip), ("complete", query .completions),
    ("run", run), ("watch", watch), ("interpreters", interpreters)]

/-- The options behind a command. -/
def flags : CommandName → List Flag
  | check | query _ => [.config, .verbose, .format, .help]
  | run | watch | interpreters => [.config, .verbose, .help]

/-- The single arguments that a command takes. More of them can stand only behind `check`. -/
def parameters : CommandName → List Parameter
  | check | interpreters => []
  | query _ => [.file, .line, .column]
  | run | watch => [.file]

/-- Makes sure that a text can be the argument with some others before it. -/
def checkOperand (command : CommandName) (before : Nat) (text : String) : Except Stop Unit :=
  if command = check then .ok ()
  else
    match command.parameters[before]? with
    | none => .error (.usage (.unexpectedArgument text))
    | some p =>
      if p.accepts text then .ok () else .error (.usage (.invalidValue p.name text))

/-- Takes an argument behind the command. What is no option is checked at once, so that a request
for help counts only if nothing is wrong before it. -/
def feed (command : CommandName) (p : Progress) (argument : String) : Except Stop Progress := do
  let q ← p.feed command.flags argument
  match q.operands[p.operands.length]? with
  | some text => command.checkOperand p.operands.length text
  | none => .ok ()
  return q

end CommandName

/-- Reads an argument of a command. -/
def readArgument {α : Type} (read : String → Option α) (name value : String) : Except Stop α :=
  match read value with
  | some a => .ok a
  | none => .error (.usage (.invalidValue name value))

/-- The command of a name with the arguments behind it. -/
def completeCommand (format : Format) : CommandName → List String → Except Stop Command
  | .check, [] => .ok (.check ["."] format)
  | .check, paths => .ok (.check paths format)
  | .query kind, [file, line, column] => do
    let file ← readArgument readPath? "file" file
    let line ← readArgument readNumber? "line" line
    let column ← readArgument readNumber? "column" column
    return .query kind ⟨file, ⟨line, column⟩, format⟩
  | .run, [file] => do return .run (← readArgument readPath? "file" file)
  | .watch, [file] => do return .watch (← readArgument readPath? "file" file)
  | .interpreters, [] => .ok .interpreters
  | name, operands =>
    match name.parameters[operands.length]?, operands[name.parameters.length]? with
    | some missing, _ => .error (.usage (.missingArgument missing.name))
    | none, extra => .error (.usage (.unexpectedArgument (extra.getD "")))

/-- The name of the command that explains the others. -/
def helpName : String := "help"

/-- What a request for help comes to. At most one command can be explained. -/
def explain : List String → Stop
  | [] => .help
  | [name] =>
    if name = helpName ∨ (CommandName.names.lookup name).isSome then .help
    else .usage (.unknownCommand name)
  | _ :: name :: _ => .usage (.unknownCommand name)

/-- Reads a command line. -/
def parseArguments (args : List String) : Except Stop Request := do
  let (common, name, rest) ← splitCommand {} args
  if name = helpName then throw (explain rest)
  match CommandName.names.lookup name with
  | none => throw (.usage (.unknownCommand name))
  | some known =>
    let p ← (← rest.foldlM known.feed {}).finish
    return {
      config := p.options.config.or common.config
      verbose := p.options.verbose || common.verbose
      command := ← completeCommand (p.options.format.getD .human) known p.operands }

end EditorInsight.Cli
