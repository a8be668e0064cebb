import EditorInsight.FileSystem
import EditorInsight.Json.Parse
import EditorInsight.Serial.Settings
import EditorInsight.Text.Blank
import EditorInsight.Yaml.Record

/-!
# Loading settings

Settings are kept in a file whose name tells its format. The nearest such file counts, in the
directory one starts from or in one above it, and in one directory the first name in a fixed order.
Settings that make no sense are refused, and relative paths are resolved against the directory of
the file.

* `Settings.parse` reads the text of a file.
* `Settings.fault?` names the first rule that settings break.
* `findConfig` looks for the nearest file; `loadConfig` loads one; `loadNearest` does both.
-/

namespace EditorInsight.Config

/-- A rule that settings have to keep. -/
inductive Fault where
  | emptyInterpreter
  | zeroQuietInterval
  | zeroTimeout
  | blankArgument
deriving DecidableEq, Repr

/-- The wording of a fault. -/
def Fault.message : Fault → String
  | emptyInterpreter => "interpreter must not be empty"
  | zeroQuietInterval => "lint.quietIntervalMs must be greater than zero"
  | zeroTimeout => "analysis.timeoutMs must be greater than zero"
  | blankArgument => "lint.extraArgs contains an empty argument"

/-- What makes the text of a file unreadable. -/
inductive Defect where
  | yaml
  | json
  | fault (f : Fault)
deriving DecidableEq, Repr

/-- The wording of a defect. -/
def Defect.message : Defect → String
  | yaml => "YAML parse error"
  | json => "JSON parse error"
  | fault f => f.message

/-- Why settings cannot be loaded. -/
inductive ConfigError where
  /-- The file cannot be read. -/
  | io (e : OsError)
  /-- The file is not there. -/
  | notFound
  /-- The file holds no valid settings. -/
  | invalid (path : Path) (d : Defect)
  /-- The name of the file tells no format. -/
  | unsupportedFormat (path : Path)
deriving DecidableEq, Repr

/-- The wording of an error. -/
def ConfigError.message : ConfigError → String
  | io e => "IO error: " ++ e.message
  | notFound => "Configuration file not found"
  | invalid path d => "Invalid configuration at " ++ path.text ++ ": " ++ d.message
  | unsupportedFormat path => "Unsupported config file format: " ++ path.text

namespace Settings

/-- The first rule that the settings break. -/
def fault? (c : Settings) : Option Fault :=
  if c.interpreter.text.isEmpty then some .emptyInterpreter
  else if c.lint.quietInterval = 0 then some .zeroQuietInterval
  else if c.analysis.timeout = 0 then some .zeroTimeout
  else if c.lint.extraArgs.any Text.isBlankText then some .blankArgument
  else none

/-- Reads settings from a YAML text. A text of nothing but blanks leaves everything at its
default. -/
def parseYaml? (text : String) : Option Settings :=
  if Text.isBlankText text then some {}
  else
    match Yaml.Stream.read? text with
    | none => none
    | some .empty => some {}
    | some (.single doc) => ofYaml? doc doc.root

/-- Reads settings from a JSON text. -/
def parseJson? (text : String) : Option Settings := (Json.parse? text).bind ofJson?

/-- The name of the file that may hold either format. -/
def plainName : String := ".pyeditrc"

/-- Reads settings in the format that the name of the file tells. The file without an extension is
tried as YAML first. -/
def parseAs (path : Path) (text : String) : Except ConfigError Settings :=
  let orElse (d : Defect) : Option Settings → Except ConfigError Settings
    | some c => .ok c
    | none => .error (.invalid path d)
  match path.extension?.getD "" with
  | "yml" | "yaml" => orElse .yaml (parseYaml? text)
  | "json" => orElse .json (parseJson? text)
  | "" =>
    if path.fileName? = some plainName then
      orElse .json ((parseYaml? text).or (parseJson? text))
    else .error (.unsupportedFormat path)
  | _ => .error (.unsupportedFormat path)

/-- Reads the text of a file and refuses settings that break a rule. -/
def parse (path : Path) (text : String) : Except ConfigError Settings := do
  let c ← parseAs path text
  match c.fault? with
  | none => return c
  | some f => throw (.invalid path (.fault f))

end Settings

/-- The names of files that hold settings, the preferred one first. -/
def configNames : List String :=
  [".pyeditrc.yml", ".pyeditrc.yaml", ".pyeditrc.json", ".pyeditrc",
    "pyedit.config.yml", "pyedit.config.yaml", "pyedit.config.json"]

/-- The preferred file with settings in a directory. -/
def configIn? (fs : FileSystem) (dir : Path) : Option Path :=
  (configNames.map dir.child).find? fs.isFile

/-- A directory and those above it by the spelling of its path, nearest first. The path gets shorter
with each step, so its length bounds their number. -/
def ancestors : Nat → Path → List Path
  | 0, dir => [dir]
  | fuel + 1, dir =>
    match dir.parent? with
    | none => [dir]
    | some up => dir :: ancestors fuel up

/-- A directory and those above it, nearest first. -/
def chain (dir : Path) : List Path := ancestors dir.text.length dir

/-- The nearest file with settings, from a directory upwards. -/
def findConfig (fs : FileSystem) (dir : Path) : Option Path :=
  (chain dir).findSome? (configIn? fs)

/-- Loads a file and resolves its relative paths against its directory. -/
def loadConfig (fs : FileSystem) (path : Path) : Except ConfigError Settings := do
  if !fs.exists? path then throw .notFound
  let text ← (fs.readText path).mapError .io
  let c ← Settings.parse path text
  return match path.parent? with
    | some base => c.withBaseDir base
    | none => c

/-- Loads the nearest file, from a directory upwards; without one everything is at its default. -/
def loadNearest (fs : FileSystem) (dir : Path) : Except ConfigError Settings :=
  match findConfig fs dir with
  | some path => loadConfig fs path
  | none => .ok {}

end EditorInsight.Config
