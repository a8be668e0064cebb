import EditorInsight.Config.Settings
import EditorInsight.Json.Record
import EditorInsight.Yaml.Record

/-!
# Settings as documents

The written form of settings, and the reading of it from JSON and from YAML. Every field may be left
out and then has its default; members with other names are ignored.

* `Settings.toJson` and `Settings.ofJson?`.
* `Settings.ofYaml?` reads the same fields from a YAML document.
-/

namespace EditorInsight.Config

open Json

namespace LintSettings

/-- The names of the fields, in their fixed order. -/
def fieldNames : List String := ["enabled", "rcfile", "extraArgs", "quietIntervalMs"]

/-- The written form. A missing file and an empty list of arguments are left out. -/
def toJson (l : LintSettings) : Value :=
  .object <|
    [("enabled", Value.bool l.enabled)] ++
    (l.rcfile.map fun p => ("rcfile", Value.string p.text)).toList ++
    (if l.extraArgs.isEmpty then [] else [("extraArgs", .array (l.extraArgs.map .string))]) ++
    [("quietIntervalMs", .nat l.quietInterval)]

/-- Reads the settings of the linter. -/
def ofJson? (v : Value) : Option LintSettings := do
  let [enabled, rcfile, extraArgs, quietInterval] ← v.fields? fieldNames | none
  let d : LintSettings := {}
  let rcfile ← rcfile.withDefault (d.rcfile.map Path.text) (Value.nullable? Value.text?)
  return {
    enabled := ← enabled.withDefault d.enabled Value.bool?
    rcfile := rcfile.map Path.mk
    extraArgs := ← extraArgs.withDefault d.extraArgs (Value.list? Value.text?)
    quietInterval := ← quietInterval.withDefault d.quietInterval Value.word? }

/-- Reads the settings of the linter from a YAML document. -/
def ofYaml? (doc : Yaml.Document) (n : Yaml.Node) : Option LintSettings := do
  let [enabled, rcfile, extraArgs, quietInterval] ← doc.fields? fieldNames n | none
  let d : LintSettings := {}
  let rcfile ← Yaml.fieldOr (d.rcfile.map Path.text) (doc.optional? doc.text?) rcfile
  return {
    enabled := ← Yaml.fieldOr d.enabled doc.bool? enabled
    rcfile := rcfile.map Path.mk
    extraArgs := ← Yaml.fieldOr d.extraArgs (doc.list? doc.text?) extraArgs
    quietInterval := ← Yaml.fieldOr d.quietInterval doc.word? quietInterval }

end LintSettings

namespace AnalysisSettings

/-- The names of the fields, in their fixed order. -/
def fieldNames : List String := ["cache", "timeoutMs"]

/-- The written form. -/
def toJson (a : AnalysisSettings) : Value :=
  .object [("cache", .bool a.cache), ("timeoutMs", .nat a.timeout)]

/-- Reads the settings of the analysis engine. -/
def ofJson? (v : Value) : Option AnalysisSettings := do
  let [cache, timeout] ← v.fields? fieldNames | none
  let d : AnalysisSettings := {}
  return {
    cache := ← cache.withDefault d.cache Value.bool?
    timeout := ← timeout.withDefault d.timeout Value.word? }

/-- Reads the settings of the analysis engine from a YAML document. -/
def ofYaml? (doc : Yaml.Document) (n : Yaml.Node) : Option AnalysisSettings := do
  let [cache, timeout] ← doc.fields? fieldNames n | none
  let d : AnalysisSettings := {}
  return {
    cache := ← Yaml.fieldOr d.cache doc.bool? cache
    timeout := ← Yaml.fieldOr d.timeout doc.word? timeout }

end AnalysisSettings

namespace Settings

/-- The names of the fields, in their fixed order. -/
def fieldNames : List String := ["interpreter", "lint", "analysis"]

/-- The written form. -/
def toJson (c : Settings) : Value :=
  .object [("interpreter", .string c.interpreter.text), ("lint", c.lint.toJson),
    ("analysis", c.analysis.toJson)]

/-- Reads settings. -/
def ofJson? (v : Value) : Option Settings := do
  let [interpreter, lint, analysis] ← v.fields? fieldNames | none
  let d : Settings := {}
  let interpreter ← interpreter.withDefault d.interpreter.text Value.text?
  return {
    interpreter := ⟨interpreter⟩
    lint := ← lint.withDefault d.lint LintSettings.ofJson?
    analysis := ← analysis.withDefault d.analysis AnalysisSettings.ofJson? }

/-- Reads settings from a YAML document. -/
def ofYaml? (doc : Yaml.Document) (n : Yaml.Node) : Option Settings := do
  let [interpreter, lint, analysis] ← doc.fields? fieldNames n | none
  let d : Settings := {}
  let interpreter ← Yaml.fieldOr d.interpreter.text doc.text? interpreter
  return {
    interpreter := ⟨interpreter⟩
    lint := ← Yaml.fieldOr d.lint (LintSettings.ofYaml? doc) lint
    analysis := ← Yaml.fieldOr d.analysis (AnalysisSettings.ofYaml? doc) analysis }

end Settings

end EditorInsight.Config
