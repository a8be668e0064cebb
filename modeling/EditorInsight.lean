import EditorInsight.Analysis.Answer
import EditorInsight.Analysis.Cache
import EditorInsight.Analysis.Conversion
import EditorInsight.Analysis.Engine
import EditorInsight.Analysis.Helper
import EditorInsight.Annotation
import EditorInsight.Arithmetic
import EditorInsight.Buffer
import EditorInsight.Cli.Arguments
import EditorInsight.Cli.Check
import EditorInsight.Cli.Command
import EditorInsight.Cli.Outcome
import EditorInsight.Cli.Program
import EditorInsight.Cli.Query
import EditorInsight.Cli.Style
import EditorInsight.Cli.Surroundings
import EditorInsight.Cli.Workspace
import EditorInsight.Column
import EditorInsight.Config.Load
import EditorInsight.Config.Settings
import EditorInsight.Debouncer
import EditorInsight.Diagnostic
import EditorInsight.FileSystem
import EditorInsight.Glob.Expand
import EditorInsight.Glob.Pattern
import EditorInsight.Identifier
import EditorInsight.Interpreter
import EditorInsight.Json.Number
import EditorInsight.Json.Parse
import EditorInsight.Json.Print
import EditorInsight.Json.Record
import EditorInsight.Json.Token
import EditorInsight.Json.Value
import EditorInsight.LineIndex
import EditorInsight.Lint.Pylint
import EditorInsight.Lint.Report
import EditorInsight.Lint.Run
import EditorInsight.Lint.Summary
import EditorInsight.Main
import EditorInsight.Navigation
import EditorInsight.Painting
import EditorInsight.Path
import EditorInsight.Position
import EditorInsight.Process
import EditorInsight.Runner
import EditorInsight.Serial.Engine
import EditorInsight.Serial.Finding
import EditorInsight.Serial.Settings
import EditorInsight.Session.Basic
import EditorInsight.Session.Check
import EditorInsight.Sources
import EditorInsight.Text.Alphanumeric
import EditorInsight.Text.Blank
import EditorInsight.Text.Bytes
import EditorInsight.Text.Octets
import EditorInsight.Yaml.Character
import EditorInsight.Yaml.Node
import EditorInsight.Yaml.Record
import EditorInsight.Yaml.Scalar
import EditorInsight.Yaml.Token
import EditorInsight.Proofs.Association
import EditorInsight.Proofs.FileSystem
import EditorInsight.Proofs.LineIndex.Bytes
import EditorInsight.Proofs.Session.Deliveries
import EditorInsight.Proofs.Session.Builds
import EditorInsight.Proofs.Session.Drawing
import EditorInsight.Proofs.Session.Repainting
import EditorInsight.Proofs.Session.DueChecks
import EditorInsight.Proofs.Session.Freshness
import EditorInsight.Proofs.Session.Writes
import EditorInsight.Proofs.Session.Identity
import EditorInsight.Proofs.Session.Workbench
import EditorInsight.Proofs.Session.Painting
import EditorInsight.Proofs.Buffer
import EditorInsight.Proofs.Session.Staleness
import EditorInsight.Proofs.Session.InFlight
import EditorInsight.Proofs.Session.Inline
import EditorInsight.Proofs.Session.Quiet
import EditorInsight.Proofs.Session.Focus
import EditorInsight.Proofs.Session.Attention
import EditorInsight.Proofs.Session.Wakeup
import EditorInsight.Proofs.Analysis.Cache
import EditorInsight.Proofs.LineIndex.Positions
import EditorInsight.Proofs.Session.Settling
import EditorInsight.Proofs.Session.Origin
import EditorInsight.Proofs.Session.Revision
import EditorInsight.Proofs.Buffer.InPlace
import EditorInsight.Proofs.Session.InPlace
import EditorInsight.Proofs.Lint.Report
import EditorInsight.Proofs.Navigation
import EditorInsight.Proofs.Analysis.Columns
import EditorInsight.Proofs.Debouncer
import EditorInsight.Proofs.Session.Hover
import EditorInsight.Proofs.Json.Codec
import EditorInsight.Proofs.Serial.Finding
import EditorInsight.Proofs.Serial.Engine
import EditorInsight.Proofs.Serial.Documents
import EditorInsight.Proofs.Serial.Settings
import EditorInsight.Proofs.Config.Load
import EditorInsight.Proofs.Painting.Builds
import EditorInsight.Proofs.Painting.Points
import EditorInsight.Proofs.Painting.Report
import EditorInsight.Proofs.Analysis.Conversion
import EditorInsight.Proofs.Character.Encoding
import EditorInsight.Proofs.Identifier.Runs
import EditorInsight.Proofs.Buffer.Completion
import EditorInsight.Proofs.Buffer.Splice
import EditorInsight.Proofs.LineIndex.Clamping
import EditorInsight.Proofs.Column.Boundaries
import EditorInsight.Proofs.Config.BaseDirectory
import EditorInsight.Proofs.Config.Empty
import EditorInsight.Proofs.Config.Nearest
import EditorInsight.Proofs.Path.Order
import EditorInsight.Proofs.FileSystem.Canonical
import EditorInsight.Proofs.Interpreter
import EditorInsight.Proofs.Cli.Interpreters
import EditorInsight.Proofs.Sources.Directories
import EditorInsight.Proofs.Cli.Check
import EditorInsight.Proofs.Analysis.Revisions
import EditorInsight.Proofs.LineIndex.Partition
