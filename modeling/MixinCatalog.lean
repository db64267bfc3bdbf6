import MixinCatalog.Catalog.File
import MixinCatalog.Catalog.Project
import MixinCatalog.Catalog.Record
import MixinCatalog.Command.Analyze
import MixinCatalog.Command.Arguments
import MixinCatalog.Command.Help
import MixinCatalog.Command.Init
import MixinCatalog.Command.Run
import MixinCatalog.Config.Basic
import MixinCatalog.Config.Search
import MixinCatalog.Event
import MixinCatalog.FileSystem.Basic
import MixinCatalog.FileSystem.Walk
import MixinCatalog.Glob
import MixinCatalog.Grammar.Builder
import MixinCatalog.Grammar.Classes
import MixinCatalog.Grammar.Cursor
import MixinCatalog.Grammar.Declarations
import MixinCatalog.Grammar.Expressions
import MixinCatalog.Grammar.Functions
import MixinCatalog.Grammar.Literals
import MixinCatalog.Grammar.Markup
import MixinCatalog.Grammar.Program
import MixinCatalog.Grammar.Semicolon
import MixinCatalog.Grammar.Statements
import MixinCatalog.Grammar.Types
import MixinCatalog.Ignore.Pattern
import MixinCatalog.Ignore.Rule
import MixinCatalog.Json.Basic
import MixinCatalog.Json.Reader
import MixinCatalog.Language
import MixinCatalog.Main
import MixinCatalog.Mixin.Classifier
import MixinCatalog.Mixin.ReturnedName
import MixinCatalog.Mixin.Shape
import MixinCatalog.Path
import MixinCatalog.Report.Buffer
import MixinCatalog.Report.Codec
import MixinCatalog.Report.Sink
import MixinCatalog.Report.Style
import MixinCatalog.Report.Writer
import MixinCatalog.Syntax.Kind
import MixinCatalog.Syntax.Node
import MixinCatalog.Syntax.Parts
import MixinCatalog.Text.Blank
import MixinCatalog.Text.Split
import MixinCatalog.Toml.Reader
import MixinCatalog.Toml.Scalar
import MixinCatalog.Toml.Text
import MixinCatalog.Toml.Value
import MixinCatalog.Proofs.Recognition
import MixinCatalog.Proofs.Binding
import MixinCatalog.Proofs.StrictMode
import MixinCatalog.Proofs.PathOrder
import MixinCatalog.Proofs.Walk
import MixinCatalog.Proofs.ProjectCatalog
import MixinCatalog.Proofs.JsonReading
import MixinCatalog.Proofs.ReportRoundTrip
import MixinCatalog.Proofs.ConfigSearch
import MixinCatalog.Proofs.AnalysisOutcome
import MixinCatalog.Proofs.AcceptedConfig
import MixinCatalog.Proofs.SelectedLanguages
import MixinCatalog.Proofs.Heritage
import MixinCatalog.Proofs.MatchedNodes
import MixinCatalog.Proofs.Mirror
import MixinCatalog.Proofs.Wrappers
import MixinCatalog.Proofs.SourceOrder
import MixinCatalog.Proofs.Comments
import MixinCatalog.Proofs.MarkdownTable
import MixinCatalog.Proofs.Parameters
import MixinCatalog.Proofs.Selection
import MixinCatalog.Proofs.RootSpelling
import MixinCatalog.Proofs.Flushing
import MixinCatalog.Proofs.Initialization
import MixinCatalog.Proofs.CommandLine
import MixinCatalog.Proofs.TerminalReport
import MixinCatalog.Proofs.Ancestors
