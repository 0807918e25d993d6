import TwoPhase.Analysis
import TwoPhase.AtomicWrite
import TwoPhase.Budget
import TwoPhase.Charset
import TwoPhase.CompilationUnit.Basic
import TwoPhase.CompilationUnit.Json
import TwoPhase.CompilationUnit.Yaml
import TwoPhase.CompileCommands
import TwoPhase.Decimal.Binary64
import TwoPhase.Dependence
import TwoPhase.Digest
import TwoPhase.DumpStore
import TwoPhase.Exporter
import TwoPhase.FileTree
import TwoPhase.Fixture
import TwoPhase.Flags
import TwoPhase.Glob
import TwoPhase.Json.Layered
import TwoPhase.Json.Reader
import TwoPhase.Json.Value
import TwoPhase.LineCount
import TwoPhase.Lookup
import TwoPhase.Main
import TwoPhase.Numeral
import TwoPhase.Path
import TwoPhase.Phrase
import TwoPhase.Report.Filter
import TwoPhase.Report.JsonForm
import TwoPhase.Report.Listing
import TwoPhase.Report.Result
import TwoPhase.Report.TextForm
import TwoPhase.Report.Wire
import TwoPhase.RuleList
import TwoPhase.RuleOptions
import TwoPhase.RuleRun
import TwoPhase.RuleTag
import TwoPhase.RunOptions
import TwoPhase.Scope.Basic
import TwoPhase.Scope.Build
import TwoPhase.Session
import TwoPhase.Severity
import TwoPhase.ShellWords
import TwoPhase.SourceExcerpt
import TwoPhase.TaskRun
import TwoPhase.Text.Base64
import TwoPhase.Text.Bytes
import TwoPhase.Text.CaseMap
import TwoPhase.Text.CharClass
import TwoPhase.Text.Quoted
import TwoPhase.Text.Split
import TwoPhase.Text.Unfilled
import TwoPhase.Verdict
import TwoPhase.Workspace
import TwoPhase.Yaml.Node
import TwoPhase.Yaml.Record
import TwoPhase.Yaml.Scalar
import TwoPhase.Yaml.Token
import TwoPhase.Yaml.Value
import TwoPhase.Proofs.ScopeTable
import TwoPhase.Proofs.ScopeTree
import TwoPhase.Proofs.BuildRun
import TwoPhase.Proofs.Enclosing
import TwoPhase.Proofs.Tokens
import TwoPhase.Proofs.DependentBase
import TwoPhase.Proofs.BaseSearch
import TwoPhase.Proofs.OrdinaryLookup
import TwoPhase.Proofs.Judgement
import TwoPhase.Proofs.ModelShape
import TwoPhase.Proofs.ResultOrder
import TwoPhase.Proofs.Wording
import TwoPhase.Proofs.ReportContent
import TwoPhase.Proofs.Schedule
import TwoPhase.Proofs.Ledger
import TwoPhase.Proofs.Accounting
import TwoPhase.Proofs.Permissiveness
import TwoPhase.Proofs.Mirror
import TwoPhase.Proofs.MirrorWalk
import TwoPhase.Proofs.CompleteView
import TwoPhase.Proofs.SameFindings
import TwoPhase.Proofs.Locality
import TwoPhase.Proofs.Insertion
import TwoPhase.Proofs.ForwardDeclaration
import TwoPhase.Proofs.Exchange
import TwoPhase.Proofs.Utf8
import TwoPhase.Proofs.DecimalDigits
import TwoPhase.Proofs.ResultFields
import TwoPhase.Proofs.WireFormat
import TwoPhase.Proofs.TextTokens
import TwoPhase.Proofs.TextFormat
import TwoPhase.Proofs.JsonText
import TwoPhase.Proofs.LayeredReading
import TwoPhase.Proofs.DumpText
import TwoPhase.Proofs.TaskCollection
import TwoPhase.Proofs.TaskPool
import TwoPhase.Proofs.BudgetRun
import TwoPhase.Proofs.Rewording
import TwoPhase.Proofs.ResultIdentity
import TwoPhase.Proofs.PathComponents
import TwoPhase.Proofs.FilePlaces
import TwoPhase.Proofs.StaleDumps
import TwoPhase.Proofs.BaseChains
import TwoPhase.Proofs.WalkSteps
import TwoPhase.Proofs.ClassNodes
import TwoPhase.Proofs.ClassHistory
import TwoPhase.Proofs.SetAside
import TwoPhase.Proofs.ReopenedNamespace
import TwoPhase.Proofs.FirstResults
import TwoPhase.Proofs.OutOfLinePlace
import TwoPhase.Proofs.PlainBase
import TwoPhase.Proofs.QualifiedName
import TwoPhase.Proofs.ReportLimit
import TwoPhase.Proofs.TagReading
import TwoPhase.Proofs.ExcerptWindow
import TwoPhase.Proofs.PathContainment
import TwoPhase.Proofs.FreshFile
import TwoPhase.Proofs.AtomicReplacement
import TwoPhase.Proofs.DurationText
