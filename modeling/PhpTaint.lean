import PhpTaint.Annotation.Stack
import PhpTaint.Annotation.Visit
import PhpTaint.Cli.Console
import PhpTaint.Cli.Options
import PhpTaint.Cli.Run
import PhpTaint.Fault
import PhpTaint.Files.Collect
import PhpTaint.Files.Disk
import PhpTaint.Files.Path
import PhpTaint.Files.Pattern
import PhpTaint.Files.Reader
import PhpTaint.Findings.Basic
import PhpTaint.Findings.Search
import PhpTaint.Findings.Sources
import PhpTaint.Findings.Tally
import PhpTaint.Flow.Basic
import PhpTaint.Flow.Call
import PhpTaint.Flow.Expression
import PhpTaint.Flow.Variable
import PhpTaint.Journal
import PhpTaint.Json.Access
import PhpTaint.Json.Document
import PhpTaint.Json.Number
import PhpTaint.Json.Reader
import PhpTaint.Json.Value
import PhpTaint.Json.Writer
import PhpTaint.Main
import PhpTaint.NameSet
import PhpTaint.Proofs.Annotation.Callees
import PhpTaint.Proofs.Annotation.Comments
import PhpTaint.Proofs.Annotation.Coverage
import PhpTaint.Proofs.Annotation.Dictionary
import PhpTaint.Proofs.Annotation.Discipline
import PhpTaint.Proofs.Annotation.InStep
import PhpTaint.Proofs.Annotation.Inert
import PhpTaint.Proofs.Annotation.Lexical
import PhpTaint.Proofs.Annotation.Mirror
import PhpTaint.Proofs.Annotation.Orderly
import PhpTaint.Proofs.Annotation.Paths
import PhpTaint.Proofs.Annotation.Placement
import PhpTaint.Proofs.Annotation.Placing
import PhpTaint.Proofs.Annotation.Recursion
import PhpTaint.Proofs.Annotation.Refinement
import PhpTaint.Proofs.Annotation.StackSafety
import PhpTaint.Proofs.Annotation.Walk
import PhpTaint.Proofs.Findings.Comments
import PhpTaint.Proofs.Findings.Counting
import PhpTaint.Proofs.Findings.Positions
import PhpTaint.Proofs.Findings.Slots
import PhpTaint.Proofs.Findings.Suppression
import PhpTaint.Proofs.Findings.Wrappers
import PhpTaint.Proofs.Flow.Access
import PhpTaint.Proofs.Flow.Afresh
import PhpTaint.Proofs.Flow.Attribution
import PhpTaint.Proofs.Flow.Backward
import PhpTaint.Proofs.Flow.Beside
import PhpTaint.Proofs.Flow.Binding
import PhpTaint.Proofs.Flow.Comments
import PhpTaint.Proofs.Flow.Conclusion
import PhpTaint.Proofs.Flow.Deepening
import PhpTaint.Proofs.Flow.Depth
import PhpTaint.Proofs.Flow.Elementary
import PhpTaint.Proofs.Flow.Exploration
import PhpTaint.Proofs.Flow.Finiteness
import PhpTaint.Proofs.Flow.Following
import PhpTaint.Proofs.Flow.Forward
import PhpTaint.Proofs.Flow.Graph
import PhpTaint.Proofs.Flow.Growth
import PhpTaint.Proofs.Flow.History
import PhpTaint.Proofs.Flow.Hygiene
import PhpTaint.Proofs.Flow.Inlining
import PhpTaint.Proofs.Flow.Notes
import PhpTaint.Proofs.Flow.Obedience
import PhpTaint.Proofs.Flow.Occurrences
import PhpTaint.Proofs.Flow.Parts
import PhpTaint.Proofs.Flow.Preservation
import PhpTaint.Proofs.Flow.Provenance
import PhpTaint.Proofs.Flow.Quest
import PhpTaint.Proofs.Flow.Reachability
import PhpTaint.Proofs.Flow.Regime
import PhpTaint.Proofs.Flow.Retention
import PhpTaint.Proofs.Flow.Returns
import PhpTaint.Proofs.Flow.Safety
import PhpTaint.Proofs.Flow.Search
import PhpTaint.Proofs.Flow.Sessions
import PhpTaint.Proofs.Flow.Simulation
import PhpTaint.Proofs.Flow.Steps
import PhpTaint.Proofs.Flow.StraightLine
import PhpTaint.Proofs.Flow.Tables
import PhpTaint.Proofs.Flow.Termination
import PhpTaint.Proofs.Flow.Transparency
import PhpTaint.Proofs.Flow.Uniform
import PhpTaint.Proofs.Flow.Unwinding
import PhpTaint.Proofs.Flow.Variadic
import PhpTaint.Proofs.Flow.Visited
import PhpTaint.Proofs.Flow.Warrants
import PhpTaint.Proofs.Flow.Widening
import PhpTaint.Proofs.Flow.Wrappers
import PhpTaint.Proofs.Outcome
import PhpTaint.Proofs.Reports.Conservation
import PhpTaint.Proofs.Rules.Matching
import PhpTaint.Proofs.Scopes.Building
import PhpTaint.Proofs.Scopes.Catalogue
import PhpTaint.Proofs.Scopes.Cataloguing
import PhpTaint.Proofs.Scopes.Denotation
import PhpTaint.Proofs.Scopes.NamespaceTable
import PhpTaint.Proofs.Scopes.Operations
import PhpTaint.Proofs.Scopes.Preservation
import PhpTaint.Proofs.Scopes.Records
import PhpTaint.Proofs.Scopes.RelativeNames
import PhpTaint.Proofs.Scopes.Resemblance
import PhpTaint.Proofs.Scopes.Rooted
import PhpTaint.Proofs.Scopes.Segments
import PhpTaint.Proofs.Scopes.Snapshots
import PhpTaint.Proofs.Scopes.Soundness
import PhpTaint.Proofs.Scopes.Spaces
import PhpTaint.Proofs.Scopes.TandemOperations
import PhpTaint.Proofs.Scopes.Variables
import PhpTaint.Proofs.Syntax.Comments
import PhpTaint.Proofs.Syntax.Kind
import PhpTaint.Proofs.Syntax.Named
import PhpTaint.Proofs.Syntax.Occurrence
import PhpTaint.Proofs.Syntax.Parents
import PhpTaint.Proofs.Syntax.Preorder
import PhpTaint.Proofs.Syntax.Targets
import PhpTaint.Proofs.Table
import PhpTaint.Proofs.Taint.Dependencies
import PhpTaint.Proofs.Taint.Gathering
import PhpTaint.Proofs.Taint.Merging
import PhpTaint.Proofs.Taint.Replay
import PhpTaint.Proofs.Taint.Resemblance
import PhpTaint.Proofs.Taint.Sharing
import PhpTaint.Proofs.Tandem
import PhpTaint.Proofs.Text.Case
import PhpTaint.Reports.Basic
import PhpTaint.Reports.Data
import PhpTaint.Reports.Sheet
import PhpTaint.Reports.Style
import PhpTaint.Reports.Text
import PhpTaint.Rules.Basic
import PhpTaint.Rules.Default
import PhpTaint.Rules.Load
import PhpTaint.Rules.Reader
import PhpTaint.Scopes.Basic
import PhpTaint.Scopes.Declare
import PhpTaint.Scopes.Lookup
import PhpTaint.Scopes.Name
import PhpTaint.Scopes.Unnamed
import PhpTaint.Syntax.Kind
import PhpTaint.Syntax.Node
import PhpTaint.Syntax.Reader
import PhpTaint.Syntax.Shape
import PhpTaint.Syntax.Tree
import PhpTaint.Syntax.Walk
import PhpTaint.Table
import PhpTaint.Taint.Dependencies
import PhpTaint.Taint.Ledger
import PhpTaint.Taint.Level
import PhpTaint.Taint.Record
import PhpTaint.Text.Affix
import PhpTaint.Text.Blank
import PhpTaint.Text.Case
import PhpTaint.Text.Digit
import PhpTaint.Text.Letter
import PhpTaint.Text.Printable
import PhpTaint.Text.Quoted
import PhpTaint.Text.Utf8
