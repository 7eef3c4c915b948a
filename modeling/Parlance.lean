import Parlance.Binary64
import Parlance.Calendar
import Parlance.Command
import Parlance.Command.Request
import Parlance.Data
import Parlance.Diagnostic
import Parlance.Diff.Alignment
import Parlance.Diff.Edit
import Parlance.Diff.Unified
import Parlance.Environment
import Parlance.Files
import Parlance.Help
import Parlance.Json.Reader
import Parlance.Json.Writer
import Parlance.Lint
import Parlance.Main
import Parlance.Path
import Parlance.Proofs.Binary64
import Parlance.Proofs.Concatenation
import Parlance.Proofs.Erasure
import Parlance.Proofs.Grammar.Answer
import Parlance.Proofs.Grammar.Completeness
import Parlance.Proofs.Grammar.Completion
import Parlance.Proofs.Grammar.Coverage
import Parlance.Proofs.Grammar.Derivation
import Parlance.Proofs.Grammar.Descent
import Parlance.Proofs.Grammar.Extension
import Parlance.Proofs.Grammar.FirstFault
import Parlance.Proofs.Grammar.Following
import Parlance.Proofs.Grammar.Lookahead
import Parlance.Proofs.Grammar.Passes
import Parlance.Proofs.Grammar.Places
import Parlance.Proofs.Grammar.Progress
import Parlance.Proofs.Grammar.Recognition
import Parlance.Proofs.Grammar.Sight
import Parlance.Proofs.Grammar.Soundness
import Parlance.Proofs.Grammar.Spans
import Parlance.Proofs.Grammar.Uniqueness
import Parlance.Proofs.History
import Parlance.Proofs.Incomplete
import Parlance.Proofs.Json.RoundTrip
import Parlance.Proofs.Json.Strings
import Parlance.Proofs.Lint.Findings
import Parlance.Proofs.Lint.Occurrences
import Parlance.Proofs.Lint.Pruning
import Parlance.Proofs.Lint.Reads
import Parlance.Proofs.Lint.Scopes
import Parlance.Proofs.Lint.Soundness
import Parlance.Proofs.Parts
import Parlance.Proofs.Printing.Comments
import Parlance.Proofs.Printing.Formula
import Parlance.Proofs.Printing.Parentheses
import Parlance.Proofs.Printing.RoundTrip
import Parlance.Proofs.Printing.Statement
import Parlance.Proofs.Printing.Writing
import Parlance.Proofs.Repl
import Parlance.Proofs.Run.Agreement
import Parlance.Proofs.Run.Arithmetic
import Parlance.Proofs.Run.Budget
import Parlance.Proofs.Run.Cancellation
import Parlance.Proofs.Run.Composition
import Parlance.Proofs.Run.Continuation
import Parlance.Proofs.Run.Correspondence
import Parlance.Proofs.Run.Discipline
import Parlance.Proofs.Run.Formatting
import Parlance.Proofs.Run.Frame
import Parlance.Proofs.Run.Isolation
import Parlance.Proofs.Run.Machine
import Parlance.Proofs.Run.Overlay
import Parlance.Proofs.Run.Path
import Parlance.Proofs.Run.Pruning
import Parlance.Proofs.Run.Safety
import Parlance.Proofs.Run.Scope
import Parlance.Proofs.Run.Strings
import Parlance.Proofs.Run.Termination
import Parlance.Proofs.Run.Trail
import Parlance.Proofs.Run.Translation
import Parlance.Proofs.Run.Visit
import Parlance.Proofs.Scanning.Lexical
import Parlance.Proofs.Scanning.Lines
import Parlance.Proofs.Scanning.Newline
import Parlance.Proofs.Scanning.Numeral
import Parlance.Proofs.Scanning.Order
import Parlance.Proofs.Scanning.Positions
import Parlance.Proofs.Scanning.Regions
import Parlance.Proofs.Scanning.Spelling
import Parlance.Proofs.Source
import Parlance.Proofs.Terminal
import Parlance.Proofs.Text.Characters
import Parlance.Proofs.Text.Trim
import Parlance.Proofs.Trace.Line
import Parlance.Proofs.Trace.Merging
import Parlance.Proofs.Trace.Summary
import Parlance.Proofs.WellFormed
import Parlance.Quicksort
import Parlance.Repl
import Parlance.Run.Evaluation
import Parlance.Run.Event
import Parlance.Run.Fault
import Parlance.Run.Limits
import Parlance.Run.Machine
import Parlance.Scenario
import Parlance.Session
import Parlance.Settings
import Parlance.Settings.Document
import Parlance.Settings.Reader
import Parlance.Settings.Search
import Parlance.Source
import Parlance.Span
import Parlance.Table
import Parlance.Text
import Parlance.Text.Base64
import Parlance.Text.Decimal
import Parlance.Text.Printable
import Parlance.Text.Quoted
import Parlance.Text.Radix
import Parlance.Text.Trim
import Parlance.Text.Unicode
import Parlance.Timestamp
import Parlance.Token
import Parlance.Token.Scanner
import Parlance.Toml
import Parlance.Trace
import Parlance.Tree
import Parlance.Tree.Grammar
import Parlance.Tree.Outline
import Parlance.Tree.Printer
import Parlance.Value
import Parlance.Word
import Parlance.Yaml.Cursor
import Parlance.Yaml.Meaning
import Parlance.Yaml.Node
import Parlance.Yaml.Scalar
import Parlance.Yaml.Stream
import Parlance.Yaml.Token
import Parlance.Yaml.Writer
