import Deadwood.Builtin
import Deadwood.Cast
import Deadwood.Cli.Flags
import Deadwood.Cli.Run
import Deadwood.Cli.Workers
import Deadwood.Constant
import Deadwood.Effect
import Deadwood.Elimination.Rules
import Deadwood.Elimination.Run
import Deadwood.Elimination.State
import Deadwood.Elimination.Traversal
import Deadwood.Files
import Deadwood.Graph.Basic
import Deadwood.Graph.Component
import Deadwood.Lexer
import Deadwood.Main
import Deadwood.Number.Decimal
import Deadwood.Number.Dyadic
import Deadwood.Number.Nearest
import Deadwood.Number.OfText
import Deadwood.Number.Shortest
import Deadwood.Parser.Expression
import Deadwood.Parser.Module
import Deadwood.Parser.State
import Deadwood.Parser.Statement
import Deadwood.Printer
import Deadwood.Proofs.Fold
import Deadwood.Proofs.Head
import Deadwood.Proofs.ControlFlow
import Deadwood.Proofs.Plain
import Deadwood.Proofs.Removal
import Deadwood.Proofs.Rules
import Deadwood.Proofs.ScopeWalk
import Deadwood.Proofs.Numbering
import Deadwood.Proofs.Ledger
import Deadwood.Proofs.Account
import Deadwood.Proofs.Inlining
import Deadwood.Proofs.Traversal
import Deadwood.Removal
import Deadwood.Scope.Basic
import Deadwood.Scope.Occurrence
import Deadwood.Scope.Resolve
import Deadwood.Scope.Usage
import Deadwood.Scope.Walk
import Deadwood.Settings.Basic
import Deadwood.Settings.Document
import Deadwood.Source
import Deadwood.Syntax.Access
import Deadwood.Syntax.Basic
import Deadwood.Syntax.Operator
import Deadwood.SyntaxError
import Deadwood.Text.Class
import Deadwood.Text.Printable
import Deadwood.Text.Quoted
import Deadwood.Text.Units
import Deadwood.TokenKind
import Deadwood.Value
import Deadwood.ValueType
import Deadwood.Version.Basic
import Deadwood.Version.Constraint
import Deadwood.Watch
import Deadwood.Proofs.Termination
import Deadwood.Proofs.Renumbering
import Deadwood.Proofs.Still
import Deadwood.Proofs.NormalForm
import Deadwood.Proofs.Repeats
import Deadwood.Proofs.SecondPass
import Deadwood.Proofs.Restamp
import Deadwood.Proofs.PrintStamps
import Deadwood.Proofs.Kept
import Deadwood.Proofs.Beside
import Deadwood.Proofs.TidyScopes
import Deadwood.Proofs.Idempotence
import Deadwood.Proofs.Composition
import Deadwood.Proofs.Duplication
import Deadwood.Proofs.KeptJumps
import Deadwood.Proofs.ParsingEnds
import Deadwood.Proofs.Workers
import Deadwood.Proofs.Components
import Deadwood.Proofs.Cycles
import Deadwood.Proofs.RoundTrip
import Deadwood.Proofs.Typing
import Deadwood.Proofs.FoldedTests
import Deadwood.Proofs.TextOrder
import Deadwood.Proofs.Sweep
import Deadwood.Proofs.Backtracking
import Deadwood.Proofs.Circles
import Deadwood.Proofs.Histories
import Deadwood.Proofs.Tiling
import Deadwood.Proofs.QuotedStrings
import Deadwood.Proofs.Reckoning
