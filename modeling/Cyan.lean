import Cyan.Action.Basic
import Cyan.Action.Below
import Cyan.Command
import Cyan.Diagnostic.Message
import Cyan.Diagnostic.Report
import Cyan.Evaluation.Bound
import Cyan.Evaluation.Console
import Cyan.Evaluation.Evaluate
import Cyan.Evaluation.Fault
import Cyan.Evaluation.Operation
import Cyan.Expr.Basic
import Cyan.Expr.Operator
import Cyan.Expr.Printed
import Cyan.Files
import Cyan.Grammar.Bound
import Cyan.Grammar.Cursor
import Cyan.Grammar.Rules
import Cyan.LogFilter
import Cyan.Main
import Cyan.Number.Basic
import Cyan.Number.Binary64
import Cyan.Number.Decimal
import Cyan.Number.Reading
import Cyan.Number.Shortest
import Cyan.Number.Written
import Cyan.Proofs.Action.Keeps
import Cyan.Proofs.Evaluation.Keeps
import Cyan.Proofs.Grammar.Derivation
import Cyan.Proofs.Grammar.Language
import Cyan.Proofs.Scope.Frame
import Cyan.Scope.Bindings
import Cyan.Scope.Heap
import Cyan.Scope.Store
import Cyan.Session
import Cyan.Shell
import Cyan.Source.Excerpt
import Cyan.Source.Position
import Cyan.Source.Span
import Cyan.Text.Blank
import Cyan.Text.Combining
import Cyan.Text.Letter
import Cyan.Text.Numeric
import Cyan.Text.Quoted
import Cyan.Text.Ranges
import Cyan.Text.Unprintable
import Cyan.Token.Basic
import Cyan.Token.Lexeme
import Cyan.Token.Spelling
import Cyan.Token.Stream
import Cyan.Value.Basic
import Cyan.Value.Inspected
import Cyan.Proofs.Grammar.Levels
import Cyan.Proofs.Grammar.Forward
import Cyan.Proofs.Grammar.Predictive
import Cyan.Proofs.Grammar.Recognition
import Cyan.Proofs.Grammar.Recognized
import Cyan.Proofs.Grammar.Tree
import Cyan.Proofs.Grammar.Accepted
import Cyan.Proofs.Action.Secures
import Cyan.Proofs.Evaluation.Visits
import Cyan.Proofs.Scope.Lexical
import Cyan.Proofs.Evaluation.Lexical
import Cyan.Proofs.Session.History
import Cyan.Proofs.Session.Lexical
import Cyan.Proofs.Token.Cuts
import Cyan.Proofs.Token.Spelled
import Cyan.Proofs.Token.Partition
import Cyan.Proofs.Action.Maps
import Cyan.Proofs.Evaluation.Places
import Cyan.Proofs.Grammar.Places
import Cyan.Proofs.Grammar.Unique
import Cyan.Proofs.Grammar.Lines
import Cyan.Proofs.Session.Lines
import Cyan.Proofs.Token.Excerpt
import Cyan.Proofs.Grammar.Sources
import Cyan.Proofs.Grammar.Nodes
import Cyan.Proofs.Grammar.Excerpts
import Cyan.Proofs.Action.Relates
import Cyan.Proofs.Scope.Alike
import Cyan.Proofs.Evaluation.Alike
import Cyan.Proofs.Scope.Reach
import Cyan.Proofs.Session.Answers
import Cyan.Proofs.Session.Isolation
import Cyan.Proofs.Grammar.Numbered
import Cyan.Proofs.Session.Layout
import Cyan.Proofs.Scope.Agree
import Cyan.Proofs.Evaluation.Unreached
import Cyan.Proofs.Evaluation.Failures
import Cyan.Proofs.Evaluation.Traceback
import Cyan.Proofs.Session.Tracebacks
import Cyan.Proofs.Number.Rounding
import Cyan.Proofs.Number.Magnitude
import Cyan.Proofs.Number.Written
import Cyan.Proofs.Token.Reread
import Cyan.Proofs.Token.RoundTrip
import Cyan.Proofs.Evaluation.Console
import Cyan.Proofs.Action.Outlasts
import Cyan.Proofs.Evaluation.Limit
import Cyan.Proofs.Evaluation.Operands
import Cyan.Proofs.Evaluation.Depth
import Cyan.Proofs.Action.Ends
import Cyan.Proofs.Scope.Confined
import Cyan.Proofs.Evaluation.Loopless
import Cyan.Proofs.Session.Ending
import Cyan.Proofs.Session.Replay
import Cyan.Proofs.Shell.Turns
import Cyan.Proofs.Number.Signed
import Cyan.Proofs.Number.Order
import Cyan.Proofs.Command.Files
import Cyan.Proofs.Grammar.Foreseen
import Cyan.Proofs.Evaluation.Outlasts
import Cyan.Proofs.Session.Room
import Cyan.Proofs.Number.Exact
import Cyan.Proofs.Token.Faults
import Cyan.Proofs.Source.Lines
import Cyan.Proofs.Source.Underline
import Cyan.Proofs.Token.Lines
import Cyan.Proofs.Grammar.Spans
import Cyan.Proofs.Scope.Trace
import Cyan.Proofs.Scope.InUse
import Cyan.Proofs.Scope.Family
import Cyan.Proofs.Scope.Forgotten
import Cyan.Proofs.Number.Reading
import Cyan.Proofs.Session.Numerals
import Cyan.Proofs.Token.Points
import Cyan.Proofs.Grammar.Composed
import Cyan.Proofs.Grammar.Within
import Cyan.Proofs.Grammar.Identifiers
import Cyan.Proofs.Scope.Hidden
import Cyan.Proofs.Evaluation.Anonymous
import Cyan.Proofs.Session.Anonymous
