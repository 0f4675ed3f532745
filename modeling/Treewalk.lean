import Treewalk.CommandLine.Arguments
import Treewalk.CommandLine.Basic
import Treewalk.Config
import Treewalk.Datum
import Treewalk.Evaluation.Error
import Treewalk.Evaluation.Rules
import Treewalk.Evaluation.Run
import Treewalk.Evaluation.Session
import Treewalk.Evaluation.State
import Treewalk.Evaluation.Value
import Treewalk.Files
import Treewalk.Json.Reader
import Treewalk.Json.Writer
import Treewalk.Log
import Treewalk.Main
import Treewalk.Number.Binary
import Treewalk.Number.Digits
import Treewalk.Number.Reader
import Treewalk.Number.Shortest
import Treewalk.Number.Written
import Treewalk.Program.Basic
import Treewalk.Program.Codec
import Treewalk.Program.Dump
import Treewalk.Program.Node
import Treewalk.Program.Outline
import Treewalk.Program.Parser
import Treewalk.Proofs.CommandLine.Reporting
import Treewalk.Proofs.Config.Acceptance
import Treewalk.Proofs.Evaluation.Agreement
import Treewalk.Proofs.Evaluation.Alike
import Treewalk.Proofs.Evaluation.Contract
import Treewalk.Proofs.Evaluation.Culprit
import Treewalk.Proofs.Evaluation.Derivation
import Treewalk.Proofs.Evaluation.Discipline
import Treewalk.Proofs.Evaluation.Equations
import Treewalk.Proofs.Evaluation.Evolution
import Treewalk.Proofs.Evaluation.Locality
import Treewalk.Proofs.Evaluation.Nesting
import Treewalk.Proofs.Evaluation.Reachability
import Treewalk.Proofs.Evaluation.Reference
import Treewalk.Proofs.Evaluation.Regime
import Treewalk.Proofs.Evaluation.Simulation
import Treewalk.Proofs.Evaluation.Toplevel
import Treewalk.Proofs.Evaluation.Visibility
import Treewalk.Proofs.Evaluation.Watch
import Treewalk.Proofs.Evaluation.Writes
import Treewalk.Proofs.Json.Numbers
import Treewalk.Proofs.Json.RoundTrip
import Treewalk.Proofs.Json.Strings
import Treewalk.Proofs.Number.Doubles
import Treewalk.Proofs.Number.Rounding
import Treewalk.Proofs.Number.Shortest
import Treewalk.Proofs.Number.ZeroSign
import Treewalk.Proofs.Program.Behaviour
import Treewalk.Proofs.Program.Concatenation
import Treewalk.Proofs.Program.DeadCode
import Treewalk.Proofs.Program.Encoding
import Treewalk.Proofs.Program.Globals
import Treewalk.Proofs.Program.Labels
import Treewalk.Proofs.Program.LexicalReturn
import Treewalk.Proofs.Program.RoundTrip
import Treewalk.Proofs.Program.Safety
import Treewalk.Proofs.Program.Schema
import Treewalk.Proofs.Program.ShownLine
import Treewalk.Proofs.Program.Spacing
import Treewalk.Proofs.Program.TreeDump
import Treewalk.Proofs.Source.Caret
import Treewalk.Proofs.Source.Cutting
import Treewalk.Proofs.Source.Lexemes
import Treewalk.Proofs.Source.Positions
import Treewalk.Proofs.Source.Scanning
import Treewalk.Proofs.Syntax.Acceptance
import Treewalk.Proofs.Syntax.EarliestError
import Treewalk.Proofs.Syntax.EndOfInput
import Treewalk.Proofs.Syntax.Exactness
import Treewalk.Proofs.Syntax.Foresight
import Treewalk.Proofs.Syntax.Grammar
import Treewalk.Proofs.Syntax.Kinds
import Treewalk.Proofs.Syntax.Layers
import Treewalk.Proofs.Syntax.Layout
import Treewalk.Proofs.Syntax.Reading
import Treewalk.Proofs.Syntax.Recognition
import Treewalk.Proofs.Syntax.Rendering
import Treewalk.Proofs.Syntax.Spans
import Treewalk.Proofs.Syntax.Viability
import Treewalk.Proofs.Text.Told
import Treewalk.Report
import Treewalk.Source.Diagnostic
import Treewalk.Source.Lexer
import Treewalk.Source.Span
import Treewalk.Source.Token
import Treewalk.Text.DecimalDigit
import Treewalk.Text.Letter
import Treewalk.Text.Lines
import Treewalk.Text.Printable
import Treewalk.Text.Quoted
import Treewalk.Text.Ranges
import Treewalk.Yaml.Reader
import Treewalk.Yaml.Scalar
import Treewalk.Yaml.Writer
