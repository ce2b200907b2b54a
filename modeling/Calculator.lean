import Calculator.Binary64.Basic
import Calculator.Binary64.Remainder
import Calculator.Builtin
import Calculator.Calculation
import Calculator.Command.Arguments
import Calculator.Command.Directory
import Calculator.Command.Reading
import Calculator.Command.Report
import Calculator.Command.Timing
import Calculator.Expression.Chain
import Calculator.Expression.Cursor
import Calculator.Expression.Error
import Calculator.Expression.Evaluate
import Calculator.Expression.Tree
import Calculator.Main
import Calculator.Numeral.Decimal
import Calculator.Numeral.Integer
import Calculator.Numeral.Shortest
import Calculator.Proofs.Binary64.Canonical
import Calculator.Proofs.Binary64.Finite
import Calculator.Proofs.Binary64.Integer
import Calculator.Proofs.Binary64.Nearest
import Calculator.Proofs.Binary64.Parts
import Calculator.Proofs.Binary64.Remainder
import Calculator.Proofs.Command.Arguments
import Calculator.Proofs.Command.Directory
import Calculator.Proofs.Command.Evaluations
import Calculator.Proofs.Command.Tables
import Calculator.Proofs.Command.Timing
import Calculator.Proofs.Expression.Acceptance
import Calculator.Proofs.Expression.Blame
import Calculator.Proofs.Expression.Exactness
import Calculator.Proofs.Expression.Machine
import Calculator.Proofs.Expression.Message
import Calculator.Proofs.Expression.Nesting
import Calculator.Proofs.Expression.Numeral
import Calculator.Proofs.Expression.Operand
import Calculator.Proofs.Expression.Outcome
import Calculator.Proofs.Expression.PowerCall
import Calculator.Proofs.Expression.PowerChain
import Calculator.Proofs.Expression.Progress
import Calculator.Proofs.Expression.Reading
import Calculator.Proofs.Expression.Spelling
import Calculator.Proofs.Expression.Tail
import Calculator.Proofs.Expression.Unambiguity
import Calculator.Proofs.Expression.Viability
import Calculator.Proofs.Expression.Visibility
import Calculator.Proofs.Numeral.Decimal
import Calculator.Proofs.Numeral.Integer
import Calculator.Proofs.Numeral.Reading
import Calculator.Proofs.Numeral.Shortest
import Calculator.Proofs.Source.Cutting
import Calculator.Proofs.Source.Layout
import Calculator.Proofs.Source.Lexeme
import Calculator.Proofs.Source.Lines
import Calculator.Proofs.Source.Location
import Calculator.Proofs.Source.Spacing
import Calculator.Proofs.Token.Rendering
import Calculator.Proofs.Token.Table
import Calculator.Proofs.Value.Distinct
import Calculator.Proofs.Value.Finite
import Calculator.Proofs.Value.Int64
import Calculator.Proofs.Value.Power
import Calculator.Proofs.Value.Remainder
import Calculator.Proofs.Value.Text
import Calculator.Source.Blank
import Calculator.Source.Position
import Calculator.Source.Segment
import Calculator.Token.Basic
import Calculator.Token.Kind
import Calculator.Token.Table
import Calculator.Token.Tokenize
import Calculator.Value.Arithmetic
import Calculator.Value.Basic
import Calculator.Value.Text
