import MiniScheme.Datum
import MiniScheme.Decimal.Layout
import MiniScheme.Decimal.Shortest
import MiniScheme.Error
import MiniScheme.Eval.Global
import MiniScheme.Eval.Interpreter
import MiniScheme.Eval.Monad
import MiniScheme.Eval.Operand
import MiniScheme.Eval.Primitive
import MiniScheme.Eval.SpecialForm
import MiniScheme.Kind
import MiniScheme.Main
import MiniScheme.Node.Basic
import MiniScheme.Node.Build
import MiniScheme.Number.Arith
import MiniScheme.Number.Basic
import MiniScheme.Number.Literal
import MiniScheme.Number.Ratio
import MiniScheme.Number.Text
import MiniScheme.Operator
import MiniScheme.Params
import MiniScheme.Pattern.Basic
import MiniScheme.Pattern.Match
import MiniScheme.Position
import MiniScheme.Prompt
import MiniScheme.Session
import MiniScheme.Store.Basic
import MiniScheme.Store.Equal
import MiniScheme.Store.Text
import MiniScheme.Text.Hidden
import MiniScheme.Text.Quoted
import MiniScheme.Token.Basic
import MiniScheme.Token.Lexeme
import MiniScheme.Token.Scanner
import MiniScheme.Tracer
import MiniScheme.Value
import MiniScheme.Proofs.Datum.Dotted
import MiniScheme.Proofs.Datum.Quoting
import MiniScheme.Proofs.Datum.Reading
import MiniScheme.Proofs.Datum.Written
import MiniScheme.Proofs.Eval.Announcing
import MiniScheme.Proofs.Eval.Calling
import MiniScheme.Proofs.Eval.Congruence
import MiniScheme.Proofs.Eval.Effects
import MiniScheme.Proofs.Eval.Fuel
import MiniScheme.Proofs.Eval.Grounded
import MiniScheme.Proofs.Eval.Late
import MiniScheme.Proofs.Eval.Unwinding
import MiniScheme.Proofs.Likeness.Basic
import MiniScheme.Proofs.Likeness.Eval
import MiniScheme.Proofs.Likeness.Evaluator
import MiniScheme.Proofs.Likeness.Store
import MiniScheme.Proofs.Node.Marks
import MiniScheme.Proofs.Number.Accumulation
import MiniScheme.Proofs.Number.Canonical
import MiniScheme.Proofs.Number.Exact
import MiniScheme.Proofs.Number.Ordering
import MiniScheme.Proofs.Number.Representable
import MiniScheme.Proofs.Number.Shape
import MiniScheme.Proofs.Number.Written
import MiniScheme.Proofs.Pattern.Binding
import MiniScheme.Proofs.Pattern.Expansion
import MiniScheme.Proofs.Pattern.Forwarding
import MiniScheme.Proofs.Pattern.Recursion
import MiniScheme.Proofs.Pattern.Scope
import MiniScheme.Proofs.Pattern.Splicing
import MiniScheme.Proofs.Pattern.Statements
import MiniScheme.Proofs.Prompt.Once
import MiniScheme.Proofs.Renaming.Eval
import MiniScheme.Proofs.Renaming.Evaluator
import MiniScheme.Proofs.Renaming.LocalBinding
import MiniScheme.Proofs.Renaming.Order
import MiniScheme.Proofs.Renaming.Store
import MiniScheme.Proofs.Renaming.WellFormed
import MiniScheme.Proofs.Session.Forest
import MiniScheme.Proofs.Session.Layout
import MiniScheme.Proofs.Session.Numbers
import MiniScheme.Proofs.Session.Places
import MiniScheme.Proofs.Session.Steps
import MiniScheme.Proofs.Session.Tracing
import MiniScheme.Proofs.Store.Cycles
import MiniScheme.Proofs.Store.Data
import MiniScheme.Proofs.Store.Forest
import MiniScheme.Proofs.Store.Frames
import MiniScheme.Proofs.Store.Printer
import MiniScheme.Proofs.Store.Unfolding
import MiniScheme.Proofs.Token.Brackets
import MiniScheme.Proofs.Token.Descent
import MiniScheme.Proofs.Token.Fractions
import MiniScheme.Proofs.Token.InPlace
import MiniScheme.Proofs.Token.Integers
import MiniScheme.Proofs.Token.Lawful
import MiniScheme.Proofs.Token.Lines
import MiniScheme.Proofs.Token.Nesting
import MiniScheme.Proofs.Token.Numbers
import MiniScheme.Proofs.Token.Offsets
import MiniScheme.Proofs.Token.Render
import MiniScheme.Proofs.Token.Scan
import MiniScheme.Proofs.Token.Spelling
import MiniScheme.Proofs.Token.Words
