import Keypad.Binary64.Basic
import Keypad.Binary64.Shortest
import Keypad.CommandLine.Arguments
import Keypad.CommandLine.Declaration
import Keypad.CommandLine.Lines
import Keypad.CommandLine.Loop
import Keypad.CommandLine.Run
import Keypad.Decimal.Basic
import Keypad.Display
import Keypad.Expression.Basic
import Keypad.Expression.Evaluator
import Keypad.Expression.Parser
import Keypad.Expression.Printer
import Keypad.Fault
import Keypad.Key.Basic
import Keypad.Key.Function
import Keypad.Main
import Keypad.Operator
import Keypad.Rounding
import Keypad.Session
import Keypad.Text.Blank
import Keypad.Text.Span
import Keypad.Token.Basic
import Keypad.Token.Lexer
import Keypad.Proofs.Expression.Precedence
import Keypad.Proofs.Token.Lexeme
import Keypad.Proofs.Token.Calls
import Keypad.Proofs.Text.Place
import Keypad.Proofs.Decimal.Literal
import Keypad.Proofs.Expression.Grammar
import Keypad.Proofs.Binary64.Bits
import Keypad.Proofs.Rounding
import Keypad.Proofs.Binary64.Nearest
import Keypad.Proofs.Decimal.Written
import Keypad.Proofs.Binary64.Value
import Keypad.Proofs.Binary64.Rounded
import Keypad.Proofs.Binary64.Shortest
import Keypad.Proofs.Display.Shown
import Keypad.Proofs.Display.RoundTrip
import Keypad.Proofs.Session.Work
import Keypad.Proofs.Session.FixedPoint
import Keypad.Proofs.Session.Negation
import Keypad.Proofs.Token.Stretch
import Keypad.Proofs.Token.Cut
import Keypad.Proofs.Token.Layout
import Keypad.Proofs.Token.Strict
import Keypad.Proofs.CommandLine.Reader
import Keypad.Proofs.CommandLine.Arguments
import Keypad.Proofs.CommandLine.Listing
import Keypad.Proofs.Expression.Faults
import Keypad.Proofs.Expression.Modes
import Keypad.Proofs.Session.Modes
import Keypad.Proofs.Session.Atomic
import Keypad.Proofs.Session.History
import Keypad.Proofs.Token.Placed
import Keypad.Proofs.Expression.Blame
import Keypad.Proofs.Expression.Diagnostics
import Keypad.Proofs.Expression.Dropped
import Keypad.Proofs.CommandLine.Lines
import Keypad.Proofs.CommandLine.Pieces
import Keypad.Proofs.Session.Memory
import Keypad.Proofs.Display.Canonical
import Keypad.Proofs.Expression.Trailing
import Keypad.Proofs.Expression.Reading
import Keypad.Proofs.Expression.Operands
import Keypad.Proofs.Expression.Divisors
import Keypad.Proofs.Expression.Calls
import Keypad.Proofs.Expression.Printed
import Keypad.Proofs.CommandLine.FrontEnds
import Keypad.Proofs.CommandLine.Verbosity
import Keypad.Proofs.Text.Slice
import Keypad.Proofs.Token.Rounds
