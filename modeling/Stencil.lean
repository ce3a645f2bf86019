import Stencil.Context
import Stencil.Debug
import Stencil.Engine
import Stencil.Error
import Stencil.Expr
import Stencil.Expr.Parser
import Stencil.Fields
import Stencil.Html
import Stencil.Number.Binary
import Stencil.Number.Reading
import Stencil.Number.Shortest
import Stencil.Number.Written
import Stencil.Run.Eval
import Stencil.Run.Exec
import Stencil.Run.Sink
import Stencil.Run.State
import Stencil.Source.Normal
import Stencil.Source.Segment
import Stencil.Step
import Stencil.Step.Parser
import Stencil.Stmt
import Stencil.Stmt.Builder
import Stencil.Text.Blank
import Stencil.Text.Casing
import Stencil.Text.Casing.Table
import Stencil.Text.Printable
import Stencil.Text.Quoted
import Stencil.Text.Ranges
import Stencil.Text.Units
import Stencil.Token
import Stencil.Token.Escapes
import Stencil.Token.Lexer
import Stencil.Token.Numeral
import Stencil.Value
import Stencil.Value.Arith
import Stencil.Value.Compare
import Stencil.Value.Data
import Stencil.Value.Method
import Stencil.Value.Property
import Stencil.Value.Text
import Stencil.Proofs.Scanning
import Stencil.Proofs.Linear
import Stencil.Proofs.Feeding
import Stencil.Proofs.Building
import Stencil.Proofs.Grammar
import Stencil.Proofs.Spelling
import Stencil.Proofs.Escaping
import Stencil.Proofs.References
import Stencil.Proofs.Normalizing
import Stencil.Proofs.Number.Digits
import Stencil.Proofs.Unescaping
import Stencil.Proofs.Literals
import Stencil.Proofs.Relabelling
import Stencil.Proofs.Reading.Basic
import Stencil.Proofs.Reading.Yields
import Stencil.Proofs.Expressions
import Stencil.Proofs.Reading.Sound
import Stencil.Proofs.Operators
import Stencil.Proofs.Reading.Room
import Stencil.Proofs.Reading.Ends
import Stencil.Proofs.Reading.Complete
import Stencil.Proofs.Reading.Standalone
import Stencil.Proofs.Reading.Precedence
import Stencil.Proofs.Reading.Height
import Stencil.Proofs.Reading.Nesting
import Stencil.Proofs.Reading.Braces
import Stencil.Proofs.Reading.Blocks
import Stencil.Proofs.Balance
import Stencil.Proofs.Rejecting
import Stencil.Proofs.Offsets.Basic
import Stencil.Proofs.Run.Evaluation
import Stencil.Proofs.Run.Quiet
import Stencil.Proofs.Run.Execution
import Stencil.Proofs.Run.Visibility
import Stencil.Proofs.Run.Simulation
import Stencil.Proofs.Run.Rounds
import Stencil.Proofs.Run.Writing
import Stencil.Proofs.Run.Fuel
import Stencil.Proofs.Run.Locals
import Stencil.Proofs.Run.Writes
import Stencil.Proofs.Run.Chunks
import Stencil.Proofs.Run.Truncation
import Stencil.Proofs.Run.MoreFuel
import Stencil.Proofs.Run.Emission
import Stencil.Proofs.Run.Failing
import Stencil.Proofs.Run.Streaming
import Stencil.Proofs.Offsets.Scanning
import Stencil.Proofs.Offsets.Numerals
import Stencil.Proofs.Offsets.Lexing
import Stencil.Proofs.Number.Casts
import Stencil.Proofs.Indexing
import Stencil.Proofs.Offsets.Values
import Stencil.Proofs.Run.Checked
import Stencil.Proofs.Domains
import Stencil.Proofs.Sharing
import Stencil.Proofs.Unescaping.Sound
import Stencil.Proofs.Number.Signs
import Stencil.Proofs.Number.Nearest
import Stencil.Proofs.Number.Accepted
import Stencil.Proofs.Number.Whole
import Stencil.Proofs.Number.Printing
import Stencil.Proofs.Number.Rounded
import Stencil.Proofs.Enumeration
import Stencil.Proofs.Text.Units
import Stencil.Proofs.Searching
import Stencil.Proofs.Lexing.Basic
import Stencil.Proofs.Lexing.Spelling
import Stencil.Proofs.Lexing.Numerals
import Stencil.Proofs.Lexing.Joined
import Stencil.Proofs.Lexing.Longest
import Stencil.Proofs.Lexing.Shapes
import Stencil.Proofs.Lexing.Slices
import Stencil.Proofs.Stretches
import Stencil.Proofs.Run.Printing
import Stencil.Proofs.Reading.Loops
import Stencil.Proofs.Loops
import Stencil.Proofs.Ordering
import Stencil.Proofs.LooseEquality
import Stencil.Proofs.Text.Surrogates
import Stencil.Proofs.Slicing
import Stencil.Proofs.Run.Delaying
import Stencil.Proofs.Reading.Conditionals
import Stencil.Proofs.Conditionals
import Stencil.Proofs.Number.Exact
import Stencil.Proofs.Rereading
import Stencil.Proofs.Joining
import Stencil.Proofs.Naming
import Stencil.Proofs.Reading.Counting
import Stencil.Proofs.Reading.Following
import Stencil.Proofs.Reading.Progress
import Stencil.Proofs.Reading.Balanced
