import ComplexCalculator.Calculator.Window
import ComplexCalculator.Grammar.Expr
import ComplexCalculator.Main
import ComplexCalculator.Proofs.Decimal.Spelling
import ComplexCalculator.Proofs.Grammar.Context
import ComplexCalculator.Proofs.Grammar.Induction
import ComplexCalculator.Token
import ComplexCalculator.Proofs.Grammar.Levels
import ComplexCalculator.Proofs.Grammar.Placement
import ComplexCalculator.Proofs.Grammar.Acceptance
import ComplexCalculator.Proofs.Lexeme.Merging
import ComplexCalculator.Proofs.Lexeme.Scan
import ComplexCalculator.Proofs.Lexeme.Patterns
import ComplexCalculator.Proofs.Lexeme.Passes
import ComplexCalculator.Proofs.Binary64.Arithmetic
import ComplexCalculator.Proofs.Binary64.Nearest
import ComplexCalculator.Proofs.Decimal.Powers
import ComplexCalculator.Proofs.Decimal.Literal
import ComplexCalculator.Proofs.Decimal.Significant
import ComplexCalculator.Proofs.Decimal.Stable
import ComplexCalculator.Proofs.Lexeme.Written
import ComplexCalculator.Proofs.Grammar.Terms
import ComplexCalculator.Proofs.Display.Parts
import ComplexCalculator.Proofs.Display.Rereading
import ComplexCalculator.Proofs.Grammar.Simulation
import ComplexCalculator.Proofs.Grammar.Trees
import ComplexCalculator.Proofs.Grammar.Locality
import ComplexCalculator.Proofs.Grammar.Exchange
import ComplexCalculator.Proofs.Grammar.Diagnosis
import ComplexCalculator.Proofs.Calculator.History
import ComplexCalculator.Proofs.Grammar.Parallel
import ComplexCalculator.Proofs.Grammar.Spacing
import ComplexCalculator.Proofs.Operand.Finite
import ComplexCalculator.Proofs.Binary64.Rounding
import ComplexCalculator.Proofs.Binary64.Bounds
import ComplexCalculator.Proofs.Elementary
import ComplexCalculator.Proofs.Display.Polar
import ComplexCalculator.Proofs.Display.Overflow
import ComplexCalculator.Proofs.Binary64.Exceptional
import ComplexCalculator.Proofs.Display.Turning
import ComplexCalculator.Proofs.Display.Readable
import ComplexCalculator.Proofs.Calculator.Selection
import ComplexCalculator.Proofs.Calculator.Deletion
import ComplexCalculator.Proofs.Calculator.Typing
import ComplexCalculator.Proofs.Grammar.Chains
import ComplexCalculator.Proofs.Exact
import ComplexCalculator.Proofs.Grammar.Negation
import ComplexCalculator.Proofs.Grammar.Folding
import ComplexCalculator.Proofs.Grammar.Cancellation
import ComplexCalculator.Proofs.Lexeme.Signs
import ComplexCalculator.Proofs.SignFolding
import ComplexCalculator.Proofs.Grammar.Quotients
import ComplexCalculator.Proofs.Lexeme.Stops
import ComplexCalculator.Proofs.Grammar.Towers
import ComplexCalculator.Proofs.Grammar.Leading
import ComplexCalculator.Proofs.Grammar.Wrapping
import ComplexCalculator.Proofs.Decimal.HalfEven
import ComplexCalculator.Proofs.Display.Precision
import ComplexCalculator.Proofs.Operand.Events
import ComplexCalculator.Proofs.Cartesian
import ComplexCalculator.Proofs.Grammar.Calls
import ComplexCalculator.Proofs.Grammar.Segments
import ComplexCalculator.Proofs.Grammar.Moments
