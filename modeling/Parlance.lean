import Parlance.Binary.Remainder
import Parlance.Binary.Shortest
import Parlance.Binary.Text
import Parlance.Calendar.Moment
import Parlance.Calendar.Text
import Parlance.CommandLine.Advice
import Parlance.CommandLine.Arguments
import Parlance.CommandLine.Run
import Parlance.Decimal.Arithmetic
import Parlance.Decimal.Basic
import Parlance.Decimal.Binary
import Parlance.Decimal.Division
import Parlance.Decimal.Text
import Parlance.Diagnostic
import Parlance.Expr.Basic
import Parlance.Expr.Build
import Parlance.Expr.Conversion
import Parlance.Expr.Eval
import Parlance.Extent
import Parlance.Grammar.Describe
import Parlance.Grammar.Link
import Parlance.Grammar.Listing
import Parlance.Grammar.Rule
import Parlance.Grammar.Scanner
import Parlance.Guid
import Parlance.Json.Basic
import Parlance.Json.Numeral
import Parlance.Json.Parse
import Parlance.Language.Arithmetic
import Parlance.Language.Basic
import Parlance.Language.Filter
import Parlance.Main
import Parlance.Number
import Parlance.NumericKind
import Parlance.Operator
import Parlance.ParseError
import Parlance.ParseState.Apply
import Parlance.ParseState.Basic
import Parlance.ParseState.Bracket
import Parlance.ParseState.Reduce
import Parlance.Pattern.Automaton
import Parlance.Pattern.Basic
import Parlance.Pattern.Boundary
import Parlance.Pattern.CharSet
import Parlance.Pattern.Class
import Parlance.Pattern.Cursor
import Parlance.Pattern.Ends
import Parlance.Pattern.Escape
import Parlance.Pattern.Factor
import Parlance.Pattern.Parse
import Parlance.Pattern.Property
import Parlance.Pattern.Trait
import Parlance.Pattern.Weight
import Parlance.Rows.Load
import Parlance.Rows.Shape
import Parlance.Span
import Parlance.Text.Age
import Parlance.Text.CaseFold
import Parlance.Text.CaseMap
import Parlance.Text.Category
import Parlance.Text.Digit
import Parlance.Text.Intervals
import Parlance.Text.Property
import Parlance.Text.Quoted
import Parlance.Text.RunTable
import Parlance.Text.Script
import Parlance.Value.Basic
import Parlance.Value.Json
import Parlance.Value.Operation
import Parlance.ValueType
import Parlance.Proofs.Step
import Parlance.Proofs.Trace
import Parlance.Proofs.Conservation
import Parlance.Proofs.Links
import Parlance.Proofs.Soundness
import Parlance.Proofs.Precedence
import Parlance.Proofs.Segment
import Parlance.Proofs.Reading
import Parlance.Proofs.Acceptance
import Parlance.Proofs.Operations
import Parlance.Proofs.Coercion
import Parlance.Proofs.Evaluation
import Parlance.Proofs.Scanning
import Parlance.Proofs.Scopes
import Parlance.Proofs.Layers
import Parlance.Proofs.Builders
import Parlance.Proofs.Panics
import Parlance.Proofs.Outcomes
import Parlance.Proofs.Visibility
import Parlance.Proofs.Matches
import Parlance.Proofs.Transparency
import Parlance.Proofs.Decimals
import Parlance.Proofs.Decoding
import Parlance.Proofs.Literals
import Parlance.Proofs.Shapes
import Parlance.Proofs.Merging
import Parlance.Proofs.Loading
import Parlance.Proofs.Environment
import Parlance.Proofs.Nesting
import Parlance.Proofs.Overlap
import Parlance.Proofs.Overloads
import Parlance.Proofs.Reductions
import Parlance.Proofs.Sides
import Parlance.Proofs.Hulls
import Parlance.Proofs.Guards
import Parlance.Proofs.Safety
import Parlance.Proofs.Cuts
import Parlance.Proofs.Alignment
import Parlance.Proofs.Lexemes
import Parlance.Proofs.FormulaTokens
import Parlance.Proofs.RunTables
import Parlance.Proofs.Junctions
import Parlance.Proofs.Spacing
import Parlance.Proofs.Conversions
import Parlance.Proofs.Folding
import Parlance.Proofs.Bounds
import Parlance.Proofs.RowOrder
import Parlance.Proofs.Numerals
import Parlance.Proofs.Printing
import Parlance.Proofs.CommonType
import Parlance.Proofs.InPlace
import Parlance.Proofs.Arguments
import Parlance.Proofs.Widening
import Parlance.Proofs.Orders
import Parlance.Proofs.ExactNumbers
import Parlance.Proofs.Narrowing
import Parlance.Proofs.WholeArithmetic
import Parlance.Proofs.TruthValues
import Parlance.Proofs.Duality
import Parlance.Proofs.Constancy
import Parlance.Proofs.Comparisons
import Parlance.Proofs.Complement
import Parlance.Proofs.Consistency
import Parlance.Proofs.QuotedText
import Parlance.Proofs.Symbols
import Parlance.Proofs.CivilDays
import Parlance.Proofs.Digits
import Parlance.Proofs.Timestamps
import Parlance.Proofs.RoundTrip
import Parlance.Proofs.Blame
import Parlance.Proofs.Labels
