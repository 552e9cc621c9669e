import Calculator.Main
import Calculator.Proofs.Grammar
import Calculator.Proofs.Place
import Calculator.Proofs.Ahead
import Calculator.Proofs.Outcome
import Calculator.Proofs.Descent
import Calculator.Proofs.Accepted
import Calculator.Proofs.Scanning
import Calculator.Proofs.ViablePrefix
import Calculator.Proofs.Steps
import Calculator.Proofs.Doubles
import Calculator.Proofs.Decimals
import Calculator.Proofs.RoundTrip
import Calculator.Proofs.Substitution
import Calculator.Proofs.Calls
import Calculator.Proofs.Recursion
import Calculator.Proofs.Segmentation
import Calculator.Proofs.Rounding
import Calculator.Proofs.Reprinting
import Calculator.Proofs.Reuse
import Calculator.Proofs.Evaluation
import Calculator.Proofs.Dialogue
import Calculator.Proofs.WellFormed
import Calculator.Proofs.Options
import Calculator.Proofs.Arguments
import Calculator.Proofs.Invocation
import Calculator.Proofs.Root
import Calculator.Proofs.Expectation
import Calculator.Proofs.Entry
import Calculator.Proofs.Nesting
import Calculator.Proofs.Lookahead
import Calculator.Proofs.Spacing
import Calculator.Proofs.Unambiguous
import Calculator.Proofs.Seams
import Calculator.Proofs.Edits
import Calculator.Proofs.Factors
import Calculator.Proofs.BarPairs
import Calculator.Proofs.Values
import Calculator.Proofs.Formatting
import Calculator.Proofs.Nearest
import Calculator.Proofs.Literals
import Calculator.Proofs.Binding
import Calculator.Proofs.Unbound
import Calculator.Proofs.ByteOrder
import Calculator.Proofs.Changes
import Calculator.Proofs.Budget
