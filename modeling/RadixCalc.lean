import RadixCalc.Screen
import RadixCalc.Solve.Bisection
import RadixCalc.Solve.Brent
import RadixCalc.Solve.Newton
import RadixCalc.Proofs.Listing
import RadixCalc.Proofs.Precedence
import RadixCalc.Proofs.Cutting
import RadixCalc.Proofs.Pieces
import RadixCalc.Proofs.Acceptance
import RadixCalc.Proofs.Isolation
import RadixCalc.Proofs.Operands
import RadixCalc.Proofs.Conservation
import RadixCalc.Proofs.Line
import RadixCalc.Proofs.Powers
import RadixCalc.Proofs.Composition
import RadixCalc.Proofs.Recovery
import RadixCalc.Proofs.Assignment
import RadixCalc.Proofs.FailedLine
import RadixCalc.Proofs.Rounding
import RadixCalc.Proofs.Tangent
import RadixCalc.Proofs.Descent
import RadixCalc.Proofs.Digits
import RadixCalc.Proofs.RoundTrip
import RadixCalc.Proofs.Numerals
import RadixCalc.Proofs.Convergence
import RadixCalc.Proofs.PowerStart
import RadixCalc.Proofs.GridRoots
import RadixCalc.Proofs.InverseRoots
import RadixCalc.Proofs.Bracket
import RadixCalc.Proofs.Divisions
import RadixCalc.Proofs.BestPoint
import RadixCalc.Proofs.Halving
import RadixCalc.Proofs.NewtonSteps
import RadixCalc.Proofs.Tolerance
import RadixCalc.Proofs.Session
import RadixCalc.Proofs.Words
import RadixCalc.Proofs.Pasting
import RadixCalc.Proofs.Persistence
import RadixCalc.Proofs.Quotients
import RadixCalc.Proofs.Places
import RadixCalc.Proofs.WholeNumerals
import RadixCalc.Proofs.Canonical
import RadixCalc.Proofs.Precision
import RadixCalc.Proofs.SmallLetters
import RadixCalc.Proofs.RadixLines
import RadixCalc.Proofs.Retyping
import RadixCalc.Proofs.OpenParentheses
import RadixCalc.Proofs.Mentions
import RadixCalc.Proofs.Figures
import RadixCalc.Proofs.Log
import RadixCalc.Proofs.Rendering
import RadixCalc.Proofs.Series
import RadixCalc.Proofs.Undoing
