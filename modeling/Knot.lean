import Knot.Main
import Knot.Proofs.Journal.Lexical
import Knot.Proofs.Journal.OwnFrame
import Knot.Proofs.Journal.Access
import Knot.Proofs.Calls.Failure
import Knot.Proofs.Calls.Substitution
import Knot.Proofs.Calls.Order
import Knot.Proofs.Checks.Interleaving
import Knot.Proofs.Effects.Conservation
import Knot.Proofs.Checks.Integers
import Knot.Proofs.Checks.Data
import Knot.Proofs.Grids.Tabulation
import Knot.Proofs.Settings.Loading
import Knot.Proofs.Settings.Keeping
import Knot.Proofs.Demo.CalculusRecursion
import Knot.Proofs.Demo.Checking
import Knot.Proofs.Demo.BlownStack
import Knot.Proofs.Demo.Repetition
import Knot.Proofs.FixedPoints.Counting
import Knot.Proofs.Recursion.Renditions
import Knot.Proofs.Recursion.Cost
import Knot.Proofs.Recursion.Laziness
import Knot.Proofs.Grids.Words
import Knot.Proofs.Hygiene.Tandem
import Knot.Proofs.Hygiene.Capture
import Knot.Proofs.FixedPoints.DirectStyle
import Knot.Proofs.Settings.Foreign
import Knot.Proofs.Tracing.Transparency
import Knot.Proofs.FixedPoints.DirectRecursion
