import PrecisionAudit.Comparator.Buffer
import PrecisionAudit.Device.Catalog
import PrecisionAudit.Json.Reader
import PrecisionAudit.Main
import PrecisionAudit.Narrow.Functions
import PrecisionAudit.Proofs.Format.Grid
import PrecisionAudit.Proofs.Rounding.Encoding
import PrecisionAudit.Proofs.Scalar.Fields
import PrecisionAudit.Proofs.Scalar.Value
import PrecisionAudit.Proofs.Rounding.Correct
import PrecisionAudit.Proofs.Scalar.Conversion
import PrecisionAudit.Proofs.Scalar.Narrowing
import PrecisionAudit.Proofs.Scalar.RoundTrip
import PrecisionAudit.Proofs.Narrow.Comparison
import PrecisionAudit.Proofs.Scalar.Steps
import PrecisionAudit.Proofs.Device.Calls
import PrecisionAudit.Proofs.Device.History
import PrecisionAudit.Proofs.Device.Runs
import PrecisionAudit.Proofs.Device.Handles
import PrecisionAudit.Proofs.Device.Contents
import PrecisionAudit.Proofs.Traversal
import PrecisionAudit.Proofs.Comparator.Lanes
import PrecisionAudit.Proofs.Comparator.FirstMismatch
import PrecisionAudit.Proofs.Batch.WellFormed
import PrecisionAudit.Proofs.Batch.Evaluation
import PrecisionAudit.Proofs.Scalar.Integers
import PrecisionAudit.Proofs.Batch.StepBound
import PrecisionAudit.Proofs.Narrow.Padding
import PrecisionAudit.Proofs.Rounding.Nearest
import PrecisionAudit.Proofs.Rounding.Twice
import PrecisionAudit.Proofs.Scalar.Arithmetic
import PrecisionAudit.Proofs.Scalar.ThroughSingle
import PrecisionAudit.Proofs.Narrow.RoundsOnce
import PrecisionAudit.Proofs.Batch.Lookups
import PrecisionAudit.Proofs.Scalar.SharedExponents
import PrecisionAudit.Proofs.Rounding.Integral
import PrecisionAudit.Proofs.Rounding.Words
import PrecisionAudit.Proofs.Narrow.Exactness
import PrecisionAudit.Proofs.Rounding.Roots
import PrecisionAudit.Proofs.Scalar.SquareRoot
import PrecisionAudit.Proofs.Narrow.SquareRoot
import PrecisionAudit.Proofs.Scalar.Stochastic
import PrecisionAudit.Proofs.Scalar.Difference
import PrecisionAudit.Proofs.Requirement.Tolerance
import PrecisionAudit.Proofs.Device.Arguments
import PrecisionAudit.Proofs.Device.Registry
import PrecisionAudit.Proofs.Device.Elements
import PrecisionAudit.Proofs.Device.Tiling
import PrecisionAudit.Proofs.Scalar.ExactWidening
import PrecisionAudit.Proofs.Narrow.IntegerOperands
import PrecisionAudit.Proofs.Comparator.Broadcast
import PrecisionAudit.Proofs.Scalar.NaNs
import PrecisionAudit.Proofs.Reference.WorkingPrecision
import PrecisionAudit.Proofs.Batch.DefaultTolerance
import PrecisionAudit.Proofs.Text.Numerals
import PrecisionAudit.Proofs.Command.Decode
