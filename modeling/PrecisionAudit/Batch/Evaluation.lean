import PrecisionAudit.Batch.Case
import PrecisionAudit.Comparator.Lane
import PrecisionAudit.Reference.Value

/-!
# Evaluation of cases

Each case is judged on its own, in the order in which the cases are written, and the first one that makes no sense ends
the whole evaluation.

* `CaseSpec.comparator`: what a case compares, in a precision.
* `CaseSpec.evaluate`: the outcome of a case.
* `CaseFile.evaluate`: the report on all cases.
-/

namespace PrecisionAudit

namespace CaseSpec

/-- The function of a case. -/
def namedFunction (c : CaseSpec) : Except AuditError (Option MathFunction) :=
  match c.function with
  | none => .ok none
  | some name => (MathFunction.read name).map some

/-- The reference as a function gives it, one value for each lane of the candidate. -/
def computedReference (c : CaseSpec) (p : Precision) (fn : MathFunction) : Except AuditError (List p.Value) :=
  if c.args.length ≠ c.candidate.length then
    .error (.lengthMismatch .caseArgs c.candidate.length c.args.length)
  else
    c.args.mapM fun args => fn.reference p (args.map p.ofDouble)

/-- The reference: the one that is written, or else the one that the function gives. -/
def referenceValues (c : CaseSpec) (p : Precision) (fn : Option MathFunction) : Except AuditError (List p.Value) :=
  match c.reference, fn with
  | some written, _ => .ok (written.map p.ofDouble)
  | none, some fn => c.computedReference p fn
  | none, none => .error (.invalidValue c.name "a case needs either `reference` or `function`")

/-- The requirements: those that are written, or else that of the function, or else the default. -/
def requirementList (c : CaseSpec) (p : Precision) (fn : Option MathFunction) (tolerance : Tolerance) :
    Except AuditError (List (Requirement p)) :=
  match c.requirement, c.requirements, fn with
  | some written, _, _ => do return [← written.resolve p]
  | none, first :: rest, _ => (first :: rest).mapM (·.resolve p)
  | none, [], some fn => do return [← fn.requirement p]
  | none, [], none => .ok [tolerance.requirement p]

/-- The candidate in a precision. -/
def candidateLanes (c : CaseSpec) (p : Precision) : Lanes p := .vector (c.candidate.map p.ofDouble)

/-- What a case compares. -/
def comparator (c : CaseSpec) (p : Precision) (tolerance : Tolerance) : Except AuditError (LaneComparator p) := do
  let fn ← c.namedFunction
  let reference ← c.referenceValues p fn
  if reference.length ≠ c.candidate.length then
    throw (.lengthMismatch .caseReference c.candidate.length reference.length)
  let requirements ← c.requirementList p fn tolerance
  let comparator ← LaneComparator.withRequirements (c.candidateLanes p) (.vector reference) requirements
  return comparator.withInputs (c.args.flatten.map Scalar.decimalText)

end CaseSpec

/-- The verdict on a case. -/
structure CaseOutcome where
  name : String
  precision : Precision
  passed : Bool
  /-- What was compared; only a failure is described. -/
  description : Option String
  deriving DecidableEq

/-- The verdict on a case in a precision. -/
def CaseSpec.evaluate (c : CaseSpec) (p : Precision) (tolerance : Tolerance) : Except AuditError CaseOutcome := do
  let comparator ← c.comparator p tolerance
  let passed := comparator.accepts (c.candidateLanes p)
  return ⟨c.name, p, passed, if passed then none else some comparator.describe⟩

/-- The verdicts on a list of cases. -/
structure Report where
  outcomes : List CaseOutcome
  deriving DecidableEq

namespace Report

def total (r : Report) : Nat := r.outcomes.length

def passed (r : Report) : Nat := r.outcomes.countP (·.passed)

def failed (r : Report) : Nat := r.total - r.passed

def allPassed (r : Report) : Bool := r.failed == 0

end Report

/-- The verdicts on all cases. -/
def CaseFile.evaluate (file : CaseFile) (tolerance : Tolerance) : Except AuditError Report := do
  return ⟨← file.cases.mapM fun c => c.evaluate (c.precision.getD file.precision) tolerance⟩

end PrecisionAudit
