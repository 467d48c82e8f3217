import PrecisionAudit.Requirement.Check

/-!
# Cases

A case file lists results together with what they are judged by. Numbers are written in double precision and brought
into the precision in which the case is judged.

* `RequirementSpec`: a requirement as it is written, `RequirementSpec.resolve` its meaning in a precision.
* `CaseSpec`, `CaseFile`.
* `Tolerance`: what is required where a case says nothing.
-/

namespace PrecisionAudit

/-- A requirement as it is written. -/
structure RequirementSpec where
  kind : String
  value : Option Double
  value2 : Option Double
  deriving DecidableEq

/-- The requirement in a precision. -/
def RequirementSpec.resolve (p : Precision) (spec : RequirementSpec) : Except AuditError (Requirement p) := do
  let kind ← RequirementKind.read spec.kind
  Requirement.ofParts kind (spec.value.map p.ofDouble) (spec.value2.map p.ofDouble)

/-- A result and how to judge it. -/
structure CaseSpec where
  name : String
  /-- The precision of this case, if it is not that of the file. -/
  precision : Option Precision
  candidate : List Double
  reference : Option (List Double)
  /-- The name of the function that gives the reference where none is written. -/
  function : Option String
  /-- The arguments of the function, lane by lane. -/
  args : List (List Double)
  requirement : Option RequirementSpec
  requirements : List RequirementSpec
  deriving DecidableEq

/-- A list of cases and the precision in which they are judged. -/
structure CaseFile where
  precision : Precision
  cases : List CaseSpec
  deriving DecidableEq

/-- What is required of a case that has neither a requirement nor a function. -/
structure Tolerance where
  /-- A number of representable steps. -/
  steps : Double
  /-- An absolute error, which takes precedence if it is positive. -/
  error : Double
  deriving DecidableEq

namespace Tolerance

/-- No tolerance at all. -/
def zero : Tolerance := ⟨.zero _, .zero _⟩

/-- The requirement in a precision. -/
def requirement (t : Tolerance) (p : Precision) : Requirement p :=
  if (Scalar.zero .double).numLt t.error then .errorValue (p.ofDouble t.error) else .ulpValue (p.ofDouble t.steps)

end Tolerance

end PrecisionAudit
