import PrecisionAudit.Error

/-!
# Requirements

A requirement says which candidates are acceptable for a reference: those within an absolute error, within a number
of representable steps, or inside a range. Errors and steps are compared in double precision. A NaN reference is met
by a NaN and by nothing else, where the reference matters at all.

* `Requirement.ofParts`: builds a requirement from its kind and its numbers.
* `Requirement.check`: the verdict on one number.
* `Requirement.text`.
-/

namespace PrecisionAudit

/-- What a candidate has to satisfy. -/
inductive Requirement (p : Precision)
  /-- The absolute error is at most the bound. -/
  | errorValue (bound : p.Value)
  /-- The number of representable steps is at most the bound. -/
  | ulpValue (bound : p.Value)
  /-- The candidate lies between the bounds, whatever the reference is. -/
  | valueRange (min max : p.Value)
  | any
  | undefined
  deriving DecidableEq

namespace Requirement

variable {p : Precision}

instance : Inhabited (Requirement p) := ⟨.any⟩

def kind : Requirement p → RequirementKind
  | errorValue _ => .errorValue
  | ulpValue _ => .ulpValue
  | valueRange .. => .valueRange
  | any => .any
  | undefined => .undefined

/-- A number that a kind needs, or the name of the field that lacks it. -/
def need (kind : RequirementKind) (field : BoundField) (value : Option p.Value) : Except AuditError p.Value :=
  match value with
  | some x => .ok x
  | none => .error (.missingBound kind field)

/-- Builds a requirement; numbers that its kind does not use are ignored. -/
def ofParts (kind : RequirementKind) (value value2 : Option p.Value) : Except AuditError (Requirement p) :=
  match kind with
  | .errorValue => return .errorValue (← need kind .value value)
  | .ulpValue => return .ulpValue (← need kind .value value)
  | .valueRange => return .valueRange (← need kind .value value) (← need kind .value2 value2)
  | .any => return .any
  | .undefined => return .undefined

/-- Whether the absolute error, computed in double precision, is within the bound. Equal numbers always are, so
that equal infinities are no error. -/
def withinError (p : Precision) (bound candidate reference : p.Value) : Bool :=
  let (c, r) := (p.toDouble candidate, p.toDouble reference)
  c.numEq r || (c.sub r).abs.numLe (p.toDouble bound)

/-- Whether the number of steps, brought into double precision, is within the bound. -/
def withinSteps (p : Precision) (bound candidate reference : p.Value) : Bool :=
  match candidate.distance? reference with
  | some steps => (Scalar.ofInt .double steps).numLe (p.toDouble bound)
  | none => false

/-- Whether a candidate is acceptable for a reference. -/
def check : Requirement p → p.Value → p.Value → Bool
  | errorValue bound, candidate, reference =>
    if reference.isNaN then candidate.isNaN else withinError p bound candidate reference
  | ulpValue bound, candidate, reference =>
    if reference.isNaN then candidate.isNaN else withinSteps p bound candidate reference
  | valueRange min max, candidate, _ => p.le min candidate && p.le candidate max
  | any, _, _ | undefined, _, _ => true

/-- The requirement as it is shown to a user. -/
def text : Requirement p → String
  | errorValue bound => "error_value(" ++ p.text bound ++ ")"
  | ulpValue bound => "ulp_value(" ++ p.text bound ++ ")"
  | valueRange min max => "value_range(" ++ p.text min ++ ", " ++ p.text max ++ ")"
  | any => "any"
  | undefined => "undefined"

end Requirement

end PrecisionAudit
