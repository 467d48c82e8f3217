import PrecisionAudit.Comparator.Lanes
import PrecisionAudit.Requirement.Check

/-!
# Comparison under requirements

A lane comparator holds a candidate, a reference and either one requirement for every lane or one for each. Lanes
and requirements are looked up by number, and a look-up outside of them makes the whole answer `none`: the
functions with a question mark show it, the plain ones do not.

* `LaneComparator.new`, `LaneComparator.withRequirements`, `LaneComparator.withInputs`.
* `LaneComparator.accepts`: whether a candidate satisfies the requirements.
* `LaneComparator.describe`: the report on the stored candidate.
-/

namespace PrecisionAudit

/-- A candidate to be judged against a reference. -/
structure LaneComparator (p : Precision) where
  candidate : Lanes p
  reference : Lanes p
  requirements : List (Requirement p)
  /-- The inputs of the computation, as they are shown. -/
  inputs : List String

namespace LaneComparator

variable {p : Precision}

/-- One requirement for every lane. -/
def new (candidate reference : Lanes p) (requirement : Requirement p) : LaneComparator p :=
  ⟨candidate, reference, [requirement], []⟩

/-- One requirement for every lane, or one for each lane of the reference. -/
def withRequirements (candidate reference : Lanes p) (requirements : List (Requirement p)) :
    Except AuditError (LaneComparator p) :=
  if requirements.length ≠ 1 ∧ requirements.length ≠ reference.width then
    .error (.requirementCount reference.width requirements.length)
  else
    .ok ⟨candidate, reference, requirements, []⟩

def withInputs (c : LaneComparator p) (inputs : List String) : LaneComparator p := { c with inputs := inputs }

/-- The requirement of a lane. -/
def requirement? (c : LaneComparator p) (lane : Nat) : Option (Requirement p) :=
  if c.requirements.length = 1 then c.requirements[0]? else c.requirements[lane]?

/-! ## The verdict -/

/-- The verdict on one lane of a candidate. -/
def checkLane? (c : LaneComparator p) (candidate : Lanes p) (lane : Nat) : Option Bool := do
  let requirement ← c.requirement? lane
  let value ← candidate.lane? lane
  let reference ← c.reference.lane? lane
  return requirement.check value reference

/-- The verdict on a candidate: it has the reference's lanes and each satisfies its requirement. -/
def accepts? (c : LaneComparator p) (candidate : Lanes p) : Option Bool :=
  if candidate.width ≠ c.reference.width then
    some false
  else
    (List.range c.reference.width).allM (c.checkLane? candidate)

/-- Whether a candidate satisfies the requirements. -/
def accepts (c : LaneComparator p) (candidate : Lanes p) : Bool := (c.accepts? candidate).getD false

/-! ## The report -/

/-- What a requirement asks of a lane, together with the distance that was reached. Only a bound in steps looks the
candidate up, and only if the candidate has the lane. -/
def requirementText? (candidate : Lanes p) (lane : Nat) (reference : p.Value) : Requirement p → Option String
  | .errorValue bound => some (" Absolute error within " ++ p.text bound)
  | .ulpValue bound => do
    let value ← candidate.guardedLane? (lane < candidate.width) lane
    let reached := match value.bind (·.distance? reference) with
      | some steps => toString steps
      | none => "n/a"
    return " ULP error " ++ reached ++ " within " ++ p.text bound
  | .valueRange min max => some (" In range " ++ braced [p.text min, p.text max])
  | .any => some " Any value pass"
  | .undefined => some " Requirement undefined"

/-- The two lines on a lane of the reference. -/
def laneLines? (c : LaneComparator p) (lane : Nat) : Option (List String) := do
  let reference ← c.reference.lane? lane
  let requirement ← c.requirement? lane
  let label := if c.reference.isVector then s!"Reference[{lane}]: " else "Reference: "
  let asked ← requirementText? c.candidate lane reference requirement
  return [label ++ p.text reference, asked]

/-- All lines of the report. -/
def describe? (c : LaneComparator p) : Option String := do
  let lanes ← (List.range c.reference.width).mapM c.laneLines?
  let result ← c.candidate.text?
  let inputs := if c.inputs.isEmpty then "None" else commaSeparated c.inputs
  return "\n".intercalate (lanes.flatten ++ ["Result: " ++ result, "Inputs: " ++ inputs])

/-- The report on the stored candidate. -/
def describe (c : LaneComparator p) : String := c.describe?.getD ""

end LaneComparator

end PrecisionAudit
