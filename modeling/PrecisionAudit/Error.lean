import PrecisionAudit.Device.Error
import PrecisionAudit.Reference.Function
import PrecisionAudit.Requirement.Kind

/-!
# Audit failures

The causes for which an audit cannot be carried out: names that are not known, counts that do not fit, values and
configurations that are refused. A result that misses its requirement is no failure but a verdict.

* `AuditError`: the causes.
* `AuditError.message`, `AuditError.code`, `AuditError.help?`: how a cause is reported.
-/

namespace PrecisionAudit

/-- Which sequence has the wrong length. -/
inductive LengthSubject
  | ulpBounds
  | caseArgs
  | caseReference
  deriving DecidableEq, Repr, Inhabited

def LengthSubject.name : LengthSubject → String
  | ulpBounds => "ulp bounds"
  | caseArgs => "case args"
  | caseReference => "case reference"

/-- Why a configuration is refused. -/
inductive ConfigFault
  /-- The text is no document, or the document has not the expected shape. -/
  | malformed
  /-- A tolerance is negative or NaN. -/
  | negativeTolerance (key : String) (value : Double)
  deriving DecidableEq, Repr

def ConfigFault.message : ConfigFault → String
  | malformed => "TOML"
  | negativeTolerance key value =>
    let shown := value.decimalText
    s!"`{key}` must be a non-negative number, found {shown}"

/-- Why an audit cannot be carried out. -/
inductive AuditError
  | unknownRequirement (kind : String)
  | missingBound (kind : RequirementKind) (field : BoundField)
  | requirementCount (lanes found : Nat)
  | lengthMismatch (subject : LengthSubject) (expected found : Nat)
  | unknownFunction (name : String)
  | unknownPrecision (name : String)
  | unknownType (function : MathFunction) (precision : Precision)
  | arity (function : MathFunction) (found : Nat)
  | invalidValue (value reason : String)
  | config (fault : ConfigFault)
  | unreadable (path : String)
  | device (error : DeviceError)
  deriving DecidableEq, Repr

namespace AuditError

/-- The wording of a failure. -/
def message : AuditError → String
  | unknownRequirement kind => s!"Unknown precision requirement `{kind}`"
  | missingBound kind field => s!"Requirement `{kind.name}` needs a `{field.name}` value"
  | requirementCount lanes found => s!"Expected 1 or {lanes} requirements, found {found}"
  | lengthMismatch subject expected found => s!"Length mismatch for {subject.name}: expected {expected}, found {found}"
  | unknownFunction name => s!"Unknown math function `{name}`"
  | unknownPrecision name => s!"Unknown float type `{name}`"
  | unknownType function precision => s!"No reference for `{function.name}` in {precision.name}"
  | arity function found => s!"`{function.name}` takes {function.arity} argument(s), found {found}"
  | invalidValue value reason => s!"Invalid value `{value}`: {reason}"
  | config fault => s!"Invalid configuration: {fault.message}"
  | unreadable path => s!"Failed to read `{path}`"
  | device error => error.message

/-- The stable code of a failure. -/
def code : AuditError → String
  | unknownRequirement _ => "check::unknown_requirement"
  | missingBound .. => "check::missing_bound"
  | requirementCount .. => "check::requirement_count"
  | lengthMismatch .. => "check::length_mismatch"
  | unknownFunction _ => "check::unknown_function"
  | unknownPrecision _ => "check::unknown_float_type"
  | unknownType .. => "check::unknown_type"
  | arity .. => "check::arity"
  | invalidValue .. => "check::invalid_value"
  | config _ => "check::config"
  | unreadable _ => "check::io"
  | device _ => "check::runtime"

/-- What a user can do about a failure. -/
def help? : AuditError → Option String
  | unknownRequirement _ => some "expected one of: error_value, ulp_value, value_range, any, undefined"
  | requirementCount .. => some "pass a single requirement to apply it to every lane"
  | unknownPrecision _ => some "expected one of: half, bfloat, tfloat, float, double"
  | _ => none

end AuditError

/-- Reads a precision, or says which name is unknown. -/
def Precision.read (text : String) : Except AuditError Precision :=
  match Precision.parse? text with
  | some p => .ok p
  | none => .error (.unknownPrecision text)

/-- Reads a rounding mode, or says what was expected. -/
def RoundingMode.read (text : String) : Except AuditError RoundingMode :=
  match RoundingMode.parse? text with
  | some mode => .ok mode
  | none => .error (.invalidValue text "expected nearest-even, toward-zero, upward or downward")

/-- Reads the kind of a requirement, or says which name is unknown. -/
def RequirementKind.read (text : String) : Except AuditError RequirementKind :=
  match RequirementKind.parse? text with
  | some kind => .ok kind
  | none => .error (.unknownRequirement text)

/-- Finds a reference function, or says which name is unknown. -/
def MathFunction.read (text : String) : Except AuditError MathFunction :=
  match MathFunction.parse? text with
  | some function => .ok function
  | none => .error (.unknownFunction text)

end PrecisionAudit
