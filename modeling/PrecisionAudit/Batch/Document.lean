import PrecisionAudit.Batch.Evaluation
import PrecisionAudit.Data.Named
import PrecisionAudit.Toml.Reader

/-!
# Case files and reports as structured values

* `CaseFile.read`: the case file that a TOML text describes.
* `Report.toData`: a report as a structured value.
-/

namespace PrecisionAudit

/-- A written requirement. -/
def RequirementSpec.ofData? (encoding : Encoding) (data : Data) : Option RequirementSpec := do
  let fields ← data.record? encoding ["kind", "value", "value2"]
  return {
    kind := ← Data.field? Data.text? "kind" fields
    value := ← Data.fieldOr? none (Data.optional? Data.double?) "value" fields
    value2 := ← Data.fieldOr? none (Data.optional? Data.double?) "value2" fields }

/-- A case; whatever it leaves out is empty. -/
def CaseSpec.ofData? (encoding : Encoding) (data : Data) : Option CaseSpec := do
  let fields ← data.record? encoding
    ["name", "precision", "candidate", "reference", "function", "args", "requirement", "requirements"]
  let doubles := Data.list? Data.double?
  let requirement := RequirementSpec.ofData? encoding
  return {
    name := ← Data.fieldOr? "" Data.text? "name" fields
    precision := ← Data.fieldOr? none (Data.optional? (Precision.ofData? encoding)) "precision" fields
    candidate := ← Data.fieldOr? [] doubles "candidate" fields
    reference := ← Data.fieldOr? none (Data.optional? doubles) "reference" fields
    function := ← Data.fieldOr? none (Data.optional? Data.text?) "function" fields
    args := ← Data.fieldOr? [] (Data.list? doubles) "args" fields
    requirement := ← Data.fieldOr? none (Data.optional? requirement) "requirement" fields
    requirements := ← Data.fieldOr? [] (Data.list? requirement) "requirements" fields }

/-- A case file; its precision is single precision unless it says otherwise. -/
def CaseFile.ofData? (encoding : Encoding) (data : Data) : Option CaseFile := do
  let fields ← data.record? encoding ["precision", "case"]
  return {
    precision := ← Data.fieldOr? .single (Precision.ofData? encoding) "precision" fields
    cases := ← Data.fieldOr? [] (Data.list? (CaseSpec.ofData? encoding)) "case" fields }

/-- The case file that a TOML text describes. -/
def CaseFile.read (text : String) : Except AuditError CaseFile :=
  match (Toml.parse? text).bind (CaseFile.ofData? .toml) with
  | some file => .ok file
  | none => .error (.config .malformed)

/-- An outcome as a structured value. -/
def CaseOutcome.toData (outcome : CaseOutcome) : Data :=
  let description := match outcome.description with
    | some text => [("description", Data.text text)]
    | none => []
  .table ([("name", .text outcome.name), ("precision", .text outcome.precision.name),
    ("passed", .bool outcome.passed)] ++ description)

/-- A report as a structured value. -/
def Report.toData (report : Report) : Data :=
  .table [("total", .integer report.total), ("passed", .integer report.passed), ("failed", .integer report.failed),
    ("cases", .list (report.outcomes.map CaseOutcome.toData))]

end PrecisionAudit
