import PrecisionAudit.Batch.Document
import PrecisionAudit.Device.Host

/-!
# Configuration

A configuration chooses the device, the tolerance for cases without a requirement and the form of reports. Whatever it
leaves out has a default.

* `Config.read`: the configuration that a TOML text describes.
* `Config.check`: the tolerances must not be negative.
-/

namespace PrecisionAudit

-- a power is that of the core library, whatever other instances are in scope
attribute [local instance (2000)] instPowNat

/-- Which device is used. -/
structure DeviceChoice where
  backend : Backend
  device : Nat
  deriving DecidableEq, Repr

/-- The simulated device. -/
def DeviceChoice.host : DeviceChoice := ⟨.host, 0⟩

/-- Opens the device; only the simulated one is available. -/
def DeviceChoice.open? (choice : DeviceChoice) : Except DeviceError HostDevice :=
  match choice.backend with
  | .host => HostDevice.open? choice.device
  | backend => .error (.unsupportedBackend backend)

/-- How reports are written. -/
structure ReportStyle where
  json : Bool
  deriving DecidableEq, Repr

structure Config where
  runtime : DeviceChoice
  tolerance : Tolerance
  report : ReportStyle
  deriving DecidableEq

/-- The configuration of an empty text. -/
def Config.standard : Config := ⟨.host, .zero, ⟨false⟩⟩

/-! ## Structured values -/

def DeviceChoice.ofData? (encoding : Encoding) (data : Data) : Option DeviceChoice := do
  let fields ← data.record? encoding ["backend", "device"]
  return {
    backend := ← Data.fieldOr? .host (Backend.ofData? encoding) "backend" fields
    device := ← Data.fieldOr? 0 (Data.natBelow? (2 ^ (32 : Nat))) "device" fields }

def DeviceChoice.toData (choice : DeviceChoice) : Data :=
  .table [("backend", .text choice.backend.name), ("device", .integer choice.device)]

def ReportStyle.ofData? (encoding : Encoding) (data : Data) : Option ReportStyle := do
  let fields ← data.record? encoding ["json"]
  return { json := ← Data.fieldOr? false Data.bool? "json" fields }

def ReportStyle.toData (style : ReportStyle) : Data := .table [("json", .bool style.json)]

def Tolerance.ofData? (encoding : Encoding) (data : Data) : Option Tolerance := do
  let fields ← data.record? encoding ["default_ulp", "default_error"]
  return {
    steps := ← Data.fieldOr? (.zero _) Data.double? "default_ulp" fields
    error := ← Data.fieldOr? (.zero _) Data.double? "default_error" fields }

def Config.ofData? (encoding : Encoding) (data : Data) : Option Config := do
  let fields ← data.record? encoding ["runtime", "tolerance", "report"]
  return {
    runtime := ← Data.fieldOr? .host (DeviceChoice.ofData? encoding) "runtime" fields
    tolerance := ← Data.fieldOr? .zero (Tolerance.ofData? encoding) "tolerance" fields
    report := ← Data.fieldOr? ⟨false⟩ (ReportStyle.ofData? encoding) "report" fields }

/-! ## Validation -/

/-- Whether a tolerance makes sense: it is neither NaN nor below zero. -/
def isTolerance (x : Double) : Bool := !x.isNaN && !x.numLt (.zero .double)

/-- Refuses a tolerance that makes no sense; the steps are looked at before the error. -/
def Config.check (config : Config) : Except AuditError Unit :=
  if !isTolerance config.tolerance.steps then
    .error (.config (.negativeTolerance "tolerance.default_ulp" config.tolerance.steps))
  else if !isTolerance config.tolerance.error then
    .error (.config (.negativeTolerance "tolerance.default_error" config.tolerance.error))
  else
    .ok ()

/-- The configuration that a TOML text describes. -/
def Config.read (text : String) : Except AuditError Config :=
  match (Toml.parse? text).bind (Config.ofData? .toml) with
  | some config => do
    config.check
    return config
  | none => .error (.config .malformed)

end PrecisionAudit
