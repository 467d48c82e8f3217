import PrecisionAudit.Data.Basic
import PrecisionAudit.Device.Program
import PrecisionAudit.Precision
import PrecisionAudit.Reference.Function
import PrecisionAudit.Requirement.Kind

/-!
# Stored numbers and names as structured values

A stored number is written as the integer of its word, a choice as its exact name.
-/

namespace PrecisionAudit

-- a power is that of the core library, whatever other instances are in scope
attribute [local instance (2000)] instPowNat

/-- A stored number from the integer of its word. -/
def Scalar.ofData? (f : Format) (data : Data) : Option (Scalar f) :=
  (data.natBelow? (2 ^ f.storageWidth)).map (Scalar.ofNat f)

def Scalar.toData {f : Format} (x : Scalar f) : Data := .integer x.toNat

def RoundingMode.ofData? (encoding : Encoding) : Data → Option RoundingMode :=
  Data.choice? encoding RoundingMode.name RoundingMode.all

def Precision.ofData? (encoding : Encoding) : Data → Option Precision :=
  Data.choice? encoding Precision.name Precision.all

def RequirementKind.ofData? (encoding : Encoding) : Data → Option RequirementKind :=
  Data.choice? encoding RequirementKind.name RequirementKind.all

def MathFunction.ofData? (encoding : Encoding) : Data → Option MathFunction :=
  Data.choice? encoding MathFunction.name MathFunction.all

def Backend.ofData? (encoding : Encoding) : Data → Option Backend :=
  Data.choice? encoding Backend.name Backend.all

def ProgramForm.ofData? (encoding : Encoding) : Data → Option ProgramForm :=
  Data.choice? encoding ProgramForm.name ProgramForm.all

end PrecisionAudit
