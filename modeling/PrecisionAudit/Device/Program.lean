import PrecisionAudit.Device.Error

/-!
# Program forms

The forms in which the program of a kernel can be handed to a device.
-/

namespace PrecisionAudit

/-- How the program of a kernel is given. -/
inductive ProgramForm
  | source
  | spirv
  deriving DecidableEq, Repr, Inhabited

namespace ProgramForm

def all : List ProgramForm := [source, spirv]

def name : ProgramForm → String
  | source => "source"
  | spirv => "spirv"

end ProgramForm

end PrecisionAudit
