/-!
# Device failures

The causes for which an operation on a simulated device fails, each with its wording.
-/

namespace PrecisionAudit

/-- A kind of device. Only the simulated host device is available. -/
inductive Backend
  | host
  | openCl
  | levelZero
  deriving DecidableEq, Repr, Inhabited

namespace Backend

def all : List Backend := [host, openCl, levelZero]

def name : Backend → String
  | host => "host"
  | openCl => "opencl"
  | levelZero => "level_zero"

end Backend

/-- What a kernel argument was expected to be. -/
inductive ArgumentRole
  | buffer
  | scalar
  deriving DecidableEq, Repr, Inhabited

def ArgumentRole.description : ArgumentRole → String
  | buffer => "a buffer"
  | scalar => "a scalar"

/-- Why an operation on a device fails. -/
inductive DeviceError
  | unsupportedBackend (backend : Backend)
  | deviceNotFound (device : Nat)
  | unknownBuffer (id : Nat)
  | unknownKernel (id : Nat)
  | invalidSize
  | sizeMismatch (expected found : Nat)
  | sizeOverflow (count element : Nat)
  | misaligned (size element : Nat)
  | kernelBuildFailed (name reason : String)
  | missingArgument (kernel : String) (index : Nat)
  | argumentType (index : Nat) (expected : ArgumentRole)
  | invalidConfig (reason : String)
  | launchFailed (reason : String)
  deriving DecidableEq, Repr, Inhabited

/-- The wording of a failure. -/
def DeviceError.message : DeviceError → String
  | unsupportedBackend backend => s!"Runtime backend `{backend.name}` is not supported in this build"
  | deviceNotFound device => s!"Device {device} not found"
  | unknownBuffer id => s!"Unknown buffer handle {id}"
  | unknownKernel id => s!"Unknown kernel handle {id}"
  | invalidSize => "Invalid size: buffers must hold at least one byte"
  | sizeMismatch expected found => s!"Buffer holds {expected} bytes, {found} given"
  | sizeOverflow count element => s!"{count} elements of {element} bytes overflow the address space"
  | misaligned size element => s!"{size} bytes is not a whole number of {element}-byte elements"
  | kernelBuildFailed name reason => s!"Failed to build kernel `{name}`: {reason}"
  | missingArgument kernel index => s!"Kernel `{kernel}` argument {index} is not set"
  | argumentType index expected => s!"Kernel argument {index} is not {expected.description}"
  | invalidConfig reason => s!"Invalid launch configuration: {reason}"
  | launchFailed reason => s!"Kernel launch failed: {reason}"

end PrecisionAudit
