import PrecisionAudit.Device.Kernel
import PrecisionAudit.Text.Quoted

/-!
# The simulated device

The device holds buffers and kernels under numbers that it never gives out twice. Kernels are made from bodies that are
registered by name; a kernel keeps the body that its name had when it was made.

Each operation returns its result and the device after it. An operation that fails before a kernel's body is entered
leaves the device as it was.

* `HostDevice.createBuffer`, `HostDevice.writeBuffer`, `HostDevice.readBuffer`, `HostDevice.releaseBuffer`.
* `HostDevice.register`, `HostDevice.createKernel`, `HostDevice.setArgument`, `HostDevice.releaseKernel`.
* `HostDevice.run`: a run of a kernel over a grid.
-/

namespace PrecisionAudit

/-- A kernel on the device. -/
structure KernelInstance where
  name : String
  body : Kernel
  /-- The arguments by position; some may not have been set. -/
  arguments : List (Option KernelArgument)

/-- The state of the device. -/
structure HostDevice where
  registry : Keyed String Kernel
  buffers : Buffers
  kernels : Keyed Nat KernelInstance
  /-- The number of the next buffer or kernel. -/
  nextId : Nat

/-- The result of an operation, with the device after it. -/
abbrev HostDevice.Outcome (α : Type) := Except DeviceError α × HostDevice

namespace HostDevice

/-- The device before any operation. -/
def fresh : HostDevice := ⟨[], [], [], 1⟩

/-- Opens a device by its number; there is one only. -/
def open? (device : Nat) : Except DeviceError HostDevice :=
  if device = 0 then .ok fresh else .error (.deviceNotFound device)

def info (_ : HostDevice) : DeviceInfo := .simulated

/-- The number of buffers that have not been released. -/
def liveBuffers (d : HostDevice) : Nat := d.buffers.length

/-! ## Buffers -/

/-- Makes a buffer of so many zero bytes. -/
def createBuffer (d : HostDevice) (size : Nat) : Outcome BufferHandle :=
  if size = 0 then
    (.error .invalidSize, d)
  else
    (.ok ⟨d.nextId, size⟩,
      { d with buffers := d.buffers ++ [(d.nextId, List.replicate size 0)], nextId := d.nextId + 1 })

/-- Makes a buffer for so many elements. -/
def createBufferFor (d : HostDevice) (e : Element) (count : Nat) : Outcome BufferHandle :=
  match e.byteLength count with
  | .ok size => d.createBuffer size
  | .error error => (.error error, d)

/-- The bytes of a buffer. -/
def readBuffer (d : HostDevice) (handle : BufferHandle) : Except DeviceError (List UInt8) := d.buffers.bytes handle.id

/-- The elements of a buffer. -/
def readElements (d : HostDevice) (handle : BufferHandle) (e : Element) : Except DeviceError (List e.Word) := do
  e.decode (← d.readBuffer handle)

/-- Replaces all bytes of a buffer. -/
def writeBuffer (d : HostDevice) (handle : BufferHandle) (bytes : List UInt8) : Outcome Unit :=
  match d.buffers.bytes handle.id with
  | .error error => (.error error, d)
  | .ok old =>
    match d.buffers.replace handle.id old bytes with
    | .error error => (.error error, d)
    | .ok buffers => (.ok (), { d with buffers := buffers })

/-- Replaces all elements of a buffer. -/
def writeElements (d : HostDevice) (handle : BufferHandle) (e : Element) (words : List e.Word) : Outcome Unit :=
  match e.encode words with
  | .ok bytes => d.writeBuffer handle bytes
  | .error error => (.error error, d)

def releaseBuffer (d : HostDevice) (handle : BufferHandle) : Outcome Unit :=
  match d.buffers.get? handle.id with
  | some _ => (.ok (), { d with buffers := d.buffers.erase handle.id })
  | none => (.error (.unknownBuffer handle.id), d)

/-! ## Kernels -/

/-- Registers a body under a name, in the place of the body that the name had before. -/
def register (d : HostDevice) (name : String) (body : Kernel) : HostDevice :=
  { d with registry := d.registry.set name body }

/-- The registered names, in the order in which they were registered first. -/
def kernelNames (d : HostDevice) : List String := d.registry.keys

/-- Makes a kernel from the body that is registered under a name. -/
def createKernel (d : HostDevice) (name : String) : Outcome KernelHandle :=
  match d.registry.get? name with
  | none => (.error (.kernelBuildFailed name "no host kernel registered under this name"), d)
  | some body =>
    (.ok ⟨d.nextId, name⟩,
      { d with kernels := d.kernels ++ [(d.nextId, ⟨name, body, []⟩)], nextId := d.nextId + 1 })

/-- Binds an argument at a position; positions before it that have not been bound stay empty. -/
def bindArgument (arguments : List (Option KernelArgument)) (index : Nat) (argument : KernelArgument) :
    List (Option KernelArgument) :=
  (arguments ++ List.replicate (index + 1 - arguments.length) none).set index (some argument)

/-- The buffer that an argument names, if it does not exist. -/
def missingBuffer? (d : HostDevice) : KernelArgument → Option Nat
  | .buffer handle => if (d.buffers.get? handle.id).isSome then none else some handle.id
  | _ => none

/-- Binds an argument of a kernel. A buffer must exist. -/
def setArgument (d : HostDevice) (handle : KernelHandle) (index : Nat) (argument : KernelArgument) : Outcome Unit :=
  match d.missingBuffer? argument, d.kernels.get? handle.id with
  | some id, _ => (.error (.unknownBuffer id), d)
  | none, none => (.error (.unknownKernel handle.id), d)
  | none, some kernel =>
    let changed := { kernel with arguments := bindArgument kernel.arguments index argument }
    (.ok (), { d with kernels := d.kernels.set handle.id changed })

def releaseKernel (d : HostDevice) (handle : KernelHandle) : Outcome Unit :=
  match d.kernels.get? handle.id with
  | some _ => (.ok (), { d with kernels := d.kernels.erase handle.id })
  | none => (.error (.unknownKernel handle.id), d)

/-! ## Runs -/

/-- The arguments from a position on, all of which must have been set. -/
def completeFrom (kernel : String) : Nat → List (Option KernelArgument) → Except DeviceError (List KernelArgument)
  | _, [] => .ok []
  | index, none :: _ => .error (.missingArgument kernel index)
  | index, some argument :: rest => do return argument :: (← completeFrom kernel (index + 1) rest)

/-- What a run needs: a launch that is possible, a kernel that exists and all of its arguments. -/
def prepare (d : HostDevice) (handle : KernelHandle) (launch : Launch) : Except DeviceError (Kernel × Binding) := do
  launch.validate d.info
  match d.kernels.get? handle.id with
  | none => throw (.unknownKernel handle.id)
  | some kernel => return (kernel.body, ⟨handle.name, ← completeFrom kernel.name 0 kernel.arguments⟩)

/-- Runs a kernel over a grid. -/
def run (d : HostDevice) (handle : KernelHandle) (launch : Launch) : Outcome Unit :=
  match d.prepare handle launch with
  | .error error => (.error error, d)
  | .ok (body, binding) =>
    let (result, buffers) := (body launch).run binding d.buffers
    (result, { d with buffers := buffers })

/-! ## Views -/

/-- The properties of the device with the names that are registered and the numbers of buffers and kernels. -/
def summary (d : HostDevice) : String :=
  let names := "[" ++ ", ".intercalate (d.kernelNames.map quoted) ++ "]"
  "HostRuntime \x7b device_info: DeviceInfo \x7b name: " ++ quoted d.info.name
    ++ ", max_work_group_size: " ++ toString d.info.maxGroupSize
    ++ ", global_memory: " ++ toString d.info.globalMemory
    ++ " \x7d, registered: " ++ names
    ++ ", buffers: " ++ toString d.buffers.length
    ++ ", kernels: " ++ toString d.kernels.length ++ " \x7d"

end HostDevice

end PrecisionAudit
