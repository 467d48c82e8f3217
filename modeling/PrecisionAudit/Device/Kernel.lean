import PrecisionAudit.Device.Element
import PrecisionAudit.Device.Launch
import PrecisionAudit.Keyed

/-!
# Kernels

The body of a kernel is a sequence of accesses to its arguments and to the buffers bound to them. What it does next may
depend on the outcome of each access, also on its failure.

* `KernelArgument`: what can be bound to a kernel.
* `Access`: the sequences of accesses, a monad that ends with the first failure.
* `Access.run`: the effect of a sequence on the buffers; `Access.run_bind` says that sequences run one after another.
-/

namespace PrecisionAudit

/-- Names a buffer of a device. -/
structure BufferHandle where
  id : Nat
  /-- The number of bytes. -/
  size : Nat
  deriving DecidableEq, Repr, Inhabited

/-- Names a kernel of a device. -/
structure KernelHandle where
  id : Nat
  name : String
  deriving DecidableEq, Repr, Inhabited

/-- An argument of a kernel. -/
inductive KernelArgument
  | buffer (handle : BufferHandle)
  | int32 (value : BitVec 32)
  | int64 (value : BitVec 64)
  | uint32 (value : BitVec 32)
  | uint64 (value : BitVec 64)
  | single (value : BitVec 32)
  | double (value : BitVec 64)
  /-- The bytes of any other number. -/
  | bytes (value : List UInt8)
  deriving DecidableEq

namespace KernelArgument

/-- An element as an argument. -/
def scalar (e : Element) (word : e.Word) : KernelArgument := .bytes (e.bytes word)

/-- The bytes of an argument that is no buffer. -/
def scalarBytes? : KernelArgument → Option (List UInt8)
  | buffer _ => none
  | int32 v | uint32 v | single v => some (littleEndian 4 v.toNat)
  | int64 v | uint64 v | double v => some (littleEndian 8 v.toNat)
  | bytes b => some b

end KernelArgument

/-! ## Sequences of accesses -/

/-- A sequence of accesses with a result; what follows an access depends on its outcome. -/
inductive Access (α : Type) : Type
  | finish (result : Except DeviceError α)
  | argument (index : Nat) (next : Except DeviceError KernelArgument → Access α)
  | scalar (index : Nat) (e : Element) (next : Except DeviceError e.Word → Access α)
  | read (index : Nat) (e : Element) (next : Except DeviceError (List e.Word) → Access α)
  | write (index : Nat) (e : Element) (words : List e.Word) (next : Except DeviceError Unit → Access α)

namespace Access

variable {α β : Type}

/-- One sequence after another; the second is left out if the first fails. -/
def bind (first : Access α) (rest : α → Access β) : Access β :=
  match first with
  | finish (.ok a) => rest a
  | finish (.error e) => finish (.error e)
  | argument index next => argument index fun outcome => (next outcome).bind rest
  | scalar index e next => scalar index e fun outcome => (next outcome).bind rest
  | read index e next => read index e fun outcome => (next outcome).bind rest
  | write index e words next => write index e words fun outcome => (next outcome).bind rest

instance : Monad Access where
  pure a := finish (.ok a)
  bind := bind

/-- Ends with a failure. -/
def fail (error : DeviceError) : Access α := finish (.error error)

/-- An argument. -/
def getArgument (index : Nat) : Access KernelArgument := argument index finish

/-- An argument as an element. -/
def getScalar (index : Nat) (e : Element) : Access e.Word := scalar index e finish

/-- The elements of the buffer bound to an argument. -/
def getElements (index : Nat) (e : Element) : Access (List e.Word) := read index e finish

/-- Replaces all elements of the buffer bound to an argument. -/
def putElements (index : Nat) (e : Element) (words : List e.Word) : Access Unit := write index e words finish

end Access

/-- A kernel: what it does for a launch. -/
abbrev Kernel := Launch → Access Unit

/-! ## Effects -/

/-- The bytes of the buffers by their numbers. -/
abbrev Buffers := Keyed Nat (List UInt8)

/-- What a run of a kernel sees besides the buffers. -/
structure Binding where
  /-- The name of the kernel. -/
  kernel : String
  arguments : List KernelArgument

namespace Binding

/-- The argument at a position. -/
def argument (b : Binding) (index : Nat) : Except DeviceError KernelArgument :=
  match b.arguments[index]? with
  | some argument => .ok argument
  | none => .error (.missingArgument b.kernel index)

/-- The buffer bound at a position. -/
def buffer (b : Binding) (index : Nat) : Except DeviceError Nat := do
  match ← b.argument index with
  | .buffer handle => return handle.id
  | _ => throw (.argumentType index .buffer)

/-- The element bound at a position. -/
def scalar (b : Binding) (index : Nat) (e : Element) : Except DeviceError e.Word := do
  match (← b.argument index).scalarBytes? with
  | none => throw (.argumentType index .scalar)
  | some bytes => if bytes.length ≠ e.size then throw (.sizeMismatch e.size bytes.length) else return e.ofBytes bytes

end Binding

namespace Buffers

/-- The bytes of a buffer. -/
def bytes (buffers : Buffers) (id : Nat) : Except DeviceError (List UInt8) :=
  match buffers.get? id with
  | some bytes => .ok bytes
  | none => .error (.unknownBuffer id)

/-- The buffers after all bytes of one of them are replaced. -/
def replace (buffers : Buffers) (id : Nat) (old new : List UInt8) : Except DeviceError Buffers :=
  if new.length ≠ old.length then .error (.sizeMismatch old.length new.length) else .ok (Keyed.set id new buffers)

/-- The elements of the buffer bound at a position. -/
def readAt (buffers : Buffers) (b : Binding) (index : Nat) (e : Element) : Except DeviceError (List e.Word) := do
  e.decode (← buffers.bytes (← b.buffer index))

/-- The buffers after the elements of the one bound at a position are replaced. -/
def writeAt (buffers : Buffers) (b : Binding) (index : Nat) (e : Element) (words : List e.Word) :
    Except DeviceError Buffers := do
  let id ← b.buffer index
  let old ← buffers.bytes id
  buffers.replace id old (← e.encode words)

end Buffers

/-- The result of a sequence of accesses and the buffers after it. An access that fails changes no buffer. -/
def Access.run {α : Type} (binding : Binding) : Access α → Buffers → Except DeviceError α × Buffers
  | finish result, buffers => (result, buffers)
  | argument index next, buffers => (next (binding.argument index)).run binding buffers
  | scalar index e next, buffers => (next (binding.scalar index e)).run binding buffers
  | read index e next, buffers => (next (buffers.readAt binding index e)).run binding buffers
  | write index e words next, buffers =>
    match buffers.writeAt binding index e words with
    | .ok changed => (next (.ok ())).run binding changed
    | .error error => (next (.error error)).run binding buffers

/-- One sequence after another runs on the buffers that the first one leaves, unless that failed. -/
theorem Access.run_bind {α β : Type} (binding : Binding) (first : Access α) (rest : α → Access β) (buffers : Buffers) :
    (first.bind rest).run binding buffers =
      match first.run binding buffers with
      | (.ok a, changed) => (rest a).run binding changed
      | (.error error, changed) => (.error error, changed) := by
  induction first generalizing buffers with
  | finish result => cases result <;> rfl
  | argument index next ih => exact ih _ _
  | scalar index e next ih => exact ih _ _
  | read index e next ih => exact ih _ _
  | write index e words next ih =>
    simp only [bind, run]
    cases buffers.writeAt binding index e words with
    | ok changed => exact ih _ _
    | error error => exact ih _ _

end PrecisionAudit
