import PrecisionAudit.Device.Kernel
import PrecisionAudit.Narrow.Operators

/-!
# A catalog of kernels

Small kernels that exercise a device: they move elements between buffers, look at their launch and arguments, or
compute in a narrow format.

`Kernel.parse?` finds a kernel by its description.
-/

namespace PrecisionAudit

/-- Finds a type of elements by its name. -/
def Element.parse? : String → Option Element
  | "i8" => some .int8
  | "i16" => some .int16
  | "i32" => some .int32
  | "i64" => some .int64
  | "u8" => some .uint8
  | "u16" => some .uint16
  | "u32" => some .uint32
  | "u64" => some .uint64
  | "f32" => some .single
  | "f64" => some .double
  | "half" => some .half
  | "bfloat" => some .bfloat
  | "tfloat" => some .tfloat
  | _ => none

namespace Kernel

/-- Does nothing. -/
def noop : Kernel := fun _ => pure ()

/-- Fails with a reason. -/
def failing (reason : String) : Kernel := fun _ => Access.fail (.launchFailed reason)

/-- Writes the element bound first to the buffer bound second. -/
def load (e : Element) : Kernel := fun _ => do
  let x ← Access.getScalar 0 e
  Access.putElements 1 e [x]

/-- Copies the buffer bound first to the buffer bound second. -/
def copy (e : Element) : Kernel := fun _ => do
  let xs ← Access.getElements 0 e
  Access.putElements 1 e xs

/-- Fills the buffer bound first with the element bound second, once for each work item. -/
def fill (e : Element) : Kernel := fun launch => do
  let x ← Access.getScalar 1 e
  Access.putElements 0 e (List.replicate launch.workItems x)

/-- Writes the sizes of the grid. -/
def dimensions : Kernel := fun launch =>
  Access.putElements 0 .uint32 (launch.grid.toList.map (BitVec.ofNat _))

/-- Requires the argument whose position is bound first. -/
def requires : Kernel := fun _ => do
  let index ← Access.getScalar 0 .uint32
  let _ ← Access.getArgument index.toNat
  return ()

/-- The square roots of the buffer bound first. -/
def squareRoots : Kernel := fun _ => do
  let xs ← Access.getElements 0 .single
  Access.putElements 1 .single (xs.map fun x => (Scalar.ofWord .single x).sqrt.word _)

/-- The nearest brain floats of the buffer bound first. -/
def narrowing : Kernel := fun _ => do
  let xs ← Access.getElements 0 .single
  Access.putElements 1 .bfloat (xs.map fun x => (Scalar.ofSingle .bfloat (.ofWord .single x)).word _)

/-- A multiple of one half-precision buffer plus another, with a rounding after each operation. -/
def axpy : Kernel := fun launch => do
  let a ← Access.getScalar 0 .half
  let xs ← Access.getElements 1 .half
  let ys ← Access.getElements 2 .half
  if xs.length < launch.workItems ∨ ys.length < launch.workItems then
    Access.fail (.launchFailed "global size exceeds the buffers")
  else
    let half := fun (w : BitVec 16) => Scalar.ofWord .half w
    Access.putElements 3 .half (List.zipWith (fun x y =>
      (Narrow.apply .add (Narrow.apply .mul (half a) (half x)) (half y)).word _) xs ys)

/-- Finds a kernel by its name, followed by the type of its elements or the reason of its failure. -/
def parse? (text : String) : Option Kernel :=
  match text.splitOn " " with
  | ["noop"] => some noop
  | ["dims"] => some dimensions
  | ["has"] => some requires
  | ["sqrt"] => some squareRoots
  | ["narrow"] => some narrowing
  | ["axpy"] => some axpy
  | ["load", e] => (Element.parse? e).map load
  | ["copy", e] => (Element.parse? e).map copy
  | ["fill", e] => (Element.parse? e).map fill
  | "fail" :: reason => some (failing (" ".intercalate reason))
  | _ => none

end Kernel

end PrecisionAudit
