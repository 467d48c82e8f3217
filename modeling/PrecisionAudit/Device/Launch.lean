import PrecisionAudit.Device.Error

/-!
# Launches

A kernel is run over a grid of work items, which may be divided into groups of equal extent.

* `Launch.workItems`, `Launch.validate`.

Sizes are multiplied in words of 64 bits, which wrap around. They are divided by the sizes of groups, which a caller
chooses: `Extent.isMultipleOf?` and what is built on it have no answer after a division by zero;
`Launch.isSome_validate?` says that there is none.
-/

namespace PrecisionAudit

-- a power is that of the core library, whatever other instances are in scope
attribute [local instance (2000)] instPowNat

/-- The remainder of a division; there is none by zero. -/
def remainder? (size part : Nat) : Option Nat := if part = 0 then none else some (size % part)

/-- The sizes of a box of work items. -/
structure Extent where
  x : Nat
  y : Nat
  z : Nat
  deriving DecidableEq, Repr, Inhabited

namespace Extent

def toList (e : Extent) : List Nat := [e.x, e.y, e.z]

/-- The number of work items in the box, counted in a word of 64 bits. -/
def volume (e : Extent) : Nat := e.x * e.y * e.z % 2 ^ (64 : Nat)

/-- A box with work items has a size in every direction. -/
theorem pos_of_volume_ne_zero {e : Extent} (h : e.volume ≠ 0) : 0 < e.x ∧ 0 < e.y ∧ 0 < e.z := by
  have hproduct : e.x * e.y * e.z ≠ 0 := fun hzero => h (by rw [volume, hzero, Nat.zero_mod])
  simp only [ne_eq, Nat.mul_eq_zero, not_or] at hproduct
  omega

/-- Whether boxes of another extent fill the box in every direction. The first direction in which a part is left over
decides. -/
def isMultipleOf? (e group : Extent) : Option Bool :=
  (e.toList.zip group.toList).allM fun (size, part) => (remainder? size part).map (· == 0)

theorem isMultipleOf?_eq_some (e : Extent) {group : Extent} (h : group.volume ≠ 0) :
    e.isMultipleOf? group = some (e.x % group.x == 0 && e.y % group.y == 0 && e.z % group.z == 0) := by
  obtain ⟨hx, hy, hz⟩ := pos_of_volume_ne_zero h
  simp only [isMultipleOf?, toList, List.zip_cons_cons, List.zip_nil_left, List.allM, remainder?,
    if_neg (Nat.pos_iff_ne_zero.1 hx), if_neg (Nat.pos_iff_ne_zero.1 hy), if_neg (Nat.pos_iff_ne_zero.1 hz),
    Option.map_some]
  cases e.x % group.x == 0 <;> cases e.y % group.y == 0 <;> cases e.z % group.z == 0 <;> rfl

def text (e : Extent) : String := "[" ++ ", ".intercalate (e.toList.map toString) ++ "]"

end Extent

/-- What is known of a device. -/
structure DeviceInfo where
  name : String
  /-- The largest number of work items in a group. -/
  maxGroupSize : Nat
  /-- The number of bytes for buffers. -/
  globalMemory : Nat
  deriving DecidableEq, Repr

/-- The simulated device. -/
def DeviceInfo.simulated : DeviceInfo := ⟨"Host Simulated Device", 1024, 2 ^ (30 : Nat)⟩

/-- The work items of a run. -/
structure Launch where
  grid : Extent
  /-- The extent of a group, if it is not left to the device. -/
  group : Option Extent
  deriving DecidableEq, Repr

namespace Launch

/-- A launch in one direction. -/
def line (count : Nat) : Launch := ⟨⟨count, 1, 1⟩, none⟩

/-- A launch in two directions. -/
def plane (width height : Nat) : Launch := ⟨⟨width, height, 1⟩, none⟩

def workItems (launch : Launch) : Nat := launch.grid.volume

/-- Refuses groups that a device cannot hold or that do not fill the grid. -/
def validateGroup? (grid group : Extent) (info : DeviceInfo) : Option (Except DeviceError Unit) :=
  if group.volume = 0 ∨ info.maxGroupSize < group.volume then
    some (.error (.invalidConfig s!"Work-group size ({group.volume}) must be between 1 and {info.maxGroupSize}"))
  else do
    if ← grid.isMultipleOf? group then
      return .ok ()
    else
      return .error (.invalidConfig s!"Global size {grid.text} is not a multiple of local size {group.text}")

/-- Refuses a launch that a device cannot run; the sizes of a group are divided by after their product is judged. -/
def validate? (launch : Launch) (info : DeviceInfo) : Option (Except DeviceError Unit) :=
  if launch.workItems = 0 then
    some (.error (.invalidConfig s!"Global work size {launch.grid.text} is empty"))
  else
    match launch.group with
    | none => some (.ok ())
    | some group => validateGroup? launch.grid group info

/-- The sizes of a group are divided by only if none of them is zero. -/
theorem isSome_validateGroup? (grid group : Extent) (info : DeviceInfo) :
    (validateGroup? grid group info).isSome := by
  unfold validateGroup?
  split
  case isTrue => rfl
  case isFalse h =>
    rw [grid.isMultipleOf?_eq_some fun hvolume => h (.inl hvolume)]
    simp only [bind, Option.bind]
    split <;> rfl

theorem isSome_validate? (launch : Launch) (info : DeviceInfo) : (launch.validate? info).isSome := by
  unfold validate?
  split
  case isTrue => rfl
  case isFalse =>
    cases launch.group with
    | none => rfl
    | some group => exact isSome_validateGroup? launch.grid group info

/-- Refuses a launch that a device cannot run. -/
def validate (launch : Launch) (info : DeviceInfo) : Except DeviceError Unit :=
  (launch.validate? info).get (launch.isSome_validate? info)

end Launch

end PrecisionAudit
