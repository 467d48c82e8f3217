import PrecisionAudit.Format

/-!
# Stored numbers

`Scalar f` is a stored word of the format `f`. Its *packed* form drops the padding; the packed form splits into a
sign and a magnitude, and the magnitude into an exponent field and a mantissa field. Everything here looks at
fields only: what number they denote is said in `PrecisionAudit.Scalar.Exact`.

* `Scalar.packed`, `Scalar.ofPacked`, `Scalar.ofParts`: between words and fields.
* `Scalar.isNaN`, `Scalar.isDenormal`, …: classes of numbers, read off the fields.
* `Scalar.neg`, `Scalar.abs`, `Scalar.copySign`, `Scalar.flushToZero`: operations on fields.
-/

namespace PrecisionAudit

-- a power is that of the core library, whatever other instances are in scope
attribute [local instance (2000)] instPowNat

/-- A number as it is stored in a format. -/
structure Scalar (f : Format) where
  bits : BitVec f.storageWidth
  deriving DecidableEq, Repr

namespace Scalar

variable {f : Format}

instance : Inhabited (Scalar f) := ⟨⟨0⟩⟩

/-- The scalar stored as the low bits of `word`. -/
def ofNat (f : Format) (word : Nat) : Scalar f := ⟨BitVec.ofNat _ word⟩

/-- The stored word. -/
def toNat (x : Scalar f) : Nat := x.bits.toNat

theorem ofNat_toNat (x : Scalar f) : ofNat f x.toNat = x := by
  rw [ofNat, toNat, BitVec.ofNat_toNat, BitVec.setWidth_eq]

/-- A number that fits is stored as it is. -/
theorem toNat_ofNat {word : Nat} (h : word < 2 ^ f.storageWidth) : (ofNat f word).toNat = word :=
  (BitVec.toNat_ofNat _ _).trans (Nat.mod_eq_of_lt h)

/-- Sign, exponent field and mantissa field, right-aligned. -/
def packed (x : Scalar f) : Nat := x.toNat / 2 ^ f.paddingBits

/-- Stores a packed word; padding bits are zero and bits beyond the width are dropped. -/
def ofPacked (f : Format) (packed : Nat) : Scalar f := ofNat f (packed * 2 ^ f.paddingBits)

/-- Stores a sign and a magnitude. -/
def ofParts (f : Format) (negative : Bool) (magnitude : Nat) : Scalar f :=
  ofPacked f ((if negative then f.signMask else 0) + magnitude)

/-! ## Fields -/

def isNegative (x : Scalar f) : Bool := f.signMask ≤ x.packed

/-- The packed word without its sign. -/
def magnitude (x : Scalar f) : Nat := x.packed % f.signMask

def exponentField (x : Scalar f) : Nat := x.magnitude / f.mantissaSpan

def mantissaField (x : Scalar f) : Nat := x.magnitude % f.mantissaSpan

theorem mantissaField_lt (x : Scalar f) : x.mantissaField < f.mantissaSpan := Nat.mod_lt _ (Nat.two_pow_pos _)

/-! ## Classes -/

def isNaN (x : Scalar f) : Bool := x.exponentField == f.exponentFieldMax && x.mantissaField != 0

/-- Whether a number is a NaN whose quiet bit is clear. -/
def isSignaling (x : Scalar f) : Bool := x.isNaN && x.mantissaField < f.quietBit

def isInfinite (x : Scalar f) : Bool := x.magnitude == f.infinity

def isFinite (x : Scalar f) : Bool := x.exponentField != f.exponentFieldMax

/-- Nonzero and below the smallest normal number. -/
def isDenormal (x : Scalar f) : Bool := x.exponentField == 0 && x.mantissaField != 0

def isZero (x : Scalar f) : Bool := x.magnitude == 0

/-- The truth value of a number: only the two zeros are false. -/
def toBool (x : Scalar f) : Bool := !x.isZero

/-! ## Constants -/

def zero (f : Format) : Scalar f := ofPacked f 0

def infinity (f : Format) (negative : Bool) : Scalar f := ofParts f negative f.infinity

/-- The NaN of invalid operations: quiet, without payload. -/
def defaultNaN (f : Format) : Scalar f := ofParts f false (f.infinity + f.quietBit)

/-! ## Operations on fields -/

/-- Flips the sign, of zeros and NaNs too. -/
def neg (x : Scalar f) : Scalar f := ofParts f (!x.isNegative) x.magnitude

def abs (x : Scalar f) : Scalar f := ofParts f false x.magnitude

/-- The magnitude of `x` under the sign of `sign`. -/
def copySign (x sign : Scalar f) : Scalar f := ofParts f sign.isNegative x.magnitude

/-- Replaces a denormal by the zero of its sign and keeps everything else, padding included. -/
def flushToZero (x : Scalar f) : Scalar f := if x.isDenormal then ofParts f x.isNegative 0 else x

/-- Equality of encodings, all NaNs being equal to each other. -/
def sameOrBothNaN (x y : Scalar f) : Bool := (x.isNaN && y.isNaN) || x.packed == y.packed

/-- A NaN with its quiet bit set. -/
def quieted (x : Scalar f) : Scalar f := ofParts f x.isNegative (x.magnitude ||| f.quietBit)

end Scalar

/-- A native single precision number. -/
abbrev Single := Scalar .single

/-- A native double precision number. -/
abbrev Double := Scalar .double

abbrev Half := Scalar .half

abbrev Bfloat := Scalar .bfloat

abbrev Tfloat := Scalar .tfloat

end PrecisionAudit
