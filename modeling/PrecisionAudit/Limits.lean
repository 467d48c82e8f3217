import PrecisionAudit.Precision

/-!
# Numeric limits

For every precision, the encodings of its extreme and special numbers and the parameters that describe its range.
The encodings are given as words, so that they can be checked against the rules of the format.
-/

namespace PrecisionAudit

/-- The limits of a format. -/
structure Limits (f : Format) where
  /-- The smallest positive normal number. -/
  minPositive : Scalar f
  max : Scalar f
  lowest : Scalar f
  /-- The step from one to the next number. -/
  epsilon : Scalar f
  roundError : Scalar f
  infinity : Scalar f
  quietNaN : Scalar f
  signalingNaN : Scalar f
  /-- The smallest positive number. -/
  denormMin : Scalar f
  digits : Nat
  /-- One more than the exponent of the smallest normal number. -/
  minExp : Int
  /-- One more than the exponent of the largest number. -/
  maxExp : Int
  hasDenormals : Bool
  isIec559 : Bool
  deriving Repr

namespace Limits

variable {f : Format}

/-- The encodings, in the order in which they are listed. -/
def table (l : Limits f) : List (Scalar f) :=
  [l.minPositive, l.max, l.lowest, l.epsilon, l.roundError, l.infinity, l.quietNaN, l.signalingNaN, l.denormMin]

def half : Limits .half where
  minPositive := .ofNat _ 0x0400
  max := .ofNat _ 0x7bff
  lowest := .ofNat _ 0xfbff
  epsilon := .ofNat _ 0x1400
  roundError := .ofNat _ 0x3800
  infinity := .ofNat _ 0x7c00
  quietNaN := .ofNat _ 0x7c01
  signalingNaN := .ofNat _ 0x7c01
  denormMin := .ofNat _ 0x0001
  digits := 10
  minExp := -13
  maxExp := 16
  hasDenormals := true
  isIec559 := false

def bfloat : Limits .bfloat where
  minPositive := .ofNat _ 0x0080
  max := .ofNat _ 0x7f7f
  lowest := .ofNat _ 0xff7f
  epsilon := .ofNat _ 0x3c00
  roundError := .ofNat _ 0x3f00
  infinity := .ofNat _ 0x7f80
  quietNaN := .ofNat _ 0x7f81
  signalingNaN := .ofNat _ 0x7f81
  denormMin := .ofNat _ 0x0001
  digits := 8
  minExp := -125
  maxExp := 128
  hasDenormals := true
  isIec559 := false

def tfloat : Limits .tfloat where
  minPositive := .ofNat _ 0x00800000
  max := .ofNat _ 0x7f7fe000
  lowest := .ofNat _ 0xff7fe000
  epsilon := .ofNat _ 0x3a800000
  roundError := .ofNat _ 0x3f000000
  infinity := .ofNat _ 0x7f800000
  quietNaN := .ofNat _ 0x7f802000
  signalingNaN := .ofNat _ 0x7f802000
  denormMin := .ofNat _ 0x00002000
  digits := 11
  minExp := -125
  maxExp := 128
  hasDenormals := true
  isIec559 := false

def single : Limits .single where
  minPositive := .ofNat _ 0x00800000
  max := .ofNat _ 0x7f7fffff
  lowest := .ofNat _ 0xff7fffff
  epsilon := .ofNat _ 0x34000000
  roundError := .ofNat _ 0x3f000000
  infinity := .ofNat _ 0x7f800000
  quietNaN := .ofNat _ 0x7fc00000
  signalingNaN := .ofNat _ 0x7fc00000
  denormMin := .ofNat _ 0x00000001
  digits := 24
  minExp := -125
  maxExp := 128
  hasDenormals := true
  isIec559 := true

def double : Limits .double where
  minPositive := .ofNat _ 0x0010000000000000
  max := .ofNat _ 0x7fefffffffffffff
  lowest := .ofNat _ 0xffefffffffffffff
  epsilon := .ofNat _ 0x3cb0000000000000
  roundError := .ofNat _ 0x3fe0000000000000
  infinity := .ofNat _ 0x7ff0000000000000
  quietNaN := .ofNat _ 0x7ff8000000000000
  signalingNaN := .ofNat _ 0x7ff8000000000000
  denormMin := .ofNat _ 0x0000000000000001
  digits := 53
  minExp := -1021
  maxExp := 1024
  hasDenormals := true
  isIec559 := true

end Limits

/-- The limits of a precision. -/
def Precision.limits : (p : Precision) → Limits p.format
  | .half => .half
  | .bfloat => .bfloat
  | .tfloat => .tfloat
  | .single => .single
  | .double => .double

end PrecisionAudit
