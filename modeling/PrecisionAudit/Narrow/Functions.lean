import PrecisionAudit.Elementary.Power
import PrecisionAudit.Elementary.Special
import PrecisionAudit.Elementary.Trigonometric
import PrecisionAudit.Narrow.Operators

/-!
# Library functions on narrow numbers

Every function widens its arguments to single precision, is evaluated there and rounded back once. The functions are
found by name. Some of them come from a mathematical library, of which nothing is assumed; a program runs with the
library whose results are rounded once.

* `MathLibrary`: the functions that a library supplies; `MathLibrary.rounded`.
* `MathLibrary.unary?`, `MathLibrary.binary?`: the functions of one and two numbers.
* `MathLibrary.scaleBy`, `MathLibrary.exponentOf`, `Narrow.fma`, `Narrow.powInt`.
-/

namespace PrecisionAudit

-- a power is that of the core library, whatever other instances are in scope
attribute [local instance (2000)] instPowNat

/-- The functions of single precision numbers that a mathematical library supplies. -/
structure MathLibrary where
  exp10 : Single → Single
  gamma : Single → Single
  logGamma : Single → Single
  erf : Single → Single
  erfc : Single → Single
  /-- `x - y` where `x` is larger. -/
  positiveDifference : Single → Single → Single
  /-- The product with a power of two. -/
  scale : Single → Int → Single
  /-- The exponent of a finite nonzero number. -/
  exponent : Single → Int

namespace MathLibrary

/-- The library whose results are the exact ones, rounded once. -/
def rounded : MathLibrary where
  exp10 := Elementary.exp10
  gamma := Elementary.gamma
  logGamma := Elementary.logGamma
  erf := Elementary.erf
  erfc := Elementary.erfc
  positiveDifference := Scalar.positiveDifference
  scale := Scalar.scaleBy
  exponent := Scalar.binade

variable (library : MathLibrary)

/-- The functions of one single precision number. -/
def unaryTable : List (String × (Single → Single)) :=
  [("sqrt", Scalar.sqrt), ("rsqrt", fun x => x.sqrt.recip), ("cbrt", Elementary.cbrt), ("recip", Scalar.recip),
    ("sin", Elementary.sin), ("cos", Elementary.cos), ("tan", Elementary.tan),
    ("asin", Elementary.asin), ("acos", Elementary.acos), ("atan", Elementary.atan),
    ("sinh", Elementary.sinh), ("cosh", Elementary.cosh), ("tanh", Elementary.tanh),
    ("asinh", Elementary.asinh), ("acosh", Elementary.acosh), ("atanh", Elementary.atanh),
    ("exp", Elementary.exp), ("exp2", Elementary.exp2), ("exp10", library.exp10),
    ("exp_m1", Elementary.expMinusOne),
    ("ln", Elementary.log), ("log2", Elementary.log2), ("log10", Elementary.log10), ("ln_1p", Elementary.logOnePlus),
    ("floor", Scalar.floor), ("ceil", Scalar.ceil), ("trunc", Scalar.trunc), ("round", Scalar.roundAway),
    ("nearbyint", Scalar.roundEven),
    ("tgamma", library.gamma), ("lgamma", library.logGamma), ("erf", library.erf), ("erfc", library.erfc)]

/-- The functions of two single precision numbers. -/
def binaryTable : List (String × (Single → Single → Single)) :=
  [("atan2", Elementary.atan2), ("pow", Elementary.pow), ("hypot", Elementary.hypot), ("fmod", Scalar.rem),
    ("fmin", Scalar.min), ("fmax", Scalar.max), ("fdim", library.positiveDifference)]

variable {f : Format}

/-- A function of one narrow number. -/
def unary? (name : String) : Option (Scalar f → Scalar f) := (library.unaryTable.lookup name).map Narrow.map

/-- A function of two narrow numbers. -/
def binary? (name : String) : Option (Scalar f → Scalar f → Scalar f) :=
  (library.binaryTable.lookup name).map Narrow.map₂

/-- The product with a power of two. -/
def scaleBy (x : Scalar f) (n : Int) : Scalar f := Narrow.map (library.scale · n) x

/-- The exponent of a number. A zero and a NaN have the least integer of 32 bits for one, an infinity the largest. -/
def exponentOf (x : Scalar f) : Int :=
  if x.isNaN || x.isZero then -2 ^ (31 : Nat)
  else if x.isInfinite then 2 ^ (31 : Nat) - 1
  else library.exponent x.widen

end MathLibrary

namespace Narrow

variable {f : Format}

/-- `x * y + z` with one rounding to single precision and one back. -/
def fma (x y z : Scalar f) : Scalar f := .ofSingle f (x.widen.fma y.widen z.widen)

/-- An integer power, multiplied out in single precision. -/
def powInt (x : Scalar f) (n : Int) : Scalar f := map (·.powInt n) x

/-! ## The functions of a program -/

/-- The functions under the library whose results are rounded once; so are those that follow. -/
def unary? : String → Option (Scalar f → Scalar f) := MathLibrary.rounded.unary?

def binary? : String → Option (Scalar f → Scalar f → Scalar f) := MathLibrary.rounded.binary?

def scaleBy : Scalar f → Int → Scalar f := MathLibrary.rounded.scaleBy

def exponentOf : Scalar f → Int := MathLibrary.rounded.exponentOf

end Narrow

end PrecisionAudit
