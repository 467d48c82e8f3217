import PrecisionAudit.Scalar.Arithmetic

/-!
# Order and distance in representable steps

The magnitudes of a format count its numbers outward from zero. With the sign applied they become ordinals, so
that neighbouring numbers differ by one, also across zero, the denormal boundary and up to infinity; both zeros
share the ordinal zero.

* `Scalar.ordinal`, `Scalar.distance`, `Scalar.distance?`.
* `Scalar.nextAfter`: the neighbour in the direction of another number.
-/

namespace PrecisionAudit

namespace Scalar

variable {f : Format}

/-- The position of a number among the numbers of its format, counted from zero. -/
def ordinal (x : Scalar f) : Int := if x.isNegative then -x.magnitude else x.magnitude

/-- The number of steps between two encodings. -/
def distance (x y : Scalar f) : Nat := (x.ordinal - y.ordinal).natAbs

/-- The number of steps between two numbers; a NaN is no number of steps from anything. -/
def distance? (x y : Scalar f) : Option Nat := if x.isNaN || y.isNaN then none else some (x.distance y)

/-- The next representable number from `x` toward `toward`. Equal operands give the second, a NaN operand gives
the NaN of their sum, and zero steps to the denormal of smallest magnitude. -/
def nextAfter (x toward : Scalar f) : Scalar f :=
  let (from', to') := (x.widen, toward.widen)
  if x.isNaN || toward.isNaN then
    ofSingle f (from'.add to')
  else if from'.numEq to' then
    toward
  else
    let rising := from'.numLt to'
    if x.isZero then
      ofParts f (!rising) 1
    else
      ofParts f x.isNegative (if rising != x.isNegative then x.magnitude + 1 else x.magnitude - 1)

end Scalar

end PrecisionAudit
