import PrecisionAudit.Elementary.Power
import PrecisionAudit.Elementary.Trigonometric
import PrecisionAudit.Requirement.Check

/-!
# Reference values

The value of a reference function is computed in one of the native formats, correctly rounded. A reference in a
working precision exists where the function has a bound there.

* `MathFunction.eval?`: the value in a native format; `none` only if an argument is missing.
* `MathFunction.value`: the same, after the number of arguments has been checked.
* `MathFunction.reference`: the value in a working precision.
* `MathFunction.bound`, `MathFunction.requirement`: how far a result may be from it.
-/

namespace PrecisionAudit

namespace Scalar

variable {f : Format}

/-- The number next to pi. -/
def pi (f : Format) : Scalar f := Elementary.piTimes f false 1 0

/-- An angle as a fraction of a half turn. The angle is rounded before it is divided. -/
def halfTurns (angle : Scalar f) : Scalar f := angle.div (pi f)

end Scalar

namespace MathFunction

variable {f : Format}

/-- The value of a function, correctly rounded step by step. Arguments are looked up by number. -/
def eval? (fn : MathFunction) (args : List (Scalar f)) : Option (Scalar f) := do
  let x ← args[0]?
  match fn with
  | acos => return Elementary.acos x
  | acosh => return Elementary.acosh x
  | acospi => return (Elementary.acos x).halfTurns
  | asin => return Elementary.asin x
  | asinh => return Elementary.asinh x
  | asinpi => return (Elementary.asin x).halfTurns
  | atan => return Elementary.atan x
  | atan2 => return Elementary.atan2 x (← args[1]?)
  | atan2pi => return (Elementary.atan2 x (← args[1]?)).halfTurns
  | atanh => return Elementary.atanh x
  | atanpi => return (Elementary.atan x).halfTurns
  | cbrt => return Elementary.cbrt x
  | ceil => return x.ceil
  | copysign => return x.copySign (← args[1]?)
  | cos => return Elementary.cos x
  | exp => return Elementary.exp x
  | inv => return x.recip
  | log => return Elementary.log x
  | rsqrt => return x.sqrt.recip
  | sin => return Elementary.sin x
  | sqrt => return x.sqrt

/-- The value of a function at the right number of arguments. -/
def value (fn : MathFunction) (args : List (Scalar f)) : Except AuditError (Scalar f) :=
  if args.length ≠ fn.arity then
    .error (.arity fn args.length)
  else
    .ok ((fn.eval? args).getD (.defaultNaN f))

/-- The number of steps by which a result may miss the reference. -/
def bound (fn : MathFunction) (p : Precision) : Except AuditError Double :=
  if fn.hasBound p then .ok (.ofInt .double fn.stepBound) else .error (.unknownType fn p)

/-- What a result in a working precision has to satisfy. -/
def requirement (fn : MathFunction) (p : Precision) : Except AuditError (Requirement p) := do
  return .ulpValue (p.ofDouble (← fn.bound p))

/-- The reference in a working precision. Double precision is computed as such, all else in single precision. -/
def reference (fn : MathFunction) (p : Precision) (args : List p.Value) : Except AuditError p.Value := do
  let _ ← fn.bound p
  let wide := args.map p.toDouble
  let result ← if p = .double then fn.value wide
    else (fn.value (wide.map Scalar.doubleToSingle)).map Scalar.singleToDouble
  return p.ofDouble result

end MathFunction

end PrecisionAudit
