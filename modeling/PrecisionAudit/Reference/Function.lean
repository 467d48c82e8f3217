import PrecisionAudit.Precision

/-!
# Reference functions

The mathematical functions for which the library knows reference values, with their names, their number of
arguments and the number of representable steps by which a device may miss the reference.
-/

namespace PrecisionAudit

/-- A function with reference values. -/
inductive MathFunction
  | acos | acosh | acospi
  | asin | asinh | asinpi
  | atan | atan2 | atan2pi | atanh | atanpi
  | cbrt | ceil | copysign | cos
  | exp | inv | log | rsqrt | sin | sqrt
  deriving DecidableEq, Repr, Inhabited

namespace MathFunction

def all : List MathFunction :=
  [acos, acosh, acospi, asin, asinh, asinpi, atan, atan2, atan2pi, atanh, atanpi, cbrt, ceil, copysign, cos,
    exp, inv, log, rsqrt, sin, sqrt]

def name : MathFunction → String
  | acos => "acos"
  | acosh => "acosh"
  | acospi => "acospi"
  | asin => "asin"
  | asinh => "asinh"
  | asinpi => "asinpi"
  | atan => "atan"
  | atan2 => "atan2"
  | atan2pi => "atan2pi"
  | atanh => "atanh"
  | atanpi => "atanpi"
  | cbrt => "cbrt"
  | ceil => "ceil"
  | copysign => "copysign"
  | cos => "cos"
  | exp => "exp"
  | inv => "inv"
  | log => "log"
  | rsqrt => "rsqrt"
  | sin => "sin"
  | sqrt => "sqrt"

/-- Finds a function by its exact name. -/
def parse? (text : String) : Option MathFunction := all.find? (·.name == text)

/-- The number of arguments. -/
def arity : MathFunction → Nat
  | atan2 | atan2pi | copysign => 2
  | _ => 1

/-- Whether the function has a bound in single precision only. -/
def singleOnly : MathFunction → Bool
  | cos | exp | inv | log | rsqrt | sin | sqrt => true
  | _ => false

/-- Whether the function has a bound, and so a reference, in a precision. -/
def hasBound (fn : MathFunction) : Precision → Bool
  | .single => true
  | .double => !fn.singleOnly
  | .half | .bfloat | .tfloat => false

/-- The number of steps by which a result may differ from the reference, where there is a bound. -/
def stepBound : MathFunction → Nat
  | acos | acosh | asin | asinh => 4
  | acospi | asinpi | atan | atanh | atanpi => 5
  | atan2 | atan2pi => 6
  | cbrt | rsqrt => 2
  | ceil | copysign => 0
  | sqrt | log => 3
  | inv => 1
  | exp | sin | cos => 4

end MathFunction

end PrecisionAudit
