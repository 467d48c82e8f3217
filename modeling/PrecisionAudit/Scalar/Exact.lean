import PrecisionAudit.Scalar.Basic

/-!
# What a stored number denotes

A finite scalar denotes a signed integer times a power of two. `Exact` holds such a number without any limit on
its size, and arithmetic on it loses nothing; only bringing it back into a format rounds.

* `Exact`: exact signed dyadic numbers, with sum, product, quotient parts and comparison.
* `Datum`: NaN, an infinity or an exact number.
* `Scalar.datum`: what a scalar denotes.
* `Exact.round`: the scalar that stands for an exact number in a format.
* `Datum.compare?`: the order of what two scalars denote, which no NaN is part of.
-/

namespace PrecisionAudit

-- a power is that of the core library, whatever other instances are in scope
attribute [local instance (2000)] instPowNat

/-- The number `(-1) ^ negative * significand * 2 ^ exponent`. Zero keeps its sign. -/
structure Exact where
  negative : Bool
  significand : Nat
  exponent : Int
  deriving DecidableEq, Repr, Inhabited

namespace Exact

/-- The signed significand in units of `2 ^ unit`, for a unit no larger than the number's own. -/
def inUnits (x : Exact) (unit : Int) : Int :=
  let size : Int := x.significand * 2 ^ (x.exponent - unit).toNat
  if x.negative then -size else size

/-- The number `count * 2 ^ unit`; a zero takes the given sign. -/
def ofUnits (count : Int) (unit : Int) (zeroNegative : Bool) : Exact :=
  ⟨if count = 0 then zeroNegative else count < 0, count.natAbs, unit⟩

def isZero (x : Exact) : Bool := x.significand == 0

def neg (x : Exact) : Exact := ⟨!x.negative, x.significand, x.exponent⟩

/-- The exact sum. A zero sum is negative only if both terms are. -/
def add (x y : Exact) : Exact :=
  let unit := min x.exponent y.exponent
  ofUnits (x.inUnits unit + y.inUnits unit) unit (x.negative && y.negative)

/-- The exact product. -/
def mul (x y : Exact) : Exact :=
  ⟨x.negative != y.negative, x.significand * y.significand, x.exponent + y.exponent⟩

/-- The order of two exact numbers; the two zeros are equal. -/
def compare (x y : Exact) : Ordering :=
  let unit := min x.exponent y.exponent
  Ord.compare (x.inUnits unit) (y.inUnits unit)

/-- An integer, as an exact number. -/
def ofInt (n : Int) : Exact := ⟨n < 0, n.natAbs, 0⟩

/-- Rounds an exact number into a format. -/
def round (x : Exact) (f : Format) (mode : RoundingMode) : Scalar f :=
  .ofParts f x.negative (f.encodeDyadic mode x.negative x.significand x.exponent)

end Exact

/-- What an encoding denotes. -/
inductive Datum
  | nan
  | infinite (negative : Bool)
  | finite (number : Exact)
  deriving DecidableEq, Repr, Inhabited

namespace Datum

/-- Orders infinities outside all numbers and leaves NaN unordered. -/
def compare? : Datum → Datum → Option Ordering
  | nan, _ | _, nan => none
  | infinite s, infinite t => some (if s == t then .eq else if s then .lt else .gt)
  | infinite s, finite _ => some (if s then .lt else .gt)
  | finite _, infinite t => some (if t then .gt else .lt)
  | finite x, finite y => some (x.compare y)

end Datum

namespace Scalar

variable {f : Format}

/-- The exact value of a finite scalar. Denormals share the unit of the smallest normal binade. -/
def exact (x : Scalar f) : Exact :=
  if x.exponentField = 0 then
    ⟨x.isNegative, x.mantissaField, f.minExponent - f.mantissaBits⟩
  else
    ⟨x.isNegative, f.mantissaSpan + x.mantissaField, x.exponentField - f.bias - f.mantissaBits⟩

/-- What a scalar denotes. -/
def datum (x : Scalar f) : Datum :=
  if x.exponentField = f.exponentFieldMax then
    if x.mantissaField = 0 then .infinite x.isNegative else .nan
  else
    .finite x.exact

/-- The order of two scalars of one format by what they denote. -/
def compare? (x y : Scalar f) : Option Ordering := x.datum.compare? y.datum

/-- Numeric equality: the zeros are equal, a NaN equals nothing. -/
def numEq (x y : Scalar f) : Bool := x.compare? y == some .eq

def numLt (x y : Scalar f) : Bool := x.compare? y == some .lt

def numLe (x y : Scalar f) : Bool := x.compare? y == some .lt || x.compare? y == some .eq

/-- An integer rounded into a format. -/
def ofInt (f : Format) (n : Int) : Scalar f := (Exact.ofInt n).round f .nearestEven

end Scalar

end PrecisionAudit
