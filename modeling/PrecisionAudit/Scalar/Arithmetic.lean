import PrecisionAudit.Scalar.Convert

/-!
# Arithmetic in one format

Every operation computes the exact result of its exact operands and rounds it once to nearest even. NaN operands
pass through with their quiet bit set, the first before the second; an operation without a value gives the
default NaN.

* `Scalar.add`, `sub`, `mul`, `div`, `rem`, `sqrt`, `fma`: the basic operations.
* `Scalar.floor`, `ceil`, `trunc`, `roundAway`, `roundEven`: rounding to an integer, in the number's own format.
* `Scalar.min`, `max`, `scaleBy`, `powNat`, `powInt`, `exponentOf`: operations built on them.
-/

namespace PrecisionAudit

-- a power is that of the core library, whatever other instances are in scope
attribute [local instance (2000)] instPowNat

namespace Exact

/-- The quotient of two exact numbers, rounded into a format. The divisor is not zero. -/
def divRound (x y : Exact) (f : Format) (mode : RoundingMode) : Scalar f :=
  let negative := x.negative != y.negative
  .ofParts f negative (f.encodeRatio mode negative x.significand y.significand (x.exponent - y.exponent))

/-- The remainder of the quotient truncated toward zero, with the sign of the dividend. -/
def rem (x y : Exact) : Exact :=
  let unit := min x.exponent y.exponent
  ⟨x.negative, (x.inUnits unit).natAbs % (y.inUnits unit).natAbs, unit⟩

/-- The integer square root, by Newton's iteration from above. -/
def isqrtLoop (n : Nat) : Nat → Nat → Nat
  | 0, guess => guess
  | fuel + 1, guess =>
    let next := (guess + n / guess) / 2
    if next < guess then isqrtLoop n fuel next else guess

/-- The largest integer whose square is at most `n`. The starting point is above the root, and each step of the
iteration falls strictly. -/
def isqrt (n : Nat) : Nat := if n = 0 then 0 else isqrtLoop n (n.log2 + 2) (2 ^ (n.log2 / 2 + 1))

/-- The square root rounded into a format. Two significand bits more than the format keeps are computed; a last
bit set below them stands for everything that is still missing. -/
def sqrtRound (x : Exact) (f : Format) (mode : RoundingMode) : Scalar f :=
  let wanted := 2 * (f.mantissaBits + 2)
  let grow : Nat := wanted - x.significand.log2
  let shift : Nat := if (x.exponent - grow) % 2 = 0 then grow else grow + 1
  let widened := x.significand * 2 ^ shift
  let root := isqrt widened
  let sticky := if root * root = widened then 0 else 1
  .ofParts f x.negative (f.encodeDyadic mode x.negative (2 * root + sticky) ((x.exponent - shift) / 2 - 1))

/-- The integer that a number is rounded to, given how a magnitude `num / den` becomes an integer. -/
def toIntegral (x : Exact) (roundMagnitude : Nat → Nat → Nat) : Exact :=
  if 0 ≤ x.exponent then x else ⟨x.negative, roundMagnitude x.significand (2 ^ (-x.exponent).toNat), 0⟩

end Exact

namespace Scalar

variable {f : Format}

/-- The NaN that two operands give when one of them is a NaN. -/
def propagate (x y : Scalar f) : Scalar f := if x.isNaN then x.quieted else y.quieted

def add (x y : Scalar f) : Scalar f :=
  match x.datum, y.datum with
  | .nan, _ | _, .nan => propagate x y
  | .infinite s, .infinite t => if s = t then infinity f s else defaultNaN f
  | .infinite s, .finite _ => infinity f s
  | .finite _, .infinite t => infinity f t
  | .finite a, .finite b => (a.add b).round f .nearestEven

/-- Subtraction adds the negated operand; a NaN keeps its own sign. -/
def sub (x y : Scalar f) : Scalar f := if y.isNaN then propagate x y else x.add y.neg

def mul (x y : Scalar f) : Scalar f :=
  match x.datum, y.datum with
  | .nan, _ | _, .nan => propagate x y
  | .infinite s, .infinite t => infinity f (s != t)
  | .infinite s, .finite b => if b.isZero then defaultNaN f else infinity f (s != b.negative)
  | .finite a, .infinite t => if a.isZero then defaultNaN f else infinity f (a.negative != t)
  | .finite a, .finite b => (a.mul b).round f .nearestEven

def div (x y : Scalar f) : Scalar f :=
  match x.datum, y.datum with
  | .nan, _ | _, .nan => propagate x y
  | .infinite _, .infinite _ => defaultNaN f
  | .infinite s, .finite b => infinity f (s != b.negative)
  | .finite a, .infinite t => ofParts f (a.negative != t) 0
  | .finite a, .finite b =>
    if b.isZero then
      if a.isZero then defaultNaN f else infinity f (a.negative != b.negative)
    else
      a.divRound b f .nearestEven

/-- The remainder with the sign of the dividend. It is exact, so nothing is rounded. -/
def rem (x y : Scalar f) : Scalar f :=
  match x.datum, y.datum with
  | .nan, _ | _, .nan => propagate x y
  | .infinite _, _ => defaultNaN f
  | .finite _, .infinite _ => x
  | .finite a, .finite b => if b.isZero then defaultNaN f else (a.rem b).round f .nearestEven

def sqrt (x : Scalar f) : Scalar f :=
  match x.datum with
  | .nan => x.quieted
  | .infinite negative => if negative then defaultNaN f else x
  | .finite a => if a.isZero then x else if a.negative then defaultNaN f else a.sqrtRound f .nearestEven

/-- `x * y + z`, rounded once. -/
def fma (x y z : Scalar f) : Scalar f :=
  match x.datum, y.datum, z.datum with
  | .nan, _, _ | _, .nan, _ => propagate x y
  | _, _, .nan => z.quieted
  | .finite a, .finite b, .finite c => ((a.mul b).add c).round f .nearestEven
  | .finite _, .finite _, .infinite t => infinity f t
  | _, _, _ => (x.mul y).add z

/-- The number one. -/
def one (f : Format) : Scalar f := ofInt f 1

/-- One divided by the number. -/
def recip (x : Scalar f) : Scalar f := (one f).div x

/-! ## Rounding to an integer -/

/-- Rounds to an integer by a rule on magnitudes. Infinities stay, NaNs are quieted. -/
def toIntegral (x : Scalar f) (roundMagnitude : Nat → Nat → Nat) : Scalar f :=
  match x.datum with
  | .nan => x.quieted
  | .infinite _ => x
  | .finite a => (a.toIntegral roundMagnitude).round f .nearestEven

def floor (x : Scalar f) : Scalar f := x.toIntegral (RoundingMode.downward.roundQuotient x.isNegative)

def ceil (x : Scalar f) : Scalar f := x.toIntegral (RoundingMode.upward.roundQuotient x.isNegative)

def trunc (x : Scalar f) : Scalar f := x.toIntegral (RoundingMode.towardZero.roundQuotient x.isNegative)

/-- To the nearest integer, ties away from zero. -/
def roundAway (x : Scalar f) : Scalar f := x.toIntegral fun num den => (2 * num + den) / (2 * den)

/-- To the nearest integer, ties to even. -/
def roundEven (x : Scalar f) : Scalar f := x.toIntegral (RoundingMode.nearestEven.roundQuotient x.isNegative)

/-! ## Further operations -/

/-- The smaller operand. A quiet NaN is ignored, a signaling one is not. -/
def min (x y : Scalar f) : Scalar f :=
  if x.isSignaling || y.isSignaling then propagate x y
  else if x.isNaN then y else if y.isNaN then x else if x.numLt y then x else y

/-- The larger operand. A quiet NaN is ignored, a signaling one is not. -/
def max (x y : Scalar f) : Scalar f :=
  if x.isSignaling || y.isSignaling then propagate x y
  else if x.isNaN then y else if y.isNaN then x else if y.numLt x then x else y

/-- `x - y` where `x` is larger, and zero where it is not. -/
def positiveDifference (x y : Scalar f) : Scalar f :=
  if x.isNaN || y.isNaN then propagate x y else if y.numLt x then x.sub y else zero f

/-- `x * 2 ^ n`, rounded once. -/
def scaleBy (x : Scalar f) (n : Int) : Scalar f :=
  match x.datum with
  | .nan => x.quieted
  | .infinite _ => x
  | .finite a => (Exact.mk a.negative a.significand (a.exponent + n)).round f .nearestEven

/-- Multiplies `acc` by the power `n` of `x`, squaring `x` for every bit of `n`. -/
def powLoop (x acc : Scalar f) (n : Nat) : Scalar f :=
  let acc := if n % 2 = 1 then acc.mul x else acc
  if n / 2 = 0 then acc else powLoop (x.mul x) acc (n / 2)
termination_by n
decreasing_by omega

/-- An integer power by repeated squaring, every product rounded; a negative power takes one reciprocal at the
end. -/
def powInt (x : Scalar f) (n : Int) : Scalar f :=
  let power := powLoop x (one f) n.natAbs
  if n < 0 then power.recip else power

/-- The exponent of the binade of a finite nonzero number. -/
def binade (x : Scalar f) : Int := x.exact.significand.log2 + x.exact.exponent

end Scalar

end PrecisionAudit
