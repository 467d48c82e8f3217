import PrecisionAudit.Elementary.Exponential

/-!
# Powers and roots

The cube root, the length of a vector and the general power, correctly rounded. Roots of exact numbers are found among
the integers, with one more bit that tells whether anything is missing.
-/

namespace PrecisionAudit

-- a power is that of the core library, whatever other instances are in scope
attribute [local instance (2000)] instPowNat

namespace Exact

/-- The integer cube root, by Newton's iteration from above. -/
def icbrtLoop (n : Nat) : Nat → Nat → Nat
  | 0, guess => guess
  | fuel + 1, guess =>
    let next := (2 * guess + n / (guess * guess)) / 3
    if next < guess then icbrtLoop n fuel next else guess

/-- The largest integer whose cube is at most `n`. -/
def icbrt (n : Nat) : Nat := if n = 0 then 0 else icbrtLoop n (n.log2 + 2) (2 ^ (n.log2 / 3 + 1))

/-- The cube root rounded into a format. -/
def cbrtRound (x : Exact) (f : Format) (mode : RoundingMode) : Scalar f :=
  let wanted := 3 * (f.mantissaBits + 3)
  let grow : Nat := wanted - x.significand.log2
  let shift : Nat := grow + ((x.exponent - grow) % 3).toNat
  let widened := x.significand * 2 ^ shift
  let root := icbrt widened
  let sticky := if root * root * root = widened then 0 else 1
  .ofParts f x.negative (f.encodeDyadic mode x.negative (2 * root + sticky) ((x.exponent - shift) / 3 - 1))

/-- The power `n` of an exact number. -/
def pow (x : Exact) (n : Nat) : Exact := ⟨x.negative && n % 2 == 1, x.significand ^ n, x.exponent * n⟩

/-- An odd integer. -/
def isOddInt (x : Exact) : Bool :=
  match x.toInt? with
  | some n => n % 2 == 1
  | none => false

end Exact

namespace Elementary

variable {f : Format}

def cbrt (x : Scalar f) : Scalar f :=
  keepingZero x (Scalar.infinity f) fun a => a.cbrtRound f .nearestEven

/-- The length of the vector with the coordinates `x` and `y`; infinite if one of them is, even with a quiet NaN. -/
def hypot (x y : Scalar f) : Scalar f :=
  if x.isSignaling || y.isSignaling then Scalar.propagate x y
  else if x.isInfinite || y.isInfinite then .infinity f false
  else if x.isNaN || y.isNaN then Scalar.propagate x y
  else
    let sum := (x.exact.mul x.exact).add (y.exact.mul y.exact)
    if sum.isZero then .zero f else sum.sqrtRound f .nearestEven

/-! ## The general power -/

/-- The powers of zero and infinity. An odd integer exponent keeps the sign of the base. -/
def powExtreme (f : Format) (baseInfinite baseNegative exponentNegative oddExponent : Bool) : Scalar f :=
  let negative := baseNegative && oddExponent
  if baseInfinite != exponentNegative then .infinity f negative else .ofParts f negative 0

/-- The power of a positive number that is not one, up to its sign. Integer powers of moderate size are exact
quotients; of the others the binary exponent decides first whether they leave the format's range. -/
def powPositive (f : Format) (negative : Bool) (a b : Exact) : Scalar f :=
  let general := fun (_ : Unit) =>
    let size := ((Enclosure.logExact 128 a).div (.ln2 128)).mulExact b
    if (f.maxExponent + 2) * Enclosure.powTwo 128 < size.lo then .infinity f negative
    else if size.hi < (f.minExponent - f.mantissaBits - 2) * Enclosure.powTwo 128 then .ofParts f negative 0
    else signed negative (roundExp f fun p => (Enclosure.logExact p a).mulExact b)
  match b.toInt? with
  | some n =>
    if n.natAbs * (a.significand.log2 + 1) ≤ 8192 then
      let power := a.pow n.natAbs
      if 0 ≤ n then { power with negative := negative }.round f .nearestEven
      else ({ Exact.one with negative := negative }).divRound power f .nearestEven
    else
      general ()
  | none => general ()

/-- The power `x ^ y`. A zero exponent and the base one give one, even with a quiet NaN. -/
def pow (x y : Scalar f) : Scalar f :=
  if x.isSignaling || y.isSignaling then Scalar.propagate x y
  else if y.isZero then .one f
  else if x.compare? (.one f) = some .eq then .one f
  else match x.datum, y.datum with
    | .nan, _ | _, .nan => Scalar.propagate x y
    | .infinite _, .infinite t => powExtreme f true false t false
    | .infinite s, .finite b => powExtreme f true s b.negative b.isOddInt
    | .finite a, .infinite t =>
      match a.abs.compare .one with
      | .eq => .one f
      | .lt => powExtreme f false false t false
      | .gt => powExtreme f true false t false
    | .finite a, .finite b =>
      if a.isZero then powExtreme f false a.negative b.negative b.isOddInt
      else if a.negative && b.toInt?.isNone then .defaultNaN f
      else if a.abs.compare .one = .eq then signed (a.negative && b.isOddInt) (.one f)
      else powPositive f (a.negative && b.isOddInt) a.abs b

end Elementary

end PrecisionAudit
