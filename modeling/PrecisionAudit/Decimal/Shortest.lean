import PrecisionAudit.Scalar.Exact

/-!
# The shortest decimal that reads back

Every real number between two bounds around a finite scalar is read as that scalar. Among all decimals inside
these bounds one has the fewest digits, and among those the nearest one is taken; an exact tie goes away from
zero.

* `Decimal`: a natural number of units of a power of ten.
* `Decimal.Span`: the interval of reals around a number, as integers over a common denominator.
* `Decimal.shortest`: the digits chosen for a scalar's magnitude.
-/

namespace PrecisionAudit

-- a power is that of the core library, whatever other instances are in scope
attribute [local instance (2000)] instPowNat

/-- The number `digits * 10 ^ exponent`. -/
structure Decimal where
  digits : Nat
  exponent : Int
  deriving DecidableEq, Repr, Inhabited

namespace Decimal

/-- A value between two bounds; all three are integers over the denominator `den`. -/
structure Span where
  low : Nat
  value : Nat
  high : Nat
  den : Nat
  /-- Whether the bounds themselves read back. -/
  closed : Bool
  deriving Repr

/-- The interval of reals that round to a positive finite scalar. Below a power of two the neighbour is half as
far away as above it. The bounds belong to the interval if the significand is even. -/
def Span.around {f : Format} (x : Scalar f) : Span :=
  let ⟨_, significand, exponent⟩ := x.exact
  let below := if x.mantissaField = 0 ∧ 1 < x.exponentField then 1 else 2
  let scale := if 0 ≤ exponent then 2 ^ exponent.toNat else 1
  let den := if 0 ≤ exponent then 4 else 4 * 2 ^ (-exponent).toNat
  ⟨(4 * significand - below) * scale, 4 * significand * scale, (4 * significand + 2) * scale, den,
    significand % 2 == 0⟩

/-- Whether the decimal `digits * 10 ^ exponent` lies in the interval. -/
def Span.holds (s : Span) (digits : Nat) (exponent : Int) : Bool :=
  let grown := if 0 ≤ exponent then digits * 10 ^ exponent.toNat * s.den else digits * s.den
  let shrink := if 0 ≤ exponent then 1 else 10 ^ (-exponent).toNat
  if s.closed then
    s.low * shrink ≤ grown && grown ≤ s.high * shrink
  else
    s.low * shrink < grown && grown < s.high * shrink

/-- The neighbour of the value on the grid of multiples of `10 ^ exponent` that lies in the interval, the nearer
one if both do. -/
def Span.onGrid? (s : Span) (exponent : Int) : Option Nat :=
  let num := if 0 ≤ exponent then s.value else s.value * 10 ^ (-exponent).toNat
  let den := if 0 ≤ exponent then s.den * 10 ^ exponent.toNat else s.den
  let lower := num / den
  let upper := lower + 1
  match s.holds lower exponent, s.holds upper exponent with
  | true, true => some (if 2 * (num % den) < den then lower else upper)
  | true, false => some lower
  | false, true => some upper
  | false, false => none

/-- The exponent `e` with `10 ^ e ≤ num / den < 10 ^ (e + 1)`, for positive operands: an estimate from the binary
size, moved down to the place where it holds. -/
def decimalExponent (num den : Nat) : Int :=
  let binary : Int := (num.log2 : Int) - den.log2
  let guess := (binary + 1) * 30103 / 100000 + 1
  let reached := fun (e : Int) =>
    if 0 ≤ e then den * 10 ^ e.toNat ≤ num else den ≤ num * 10 ^ (-e).toNat
  if reached guess then guess
  else if reached (guess - 1) then guess - 1
  else if reached (guess - 2) then guess - 2
  else guess - 3

/-- Removes trailing zeros. -/
def trim (d : Decimal) : Decimal :=
  if h : d.digits ≠ 0 ∧ d.digits % 10 = 0 then trim ⟨d.digits / 10, d.exponent + 1⟩ else d
termination_by d.digits
decreasing_by
  show d.digits / 10 < d.digits
  omega

/-- The first grid with a hit, from one digit to as many as every format in use may need. -/
def Span.shortest (s : Span) : Decimal :=
  let top := decimalExponent s.value s.den
  let grids := (List.range 18).map fun (k : Nat) => top - k
  match grids.findSome? (fun e => (s.onGrid? e).map (Decimal.mk · e)) with
  | some d => d.trim
  | none => ⟨s.value / s.den, 0⟩

/-- The fewest digits that read back as the magnitude of a finite scalar. -/
def shortest {f : Format} (x : Scalar f) : Decimal := if x.isZero then ⟨0, 0⟩ else (Span.around x).shortest

end Decimal

end PrecisionAudit
