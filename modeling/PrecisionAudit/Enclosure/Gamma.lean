import PrecisionAudit.Enclosure.Exponential
import PrecisionAudit.Enclosure.Trigonometric

/-!
# The gamma function and the error function

* `Enclosure.tangentNumbers`, `Enclosure.bernoulli`: the coefficients of Stirling's series.
* `Enclosure.logGamma`: the logarithm of the gamma function of a positive number, by Stirling's series at a number
  moved up far enough.
* `Enclosure.gamma`: the gamma function as an enclosure times a power of two, with the reflection for negative numbers.
* `Enclosure.erf`: the error function of a positive number.
-/

namespace PrecisionAudit

-- a power is that of the core library, whatever other instances are in scope
attribute [local instance (2000)] instPowNat

namespace Enclosure

variable {p : Nat}

/-! ## Stirling's series -/

/-- One sweep over the tail of the table of tangent numbers, from the entry before it. -/
def tangentSweep : Nat → Nat → List Nat → List Nat
  | _, _, [] => []
  | d, before, t :: rest =>
    let t := d * before + (d + 2) * t
    t :: tangentSweep (d + 1) t rest

/-- Factorials, from `(k - 1)!` on. -/
def factorials : Nat → Nat → Nat → List Nat
  | 0, _, _ => []
  | n + 1, k, f => f :: factorials n (k + 1) (f * k)

/-- Fixes the first entry and sweeps over the others. -/
def tangentTable : Nat → List Nat → List Nat
  | 0, _ => []
  | _, [] => []
  | n + 1, t :: rest => t :: tangentTable n (tangentSweep 0 0 rest)

/-- The first tangent numbers: 1, 2, 16, 272, … -/
def tangentNumbers (n : Nat) : List Nat := tangentTable n (factorials n 1 1)

/-- The summands of Stirling's series without the powers of the argument: the Bernoulli number `B (2 k)` divided by
`2 k (2 k - 1)`, as sign, numerator and denominator. -/
def stirlingCoefficients (n : Nat) : List (Int × Nat) :=
  (tangentNumbers n).zipIdx.map fun (t, i) =>
    let k := i + 1
    ((if k % 2 = 1 then (t : Int) else -(t : Int)), (2 * k - 1) * (4 ^ k * (4 ^ k - 1)))

/-- The sum of Stirling's series at `1 / z`, widened by its last summand. -/
def stirlingSum (inverse : Enclosure p) : List (Int × Nat) → Enclosure p → Enclosure p → Enclosure p
  | [], last, sum => sum.widenBy (last.size + 1)
  | (num, den) :: rest, power, sum =>
    let summand := (power.mulInt num).divNat den
    match rest with
    | [] => (sum.add summand).widenBy (summand.size + 1)
    | _ => stirlingSum inverse rest (power.mul inverse.square) (sum.add summand)

/-- The logarithm of the gamma function far from zero: `(z - 1/2) log z - z + log (2 π) / 2` and Stirling's series. -/
def logGammaFar (p : Nat) (z : Exact) : Enclosure p :=
  let l := logExact p z
  let inverse := (one p).div (ofExact p z)
  let lead := (l.mulExact z).sub (l.scale (-1))
  let constant := (log ((pi p).mulInt 2)).scale (-1)
  ((lead.sub (ofExact p z)).add constant).add (stirlingSum inverse (stirlingCoefficients (p / 8 + 10)) inverse ⟨0, 0⟩)

/-- The product `x (x + 1) ⋯ (x + n - 1)`. -/
def risingProduct (x : Exact) : Nat → Exact
  | 0 => .ofInt 1
  | n + 1 => (risingProduct x n).mul (x.add (.ofInt n))

/-- The logarithm of the gamma function of a positive number, moved up to where Stirling's series is accurate. -/
def logGamma (p : Nat) (x : Exact) : Enclosure p :=
  let far := p / 4 + 8
  let whole := if 0 ≤ x.exponent then x.significand * 2 ^ x.exponent.toNat else x.significand / 2 ^ (-x.exponent).toNat
  let steps := far - whole
  if steps = 0 then
    logGammaFar p x
  else
    (logGammaFar p (x.add (.ofInt steps))).sub (logExact p (risingProduct x steps))

/-! ## Reflection -/

/-- The nearest integer to an exact number, and what is left, of magnitude at most one half. -/
def nearestInteger (x : Exact) : Int × Exact :=
  let magnitude := (x.toIntegral fun num den => (2 * num + den) / (2 * den)).inUnits 0
  (magnitude, x.add (.ofInt (-magnitude)))

/-- The sine of `π x` without its sign, for a number that is no integer. -/
def sinPiSize (p : Nat) (x : Exact) : Enclosure p :=
  let (_, rest) := nearestInteger x
  sinPi p { rest with negative := false }

/-- The logarithm of the size of the gamma function of a negative number that is no integer. -/
def logGammaReflected (p : Nat) (x : Exact) : Enclosure p :=
  ((log (pi p)).sub (log (sinPiSize p x))).sub (logGamma p ((Exact.ofInt 1).add x.neg))

/-- The size of the gamma function of a number that is neither zero nor a negative integer. -/
def gamma (p : Nat) (x : Exact) : Enclosure p × Int := exp (if x.negative then logGammaReflected p x else logGamma p x)

/-! ## The error function -/

/-- The error function of a positive number: `2 x / √π * exp (- x²) * ∑ (2 x²) ^ n / (1 · 3 ⋯ (2 n + 1))`. Before the
summands start to halve they grow, so that a bound on the number is needed. -/
def erf (p : Nat) (x : Exact) : Enclosure p :=
  let x2 := x.mul x
  let grow := ofExact p ⟨false, x2.significand, x2.exponent + 1⟩
  let start := (grow.hi >>> p).toNat + 2
  let head := (List.range start).foldl
    (fun (term, sum) n => ((term.mul grow).divNat (2 * n + 3), sum.add term)) (one p, (⟨0, 0⟩ : Enclosure p))
  let tail := sumTerms head.1 fun k t => (t.mul grow).divNat (2 * (start + k) + 3)
  let (e, n) := exp (ofExact p x2.neg)
  ((((head.2.add tail).mul e).scale n).mulExact ⟨false, x.significand, x.exponent + 1⟩).div (pi p).sqrt

end Enclosure

end PrecisionAudit
