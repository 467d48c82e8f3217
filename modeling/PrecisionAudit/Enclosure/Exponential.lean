import PrecisionAudit.Enclosure.Basic

/-!
# Exponentials and logarithms

* `Enclosure.exp`: the exponential, as an enclosure times a power of two.
* `Enclosure.log`, `Enclosure.logExact`, `Enclosure.logRatio`: natural logarithms.
* `Enclosure.ln2`, `Enclosure.ln10`.
-/

namespace PrecisionAudit

-- a power is that of the core library, whatever other instances are in scope
attribute [local instance (2000)] instPowNat

namespace Enclosure

variable {p : Nat}

/-- The inverse hyperbolic tangent of a number of magnitude at most one half, by its power series. -/
def atanhSmall (z : Enclosure p) : Enclosure p :=
  let z2 := z.square
  sumSeries z (fun _ t => t.mul z2) (fun k t => t.divNat (2 * k + 1))

/-- The natural logarithm of two, twice the inverse hyperbolic tangent of a third. -/
def ln2 (p : Nat) : Enclosure p :=
  (sumSeries (ofRatio p 1 3) (fun _ t => t.divNat 9) (fun k t => t.divNat (2 * k + 1))).mulInt 2

/-- The logarithm of `m * 2 ^ k` for `m` between one half and two. -/
def logScaled (m : Enclosure p) (k : Int) : Enclosure p :=
  let z := (m.sub (one p)).div (m.add (one p))
  ((ln2 p).mulInt k).add ((atanhSmall z).mulInt 2)

/-- The logarithm of a positive exact number. Its significand is brought between three quarters and one and a half,
so that nothing cancels near one. -/
def logExact (p : Nat) (x : Exact) : Enclosure p :=
  let top := x.significand.log2
  let up : Nat := if 3 * 2 ^ top ≤ 2 * x.significand then 1 else 0
  logScaled (ofExact p ⟨false, x.significand, -((top + up : Nat) : Int)⟩) (x.exponent + (top + up : Nat))

/-- The logarithm of a positive enclosure. -/
def log (a : Enclosure p) : Enclosure p :=
  if a.lo ≤ 0 then
    unknown p
  else
    let top := a.lo.toNat.log2
    let up : Nat := if 3 * 2 ^ top ≤ 2 * a.lo.toNat then 1 else 0
    let k : Int := ((top + up : Nat) : Int) - p
    if a.hi < 2 * a.lo then logScaled (a.scale (-k)) k else unknown p

/-- The logarithm of a positive quotient. -/
def logRatio (p num den : Nat) : Enclosure p := (logExact p ⟨false, num, 0⟩).sub (logExact p ⟨false, den, 0⟩)

def ln10 (p : Nat) : Enclosure p := logExact p ⟨false, 10, 0⟩

/-- The exponential of a number of magnitude at most one, by its power series at a sixty-fourth of it. -/
def expSmall (r : Enclosure p) : Enclosure p :=
  let s := r.scale (-6)
  (sumTerms (one p) fun k t => (t.mul s).divNat (k + 1)).squareTimes 6

/-- The exponential as an enclosure times a power of two. Of an interval wider than one nothing is said. -/
def exp (x : Enclosure p) : Enclosure p × Int :=
  if powTwo p < x.hi - x.lo then
    (unknown p, 0)
  else
    let l := ln2 p
    let n := (x.lo + x.hi) / (2 * l.hi)
    (expSmall (x.sub (l.mulInt n)), n)

end Enclosure

end PrecisionAudit
