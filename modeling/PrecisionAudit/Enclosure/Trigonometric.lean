import PrecisionAudit.Enclosure.Basic

/-!
# Circular functions

* `Enclosure.pi`: by two inverse tangents.
* `Enclosure.atanRatio`: the inverse tangent of a quotient.
* `Enclosure.sinCos`: sine and cosine of an exact number, after subtracting a multiple of a quarter turn.
* `Enclosure.sinPi`: the sine of a multiple of `π`.
-/

namespace PrecisionAudit

namespace Enclosure

variable {p : Nat}

/-- The inverse tangent of one over an integer. -/
def atanInverse (p n : Nat) : Enclosure p :=
  sumSeries (ofRatio p 1 n) (fun _ t => (t.divNat (n * n)).neg) (fun k t => t.divNat (2 * k + 1))

def pi (p : Nat) : Enclosure p := ((atanInverse p 5).mulInt 16).sub ((atanInverse p 239).mulInt 4)

/-- The inverse tangent of a number of magnitude at most one half, by its power series. -/
def atanSmall (z : Enclosure p) : Enclosure p :=
  let z2 := z.square
  sumSeries z (fun _ t => (t.mul z2).neg) (fun k t => t.divNat (2 * k + 1))

/-- Half the angle of a tangent: `t / (1 + √(1 + t²))`. -/
def halveAngle (t : Enclosure p) : Enclosure p := t.div ((one p).add ((one p).add t.square).sqrt)

/-- The inverse tangent of a number between zero and one. -/
def atanUnit (t : Enclosure p) : Enclosure p := (atanSmall (halveAngle (halveAngle (halveAngle t)))).mulInt 8

/-- The inverse tangent of a number that is not negative. -/
def atan (t : Enclosure p) : Enclosure p :=
  if t.hi ≤ powTwo p then atanUnit t else ((pi p).scale (-1)).sub (atanUnit ((one p).div t))

/-- The inverse tangent of a quotient of natural numbers that are not both zero. -/
def atanRatio (p num den : Nat) : Enclosure p :=
  if num ≤ den then
    atanUnit (ofRatio p num den)
  else
    ((pi p).scale (-1)).sub (atanUnit (ofRatio p den num))

/-- The sine of a number of magnitude at most two, by its power series. -/
def sinSmall (r : Enclosure p) : Enclosure p :=
  let r2 := r.square
  sumTerms r fun k t => ((t.mul r2).divNat ((2 * k + 2) * (2 * k + 3))).neg

/-- The cosine of a number of magnitude at most two, by its power series. -/
def cosSmall (r : Enclosure p) : Enclosure p :=
  let r2 := r.square
  sumTerms (one p) fun k t => ((t.mul r2).divNat ((2 * k + 1) * (2 * k + 2))).neg

/-- Sine and cosine of an exact number. The multiple of a quarter turn that is subtracted needs as many more places
as the number has before its point. -/
def sinCos (p : Nat) (x : Exact) : Enclosure p × Enclosure p :=
  let q := p + (x.significand.log2 + x.exponent).toNat + 8
  let quarter : Enclosure q := (pi q).scale (-1)
  let wide := ofExact q x
  let turns := (wide.lo + quarter.hi / 2) / quarter.hi
  let r := (wide.sub (quarter.mulInt turns)).withPlaces p
  let (s, c) := (sinSmall r, cosSmall r)
  match turns % 4 with
  | 0 => (s, c)
  | 1 => (c, s.neg)
  | 2 => (s.neg, c.neg)
  | _ => (c.neg, s)

/-- The sine of `π` times an exact number, of magnitude at most one half. -/
def sinPi (p : Nat) (x : Exact) : Enclosure p := sinSmall ((pi p).mulExact x)

end Enclosure

end PrecisionAudit
