import PrecisionAudit.Elementary.Exponential
import PrecisionAudit.Enclosure.Trigonometric

/-!
# Circular functions

Correctly rounded circular functions and their inverses.
-/

namespace PrecisionAudit

namespace Elementary

variable {f : Format}

def sin (x : Scalar f) : Scalar f :=
  keepingZero x (fun _ => .defaultNaN f) fun a => roundReal f fun p => (Enclosure.sinCos p a).1.bracket 0

def cos (x : Scalar f) : Scalar f :=
  oneAtZero x (fun _ => .defaultNaN f) fun a => roundReal f fun p => (Enclosure.sinCos p a).2.bracket 0

def tan (x : Scalar f) : Scalar f :=
  keepingZero x (fun _ => .defaultNaN f) fun a =>
    roundReal f fun p =>
      let (s, c) := Enclosure.sinCos p a
      (s.div c).bracket 0

/-! ## Inverse functions -/

/-- A multiple of `π` divided by a power of two, rounded. -/
def piTimes (f : Format) (negative : Bool) (n : Nat) (k : Int) : Scalar f :=
  signed negative (roundReal f fun p => ((Enclosure.pi p).mulInt n).bracket k)

def asin (x : Scalar f) : Scalar f :=
  keepingZero x (fun _ => .defaultNaN f) fun a =>
    match a.abs.compare .one with
    | .gt => .defaultNaN f
    | .eq => piTimes f a.negative 1 (-1)
    | .lt => signed a.negative <| roundReal f fun p =>
      ((Enclosure.ofExact p a.abs).div (Enclosure.ofExact p (Exact.one.sub (a.mul a))).sqrt).atan.bracket 0

/-- Twice the angle whose tangent is `√((1 - x) / (1 + x))`. -/
def acos (x : Scalar f) : Scalar f :=
  match x.datum with
  | .nan => x.quieted
  | .infinite _ => .defaultNaN f
  | .finite a =>
    match a.abs.compare .one with
    | .gt => .defaultNaN f
    | .eq => if a.negative then piTimes f false 1 0 else .zero f
    | .lt => roundReal f fun p =>
      let (num, den) := (Exact.one.sub a).ratio (Exact.one.add a)
      (Enclosure.ofRatio p num den).sqrt.atan.bracket 1

def atan (x : Scalar f) : Scalar f :=
  keepingZero x (fun s => piTimes f s 1 (-1)) fun a =>
    signed a.negative <| roundReal f fun p =>
      let (num, den) := a.abs.ratio .one
      (Enclosure.atanRatio p num den).bracket 0

/-- The angle of the point with the coordinates `x` and `y`. -/
def atan2 (y x : Scalar f) : Scalar f :=
  let side := y.isNegative
  if y.isNaN || x.isNaN then
    Scalar.propagate y x
  else if y.isZero then
    if x.isNegative then piTimes f side 1 0 else .ofParts f side 0
  else if x.isZero then
    piTimes f side 1 (-1)
  else if y.isInfinite then
    if !x.isInfinite then piTimes f side 1 (-1)
    else if x.isNegative then piTimes f side 3 (-2) else piTimes f side 1 (-2)
  else if x.isInfinite then
    if x.isNegative then piTimes f side 1 0 else .ofParts f side 0
  else
    let (num, den) := y.exact.abs.ratio x.exact.abs
    signed side <| roundReal f fun p =>
      let angle := Enclosure.atanRatio p num den
      (if x.isNegative then (Enclosure.pi p).sub angle else angle).bracket 0

end Elementary

end PrecisionAudit
