import PrecisionAudit.Enclosure.Basic

/-!
# Rounding a real number that is known by enclosures

A real number is given by a way to enclose it as tightly as wanted. It is rounded to a format as soon as both ends of
an enclosure round to the same number. If they never do, the real number is one of the points where rounding changes,
and the tie rule decides.

* `Bracket`: the reals between two multiples of a power of two.
* `Bracket.round?`: the number that all of a bracket rounds to.
* `roundReal`: the correctly rounded number.
-/

namespace PrecisionAudit

/-- The reals between `lo * 2 ^ exponent` and `hi * 2 ^ exponent`. -/
structure Bracket where
  lo : Int
  hi : Int
  exponent : Int
  deriving Repr, Inhabited

/-- An enclosure times a power of two. -/
def Enclosure.bracket {p : Nat} (a : Enclosure p) (k : Int) : Bracket := ⟨a.lo, a.hi, k - p⟩

namespace Bracket

/-- The number that both ends round to. An end at zero takes the sign of the other end. -/
def round? (b : Bracket) (f : Format) : Option (Scalar f) :=
  let low := (Exact.ofUnits b.lo b.exponent false).round f .nearestEven
  let high := (Exact.ofUnits b.hi b.exponent (b.lo < 0)).round f .nearestEven
  if low = high then some low else none

/-- The point where rounding changes, which a bracket holds that is too tight to hold anything else: the middle,
rounded to one more place, and from there by the tie rule. -/
def roundTie (b : Bracket) (f : Format) : Scalar f :=
  let finer : Format := { f with mantissaBits := f.mantissaBits + 1 }
  let middle := (Exact.ofUnits (b.lo + b.hi) (b.exponent - 1) false).round finer .nearestEven
  middle.exact.round f .nearestEven

end Bracket

/-- The places that are tried, in order. -/
def placesLadder : List Nat := [96, 192, 400, 900, 2400]

/-- The number of a format nearest to a real number. -/
def roundReal (f : Format) (enclose : Nat → Bracket) : Scalar f :=
  match placesLadder.findSome? fun p => (enclose p).round? f with
  | some x => x
  | none => (enclose 2400).roundTie f

end PrecisionAudit
