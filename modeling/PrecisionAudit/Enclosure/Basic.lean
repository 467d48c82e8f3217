import PrecisionAudit.Scalar.Arithmetic

/-!
# Enclosures of real numbers

An enclosure is an interval between two multiples of `2 ^ -places` that a real number is known to lie in. Every
operation rounds its lower end down and its upper end up, so that what holds of the operands holds of the result.

* `Enclosure`: the interval, with the arithmetic operations.
* `Enclosure.ofExact`, `Enclosure.ofRatio`: enclosures of known numbers.
* `Enclosure.sumSeries`: the sum of a series whose terms at least halve.
-/

namespace PrecisionAudit

-- a power is that of the core library, whatever other instances are in scope
attribute [local instance (2000)] instPowNat

/-- The reals between `lo / 2 ^ places` and `hi / 2 ^ places`. -/
structure Enclosure (places : Nat) where
  lo : Int
  hi : Int
  deriving DecidableEq, Repr, Inhabited

namespace Enclosure

/-- The quotient by a positive number, rounded up. -/
def ceilDiv (a b : Int) : Int := -(-a / b)

/-- A power of two, as an integer. -/
def powTwo (k : Nat) : Int := ((2 ^ k : Nat) : Int)

/-- A power of two times an integer, rounded down. -/
def shiftDown (a k : Int) : Int := if 0 ≤ k then a * powTwo k.toNat else a >>> (-k).toNat

/-- A power of two times an integer, rounded up. -/
def shiftUp (a k : Int) : Int := if 0 ≤ k then a * powTwo k.toNat else -((-a) >>> (-k).toNat)

variable {p : Nat}

/-! ## Known numbers -/

/-- An exact number. -/
def ofExact (p : Nat) (x : Exact) : Enclosure p :=
  let signed : Int := if x.negative then -x.significand else x.significand
  ⟨shiftDown signed (x.exponent + p), shiftUp signed (x.exponent + p)⟩

/-- The quotient of two natural numbers, the second positive. -/
def ofRatio (p num den : Nat) : Enclosure p :=
  let scaled : Int := num * powTwo p
  ⟨scaled / den, ceilDiv scaled den⟩

def ofInt (p : Nat) (n : Int) : Enclosure p := ⟨n * powTwo p, n * powTwo p⟩

def one (p : Nat) : Enclosure p := ofInt p 1

/-! ## Arithmetic -/

def neg (a : Enclosure p) : Enclosure p := ⟨-a.hi, -a.lo⟩

def add (a b : Enclosure p) : Enclosure p := ⟨a.lo + b.lo, a.hi + b.hi⟩

def sub (a b : Enclosure p) : Enclosure p := ⟨a.lo - b.hi, a.hi - b.lo⟩

/-- All numbers within some units of the enclosure. -/
def widenBy (a : Enclosure p) (units : Nat) : Enclosure p := ⟨a.lo - units, a.hi + units⟩

/-- The product: its extremes are products of ends. -/
def mul (a b : Enclosure p) : Enclosure p :=
  let (w, x, y, z) := (a.lo * b.lo, a.lo * b.hi, a.hi * b.lo, a.hi * b.hi)
  ⟨min (min w x) (min y z) >>> p, -((-max (max w x) (max y z)) >>> p)⟩

def mulInt (a : Enclosure p) (n : Int) : Enclosure p :=
  if 0 ≤ n then ⟨a.lo * n, a.hi * n⟩ else ⟨a.hi * n, a.lo * n⟩

/-- The quotient by a positive integer. -/
def divNat (a : Enclosure p) (n : Nat) : Enclosure p := ⟨a.lo / n, ceilDiv a.hi n⟩

/-- The product with a power of two. -/
def scale (a : Enclosure p) (k : Int) : Enclosure p := ⟨shiftDown a.lo k, shiftUp a.hi k⟩

/-- The product with an exact number. -/
def mulExact (a : Enclosure p) (x : Exact) : Enclosure p :=
  (a.mulInt (if x.negative then -x.significand else x.significand)).scale x.exponent

/-- The same interval on another grid. -/
def withPlaces (a : Enclosure p) (q : Nat) : Enclosure q :=
  let k : Int := (q : Int) - p
  ⟨shiftDown a.lo k, shiftUp a.hi k⟩

/-- The quotient by a positive enclosure. -/
def divPositive (a b : Enclosure p) : Enclosure p :=
  ⟨a.lo * powTwo p / (if 0 ≤ a.lo then b.hi else b.lo), ceilDiv (a.hi * powTwo p) (if 0 ≤ a.hi then b.lo else b.hi)⟩

/-- An interval that says almost nothing. -/
def unknown (p : Nat) : Enclosure p := ⟨-powTwo (4 * p + 8192), powTwo (4 * p + 8192)⟩

/-- The quotient. Nothing is known about it if the divisor may be zero. -/
def div (a b : Enclosure p) : Enclosure p :=
  if 0 < b.lo then a.divPositive b else if b.hi < 0 then (a.divPositive b.neg).neg else unknown p

/-- The square root of a number that is not negative. -/
def sqrt (a : Enclosure p) : Enclosure p :=
  ⟨Exact.isqrt (a.lo.toNat * 2 ^ p), Exact.isqrt (a.hi.toNat * 2 ^ p) + 1⟩

def square (a : Enclosure p) : Enclosure p := a.mul a

/-- The square, taken some number of times. -/
def squareTimes (a : Enclosure p) : Nat → Enclosure p
  | 0 => a
  | k + 1 => squareTimes a.square k

/-- The largest magnitude in the interval, in units. -/
def size (a : Enclosure p) : Nat := max a.lo.natAbs a.hi.natAbs

/-! ## Series -/

/-- Adds up `read k term` over the terms that `next k` leads to, until a term is at most two units. Terms that at
least halve leave a rest of no more than the last one. -/
def sumLoop (next : Nat → Enclosure p → Enclosure p) (read : Nat → Enclosure p → Enclosure p) :
    Nat → Nat → Enclosure p → Enclosure p → Enclosure p
  | 0, _, _, _ => unknown p
  | fuel + 1, k, term, sum =>
    let sum := sum.add (read k term)
    if term.size ≤ 2 then sum.widenBy 4 else sumLoop next read fuel (k + 1) (next k term) sum

/-- The sum of a series of which each summand is read off a term, and each term leads to the next. -/
def sumSeries (first : Enclosure p) (next read : Nat → Enclosure p → Enclosure p) : Enclosure p :=
  sumLoop next read (8 * (first.size.log2 + p) + 64) 0 first ⟨0, 0⟩

/-- The sum of a series whose terms lead to each other. -/
def sumTerms (first : Enclosure p) (next : Nat → Enclosure p → Enclosure p) : Enclosure p :=
  sumSeries first next fun _ t => t

end Enclosure

end PrecisionAudit
