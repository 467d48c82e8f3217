import PrecisionAudit.Enclosure.Exponential
import PrecisionAudit.Enclosure.Round

/-!
# Exponential and hyperbolic functions

Correctly rounded functions of one number of a format. Zeros, infinities and the edges of a domain are answered by
rule; every other value is enclosed and rounded once. Arguments from `2 ^ 12` on are beyond every exponential's range.
-/

namespace PrecisionAudit

-- a power is that of the core library, whatever other instances are in scope
attribute [local instance (2000)] instPowNat

namespace Exact

def abs (x : Exact) : Exact := { x with negative := false }

def one : Exact := .ofInt 1

/-- `x - y`. -/
def sub (x y : Exact) : Exact := x.add y.neg

/-- The numerator and denominator of a positive quotient of exact numbers. -/
def ratio (x y : Exact) : Nat × Nat :=
  let unit := min x.exponent y.exponent
  ((x.inUnits unit).natAbs, (y.inUnits unit).natAbs)

/-- Whether the magnitude is at least `2 ^ k`. -/
def reaches (x : Exact) (k : Int) : Bool := x.significand != 0 && k ≤ x.significand.log2 + x.exponent

/-- The number as an integer, if it is one. -/
def toInt? (x : Exact) : Option Int :=
  if 0 ≤ x.exponent then
    some (x.inUnits 0)
  else if x.significand % 2 ^ (-x.exponent).toNat = 0 then
    let size : Int := x.significand / 2 ^ (-x.exponent).toNat
    some (if x.negative then -size else size)
  else
    none

end Exact

namespace Elementary

variable {f : Format}

/-- A function that keeps zeros and NaNs, given what it does with infinities and with other numbers. -/
def keepingZero (x : Scalar f) (infinite : Bool → Scalar f) (finite : Exact → Scalar f) : Scalar f :=
  match x.datum with
  | .nan => x.quieted
  | .infinite s => infinite s
  | .finite a => if a.isZero then x else finite a

/-- A function that is one at zero, given what it does with infinities and with other numbers. -/
def oneAtZero (x : Scalar f) (infinite : Bool → Scalar f) (finite : Exact → Scalar f) : Scalar f :=
  match x.datum with
  | .nan => x.quieted
  | .infinite s => infinite s
  | .finite a => if a.isZero then .one f else finite a

/-- A number with a sign, or with the opposite one. -/
def signed (negative : Bool) (x : Scalar f) : Scalar f := if negative then x.neg else x

/-- The limits of an exponential: zero to the left, infinity to the right. -/
def exponentialLimit (f : Format) (negative : Bool) : Scalar f :=
  if negative then .zero f else .infinity f false

/-- The exponential of an enclosure, rounded. -/
def roundExp (f : Format) (argument : (p : Nat) → Enclosure p) : Scalar f :=
  roundReal f fun p =>
    let (e, n) := (argument p).exp
    e.bracket n

def exp (x : Scalar f) : Scalar f :=
  oneAtZero x (exponentialLimit f) fun a =>
    if a.reaches 12 then exponentialLimit f a.negative else roundExp f fun p => .ofExact p a

def exp2 (x : Scalar f) : Scalar f :=
  oneAtZero x (exponentialLimit f) fun a =>
    if a.reaches 12 then exponentialLimit f a.negative
    else match a.toInt? with
      | some n => (Exact.mk false 1 n).round f .nearestEven
      | none => roundExp f fun p => (Enclosure.ln2 p).mulExact a

def exp10 (x : Scalar f) : Scalar f :=
  oneAtZero x (exponentialLimit f) fun a =>
    if a.reaches 12 then exponentialLimit f a.negative
    else match a.toInt? with
      | some (.ofNat n) => .ofParts f false (f.encodeRatio .nearestEven false (10 ^ n) 1 0)
      | some (.negSucc n) => .ofParts f false (f.encodeRatio .nearestEven false 1 (10 ^ (n + 1)) 0)
      | none => roundExp f fun p => (Enclosure.ln10 p).mulExact a

/-- The exponential less one. -/
def expMinusOne (x : Scalar f) : Scalar f :=
  let limit := fun (negative : Bool) => if negative then (Scalar.one f).neg else .infinity f false
  keepingZero x limit fun a =>
    if a.reaches 12 then limit a.negative
    else roundReal f fun p =>
      let (e, n) := (Enclosure.ofExact p a).exp
      ((e.scale n).sub (.one p)).bracket 0

/-! ## Logarithms -/

/-- A logarithm: a pole at zero, a domain without negative numbers. -/
def logarithm (x : Scalar f) (finite : Exact → Scalar f) : Scalar f :=
  match x.datum with
  | .nan => x.quieted
  | .infinite s => if s then .defaultNaN f else x
  | .finite a =>
    if a.isZero then .infinity f true
    else if a.negative then .defaultNaN f
    else if a.compare .one = .eq then .zero f
    else finite a

def log (x : Scalar f) : Scalar f := logarithm x fun a => roundReal f fun p => (Enclosure.logExact p a).bracket 0

/-- The exponent of an exact power of two. -/
def powerOfTwo? (a : Exact) : Option Int :=
  if a.significand = 2 ^ a.significand.log2 then some (a.significand.log2 + a.exponent) else none

/-- The exponent of an exact power of ten. -/
def powerOfTen? (a : Exact) : Option Nat := do
  let n ← a.toInt?
  (List.range 400).find? fun k => n == 10 ^ k

def log2 (x : Scalar f) : Scalar f :=
  logarithm x fun a =>
    match powerOfTwo? a with
    | some k => .ofInt f k
    | none => roundReal f fun p => ((Enclosure.logExact p a).div (.ln2 p)).bracket 0

def log10 (x : Scalar f) : Scalar f :=
  logarithm x fun a =>
    match powerOfTen? a with
    | some k => .ofInt f k
    | none => roundReal f fun p => ((Enclosure.logExact p a).div (.ln10 p)).bracket 0

/-- The logarithm of one more than the number. -/
def logOnePlus (x : Scalar f) : Scalar f :=
  keepingZero x (fun s => if s then .defaultNaN f else x) fun a =>
    let b := Exact.one.add a
    if b.isZero then .infinity f true
    else if b.negative then .defaultNaN f
    else roundReal f fun p => (Enclosure.logExact p b).bracket 0

/-! ## Hyperbolic functions -/

/-- The exponentials of a number and of its negative. -/
def expPair (p : Nat) (a : Exact) : Enclosure p × Enclosure p :=
  let (e, n) := (Enclosure.ofExact p a).exp
  let (e', n') := (Enclosure.ofExact p a.neg).exp
  (e.scale n, e'.scale n')

def sinh (x : Scalar f) : Scalar f :=
  keepingZero x (Scalar.infinity f) fun a =>
    if a.reaches 12 then .infinity f a.negative
    else roundReal f fun p =>
      let (up, down) := expPair p a
      (up.sub down).bracket (-1)

def cosh (x : Scalar f) : Scalar f :=
  oneAtZero x (fun _ => .infinity f false) fun a =>
    if a.reaches 12 then .infinity f false
    else roundReal f fun p =>
      let (up, down) := expPair p a
      (up.add down).bracket (-1)

def tanh (x : Scalar f) : Scalar f :=
  let limit := fun (negative : Bool) => signed negative (Scalar.one f)
  keepingZero x limit fun a =>
    if a.reaches 12 then limit a.negative
    else signed a.negative <| roundReal f fun p =>
      let (e, n) := (Enclosure.ofExact p ⟨true, a.significand, a.exponent + 1⟩).exp
      let t := e.scale n
      (((Enclosure.one p).sub t).div ((Enclosure.one p).add t)).bracket 0

/-- The square of an exact number, more or less one. -/
def squarePlus (p : Nat) (a : Exact) (n : Int) : Enclosure p := .ofExact p ((a.mul a).add (.ofInt n))

def asinh (x : Scalar f) : Scalar f :=
  keepingZero x (Scalar.infinity f) fun a =>
    signed a.negative <| roundReal f fun p =>
      ((Enclosure.ofExact p a.abs).add (squarePlus p a 1).sqrt).log.bracket 0

def acosh (x : Scalar f) : Scalar f :=
  match x.datum with
  | .nan => x.quieted
  | .infinite s => if s then .defaultNaN f else x
  | .finite a =>
    match a.compare .one with
    | .lt => .defaultNaN f
    | .eq => .zero f
    | .gt => roundReal f fun p => ((Enclosure.ofExact p a).add (squarePlus p a (-1)).sqrt).log.bracket 0

def atanh (x : Scalar f) : Scalar f :=
  keepingZero x (fun _ => .defaultNaN f) fun a =>
    match a.abs.compare .one with
    | .gt => .defaultNaN f
    | .eq => .infinity f a.negative
    | .lt => signed a.negative <| roundReal f fun p =>
      let (num, den) := (Exact.one.add a.abs).ratio (Exact.one.sub a.abs)
      (Enclosure.logRatio p num den).bracket (-1)

end Elementary

end PrecisionAudit
