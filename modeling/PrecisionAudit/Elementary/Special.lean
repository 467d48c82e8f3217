import PrecisionAudit.Elementary.Exponential
import PrecisionAudit.Enclosure.Gamma

/-!
# The gamma function and the error function

Correctly rounded special functions. Factorials are exact, and beyond `2 ^ 12` the gamma function leaves the range of
every format in use.
-/

namespace PrecisionAudit

namespace Elementary

variable {f : Format}

/-- The product of the integers from one to `n`. -/
def factorial : Nat → Nat
  | 0 => 1
  | n + 1 => (n + 1) * factorial n

/-- Whether the gamma function of a number that is no integer is negative: where the next integer below is odd and
negative. -/
def gammaNegative (a : Exact) : Bool :=
  a.negative && (a.toIntegral (RoundingMode.downward.roundQuotient true)).inUnits 0 % 2 == 1

/-- The gamma function. -/
def gamma (x : Scalar f) : Scalar f :=
  match x.datum with
  | .nan => x.quieted
  | .infinite s => if s then .defaultNaN f else x
  | .finite a =>
    if a.isZero then .infinity f a.negative
    else match a.toInt? with
      | some n =>
        if n < 0 then .defaultNaN f
        else if 256 < n then .infinity f false
        else (Exact.ofInt (factorial (n.toNat - 1))).round f .nearestEven
      | none =>
        let negative := gammaNegative a
        if a.reaches 12 then (if a.negative then .ofParts f negative 0 else .infinity f false)
        else signed negative <| roundReal f fun p =>
          let (e, n) := Enclosure.gamma p a
          e.bracket n

/-- The logarithm of the size of the gamma function. -/
def logGamma (x : Scalar f) : Scalar f :=
  match x.datum with
  | .nan => x.quieted
  | .infinite _ => .infinity f false
  | .finite a =>
    match a.toInt? with
    | some n =>
      if n ≤ 0 then .infinity f false
      else if n ≤ 2 then .zero f
      else roundReal f fun p => (Enclosure.logGamma p a).bracket 0
    | none =>
      roundReal f fun p => (if a.negative then Enclosure.logGammaReflected p a else Enclosure.logGamma p a).bracket 0

/-- The error function. Far out it is one to the last place. -/
def erf (x : Scalar f) : Scalar f :=
  let limit := fun (negative : Bool) => signed negative (Scalar.one f)
  keepingZero x limit fun a =>
    if a.reaches 5 then limit a.negative
    else signed a.negative (roundReal f fun p => (Enclosure.erf p a.abs).bracket 0)

/-- What the error function lacks to one. -/
def erfc (x : Scalar f) : Scalar f :=
  let limit := fun (negative : Bool) => if negative then Scalar.ofInt f 2 else .zero f
  oneAtZero x limit fun a =>
    if a.reaches 5 then limit a.negative
    else roundReal f fun p =>
      let e := Enclosure.erf p a.abs
      (if a.negative then (Enclosure.one p).add e else (Enclosure.one p).sub e).bracket 0

end Elementary

end PrecisionAudit
