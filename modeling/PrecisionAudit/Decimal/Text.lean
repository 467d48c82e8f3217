import PrecisionAudit.Decimal.Shortest
import PrecisionAudit.Text.Hex

/-!
# Decimal text of numbers

* `Decimal.positional`, `Decimal.scientific`: the two ways to write a decimal.
* `Scalar.decimalText`: the plain text of a number, never with an exponent.
* `Scalar.debugText`: the text that marks a number as floating-point, with an exponent at the extremes.
-/

namespace PrecisionAudit

namespace Decimal

/-- Digits and point, without an exponent. Zeros fill the places between the digits and the point. -/
def positional (d : Decimal) : String :=
  let digits := toString d.digits
  if 0 ≤ d.exponent then
    digits.pushn '0' d.exponent.toNat
  else
    let places := (-d.exponent).toNat
    if digits.length ≤ places then
      "0." ++ padStart places '0' digits
    else
      let whole := digits.length - places
      String.ofList (digits.toList.take whole) ++ "." ++ String.ofList (digits.toList.drop whole)

/-- The exponent of the leading digit. -/
def leadingExponent (d : Decimal) : Int := d.exponent + (toString d.digits).length - 1

/-- One digit before the point, the others behind it, and the exponent of the first. -/
def scientific (d : Decimal) : String :=
  let exponent := toString d.leadingExponent
  match (toString d.digits).toList with
  | [] => ""
  | [c] => c.toString ++ "e" ++ exponent
  | c :: rest => c.toString ++ "." ++ String.ofList rest ++ "e" ++ exponent

/-- The leading exponents that `Scalar.debugText` writes without an exponent. -/
def isPlain (d : Decimal) : Bool := d.digits == 0 || (-4 ≤ d.leadingExponent && d.leadingExponent < 16)

end Decimal

namespace Scalar

variable {f : Format}

/-- The text of a number, given the text of a finite magnitude. -/
def signedText (x : Scalar f) (finite : Decimal → String) : String :=
  match x.datum with
  | .nan => "NaN"
  | .infinite negative => if negative then "-inf" else "inf"
  | .finite a => (if a.negative then "-" else "") ++ finite (Decimal.shortest x)

/-- Shortest digits that read back, without an exponent; an integer has no point. -/
def decimalText (x : Scalar f) : String := x.signedText Decimal.positional

/-- Shortest digits that read back; an integer keeps one place, and very small and very large numbers are written
with an exponent. -/
def debugText (x : Scalar f) : String :=
  x.signedText fun d =>
    if !d.isPlain then d.scientific
    else if 0 ≤ d.exponent then d.positional ++ ".0"
    else d.positional

end Scalar

end PrecisionAudit
