import PrecisionAudit.Scalar.Exact

/-!
# Reading decimal numbers

A decimal text is a sign, digits with an optional point and an optional exponent, or the name of an infinity or
of NaN in any case. The number is rounded once, to the nearest of its format, whatever its length.

* `Decimal.Literal`: the parts of a written number.
* `Decimal.Literal.parse?`: the grammar.
* `Scalar.ofDecimal`, `Scalar.parse?`: the number that a text stands for in a format.
-/

namespace PrecisionAudit

-- a power is that of the core library, whatever other instances are in scope
attribute [local instance (2000)] instPowNat

namespace Decimal

/-- The magnitude `digits * 10 ^ exponent` of a written number. -/
structure Literal where
  negative : Bool
  digits : Nat
  exponent : Int
  deriving DecidableEq, Repr, Inhabited

/-- Reads the digits at the front of a text after what has been read so far, and counts them. -/
def readDigits : Nat → Nat → List Char → Nat × Nat × List Char
  | value, count, c :: rest =>
    if c.isDigit then readDigits (value * 10 + (c.toNat - 48)) (count + 1) rest else (value, count, c :: rest)
  | value, count, [] => (value, count, [])

/-- Removes one sign from the front of a text. -/
def readSign : List Char → Bool × List Char
  | '-' :: rest => (true, rest)
  | '+' :: rest => (false, rest)
  | cs => (false, cs)

/-- The exponent part of a number, which may be absent but not empty. -/
def readExponent? : List Char → Option Int
  | [] => some 0
  | c :: rest =>
    if c = 'e' ∨ c = 'E' then
      let (negative, rest) := readSign rest
      match readDigits 0 0 rest with
      | (_, 0, _) => none
      | (value, _, []) => some (if negative then -value else value)
      | _ => none
    else
      none

/-- Reads a number without its sign: digits, a point and an exponent, with at least one digit around the point. -/
def Literal.parseMagnitude? (negative : Bool) (cs : List Char) : Option Literal := do
  let (whole, wholeCount, rest) := readDigits 0 0 cs
  let (digits, places, rest) :=
    match rest with
    | '.' :: rest => readDigits whole 0 rest
    | _ => (whole, 0, rest)
  if wholeCount + places = 0 then none
  let exponent ← readExponent? rest
  some ⟨negative, digits, exponent - places⟩

end Decimal

namespace Scalar

/-- The number of decimal digits of a positive number, at most one more than written here. -/
def decimalSize (n : Nat) : Int := n.log2 * 30103 / 100000 + 1

/-- The nearest number of a format. Numbers far outside the format's range are decided by their size alone, so
that no power of ten is larger than the format needs. -/
def ofDecimal (f : Format) (literal : Decimal.Literal) : Scalar f :=
  let ⟨negative, digits, exponent⟩ := literal
  let size := exponent + decimalSize digits
  if digits = 0 then
    ofParts f negative 0
  else if f.maxExponent < 3 * (size - 2) then
    infinity f negative
  else if 3 * (size + 1) < f.minExponent - f.mantissaBits - 1 then
    ofParts f negative 0
  else if 0 ≤ exponent then
    ofParts f negative (f.encodeRatio .nearestEven negative (digits * 10 ^ exponent.toNat) 1 0)
  else
    ofParts f negative (f.encodeRatio .nearestEven negative digits (10 ^ (-exponent).toNat) 0)

/-- Reads a number of a format. -/
def parse? (f : Format) (text : String) : Option (Scalar f) :=
  let (negative, cs) := Decimal.readSign text.toList
  let name := String.ofList (cs.map Char.toLower)
  if name == "inf" || name == "infinity" then
    some (infinity f negative)
  else if name == "nan" then
    some (ofParts f negative (f.infinity + f.quietBit))
  else
    (Decimal.Literal.parseMagnitude? negative cs).map (ofDecimal f)

end Scalar

end PrecisionAudit
