import PrecisionAudit.Data.Basic
import PrecisionAudit.Decimal.Read
import PrecisionAudit.Text.Hex

/-!
# Plain values in TOML

Truth values and numbers are written without quotes. Digits may be grouped by single underscores between them. An
integer fits 64 bits with its sign. A number with a point or an exponent is rounded to double precision, and a
positive one must not be so large that it becomes infinite.

`Toml.plain?` is the value of a text without quotes.
-/

namespace PrecisionAudit

-- a power is that of the core library, whatever other instances are in scope
attribute [local instance (2000)] instPowNat

namespace Toml

/-- Whether a character can be part of a value without quotes. -/
def isPlain (c : Char) : Bool := c.isAlphanum || c == '+' || c == '-' || c == '_' || c == '.'

/-- The digits of a number without the underscores between them. -/
def ungroup? (isDigit : Char → Bool) : List Char → Option (List Char)
  | [] => none
  | [c] => if isDigit c then some [c] else none
  | c :: '_' :: rest => if isDigit c then (ungroup? isDigit rest).map (c :: ·) else none
  | c :: rest => if isDigit c then (ungroup? isDigit rest).map (c :: ·) else none

/-- Whether digits are those of a number without needless zeros. -/
def isCanonical : List Char → Bool
  | '0' :: _ :: _ => false
  | _ => true

/-- An integer, if it fits 64 bits. -/
def integer? (n : Int) : Option Data :=
  if -(2 ^ (63 : Nat) : Int) ≤ n ∧ n < (2 ^ (63 : Nat) : Int) then some (.integer n) else none

/-- An integer in a base of at most sixteen. -/
def radix? (base : Nat) (cs : List Char) : Option Data := do
  let digits ← ungroup? (fun c => (Hex.digitValue? c).any (· < base)) cs
  integer? (digits.foldl (fun n c => n * base + (Hex.digitValue? c).getD 0) 0)

/-- A real number, if it has no value that is too large. -/
def real? (literal : Decimal.Literal) : Option Data :=
  let x := Scalar.ofDecimal .double literal
  if x.isInfinite && !x.isNegative then none else some (.real x)

def isGrouped (c : Char) : Bool := c.isDigit || c == '_'

/-- The digits after a point, if there is a point. -/
def fraction? : List Char → Option (List Char × List Char)
  | '.' :: rest =>
    (ungroup? Char.isDigit (rest.takeWhile isGrouped)).map fun ds => ('.' :: ds, rest.dropWhile isGrouped)
  | cs => some ([], cs)

/-- The exponent that ends a number, if there is one. -/
def exponent? : List Char → Option (List Char)
  | [] => some []
  | c :: rest =>
    if c = 'e' ∨ c = 'E' then
      match rest with
      | '+' :: rest => (ungroup? Char.isDigit rest).map ('e' :: ·)
      | '-' :: rest => (ungroup? Char.isDigit rest).map fun ds => 'e' :: '-' :: ds
      | rest => (ungroup? Char.isDigit rest).map ('e' :: ·)
    else
      none

/-- A decimal number after its sign. -/
def decimal? (negative : Bool) (cs : List Char) : Option Data := do
  let whole ← ungroup? Char.isDigit (cs.takeWhile isGrouped)
  if !isCanonical whole then none
  let (fraction, rest) ← fraction? (cs.dropWhile isGrouped)
  let exponent ← exponent? rest
  if fraction.isEmpty && exponent.isEmpty then
    let magnitude := (Decimal.readDigits 0 0 whole).1
    integer? (if negative then -magnitude else magnitude)
  else
    real? (← Decimal.Literal.parseMagnitude? negative (whole ++ fraction ++ exponent))

/-- A number after its sign: an infinity, NaN or a decimal number. -/
def signed? (negative : Bool) (cs : List Char) : Option Data :=
  match cs with
  | ['i', 'n', 'f'] => some (.real (.infinity .double negative))
  | ['n', 'a', 'n'] => some (.real (if negative then (Scalar.defaultNaN .double).neg else .defaultNaN .double))
  | cs => decimal? negative cs

/-- The value of a text without quotes. -/
def plain? (cs : List Char) : Option Data :=
  match cs with
  | ['t', 'r', 'u', 'e'] => some (.bool true)
  | ['f', 'a', 'l', 's', 'e'] => some (.bool false)
  | '0' :: 'x' :: rest => radix? 16 rest
  | '0' :: 'o' :: rest => radix? 8 rest
  | '0' :: 'b' :: rest => radix? 2 rest
  | '+' :: rest => signed? false rest
  | '-' :: rest => signed? true rest
  | cs => signed? false cs

end Toml

end PrecisionAudit
