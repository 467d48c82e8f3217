import PrecisionAudit.Data.Basic
import PrecisionAudit.Decimal.Read
import PrecisionAudit.Text.Hex

/-!
# Reading JSON

`Json.parse?` reads a text that holds one value and blanks around it. A number without point and exponent is an
integer as long as it fits 64 bits; all other numbers, and minus zero, are reals.

Each reader takes the text to read and returns what it has read together with the rest.
-/

namespace PrecisionAudit

-- a power is that of the core library, whatever other instances are in scope
attribute [local instance (2000)] instPowNat

namespace Json

def isBlank (c : Char) : Bool := c == ' ' || c == '\n' || c == '\t' || c == '\r'

/-! ## Strings -/

/-- A code unit in four hexadecimal digits. -/
def codeUnit? (a b c d : Char) : Option Nat := do
  let digits ← [a, b, c, d].mapM Hex.digitValue?
  return digits.foldl (fun n digit => n * 16 + digit) 0

/-- The character of a code unit that stands alone. -/
def unitChar? (unit : Nat) : Option Char :=
  if 0xd800 ≤ unit ∧ unit < 0xe000 then none else some (Char.ofNat unit)

/-- The character of two code units that belong together. -/
def pairChar? (high low : Nat) : Option Char :=
  if 0xd800 ≤ high ∧ high < 0xdc00 ∧ 0xdc00 ≤ low ∧ low < 0xe000 then
    some (Char.ofNat (0x10000 + (high - 0xd800) * 0x400 + (low - 0xdc00)))
  else
    none

/-- The character of an escape with one letter. -/
def escaped? : Char → Option Char
  | '"' => some '"'
  | '\\' => some '\\'
  | '/' => some '/'
  | 'b' => some (Char.ofNat 8)
  | 'f' => some (Char.ofNat 12)
  | 'n' => some '\n'
  | 'r' => some '\r'
  | 't' => some '\t'
  | _ => none

/-- One character of a string, written as an escape or as itself. -/
def readChar? : List Char → Option (Char × List Char)
  | '\\' :: 'u' :: a :: b :: c :: d :: rest => do
    let unit ← codeUnit? a b c d
    match unitChar? unit, rest with
    | some char, _ => return (char, rest)
    | none, '\\' :: 'u' :: a :: b :: c :: d :: rest => return (← pairChar? unit (← codeUnit? a b c d), rest)
    | none, _ => none
  | '\\' :: c :: rest => (escaped? c).map (·, rest)
  | c :: rest => if c.toNat < 32 then none else some (c, rest)
  | [] => none

/-- The characters of a string up to its closing quote. -/
def readChars? : Nat → List Char → Option (List Char × List Char)
  | 0, _ => none
  | _ + 1, '"' :: rest => some ([], rest)
  | fuel + 1, cs => do
    let (c, rest) ← readChar? cs
    let (chars, rest) ← readChars? fuel rest
    return (c :: chars, rest)

/-- A string after its opening quote. -/
def readString? (cs : List Char) : Option (String × List Char) :=
  (readChars? (cs.length + 1) cs).map fun (chars, rest) => (String.ofList chars, rest)

/-! ## Numbers -/

/-- The digits at the front of a text. -/
def digitsOf (cs : List Char) : List Char × List Char := (cs.takeWhile Char.isDigit, cs.dropWhile Char.isDigit)

/-- The digits of a fraction with their point, if there is a point. -/
def readFraction? : List Char → Option (List Char × List Char)
  | '.' :: rest =>
    match digitsOf rest with
    | ([], _) => none
    | (digits, rest) => some ('.' :: digits, rest)
  | cs => some ([], cs)

/-- An exponent with its mark, if there is a mark. -/
def readExponent? : List Char → Option (List Char × List Char)
  | c :: rest =>
    if c = 'e' ∨ c = 'E' then
      let (sign, rest) := match rest with
        | '+' :: rest => (['+'], rest)
        | '-' :: rest => (['-'], rest)
        | rest => ([], rest)
      match digitsOf rest with
      | ([], _) => none
      | (digits, rest) => some ('e' :: sign ++ digits, rest)
    else
      some ([], c :: rest)
  | [] => some ([], [])

/-- Whether digits are those of an integer without needless zeros. -/
def isPlainInteger : List Char → Bool
  | [] => false
  | ['0'] => true
  | '0' :: _ => false
  | _ => true

/-- The value of a number, given its digits and what follows them. -/
def numberValue? (negative : Bool) (whole fraction exponent : List Char) : Option Data := do
  let magnitude := (Decimal.readDigits 0 0 whole).1
  let value : Int := if negative then -magnitude else magnitude
  if fraction.isEmpty && exponent.isEmpty && !(negative && magnitude == 0)
      && -(2 ^ (63 : Nat) : Int) ≤ value && value < (2 ^ (64 : Nat) : Int) then
    return .integer value
  else
    let literal ← Decimal.Literal.parseMagnitude? negative (whole ++ fraction ++ exponent)
    return .real (.ofDecimal .double literal)

/-- A number after its sign. -/
def readMagnitude? (negative : Bool) (cs : List Char) : Option (Data × List Char) := do
  let (whole, rest) := digitsOf cs
  if !isPlainInteger whole then none
  let (fraction, rest) ← readFraction? rest
  let (exponent, rest) ← readExponent? rest
  return (← numberValue? negative whole fraction exponent, rest)

/-! ## Values -/

mutual

/-- A value, with blanks before it. -/
def readValue? : Nat → List Char → Option (Data × List Char)
  | 0, _ => none
  | fuel + 1, cs =>
    match cs.dropWhile isBlank with
    | 'n' :: 'u' :: 'l' :: 'l' :: rest => some (.null, rest)
    | 't' :: 'r' :: 'u' :: 'e' :: rest => some (.bool true, rest)
    | 'f' :: 'a' :: 'l' :: 's' :: 'e' :: rest => some (.bool false, rest)
    | '"' :: rest => (readString? rest).map fun (s, rest) => (.text s, rest)
    | '-' :: rest => readMagnitude? true rest
    | '[' :: rest =>
      match rest.dropWhile isBlank with
      | ']' :: rest => some (.list [], rest)
      | rest => (readItems? fuel rest).map fun (items, rest) => (.list items, rest)
    | '\x7b' :: rest =>
      match rest.dropWhile isBlank with
      | '\x7d' :: rest => some (.table [], rest)
      | rest => (readEntries? fuel rest).map fun (entries, rest) => (.table entries, rest)
    | rest => readMagnitude? false rest

/-- The values of a list up to its closing bracket. -/
def readItems? : Nat → List Char → Option (List Data × List Char)
  | 0, _ => none
  | fuel + 1, cs => do
    let (item, rest) ← readValue? fuel cs
    match rest.dropWhile isBlank with
    | ']' :: rest => return ([item], rest)
    | ',' :: rest =>
      let (items, rest) ← readItems? fuel rest
      return (item :: items, rest)
    | _ => none

/-- The entries of a table up to its closing brace. -/
def readEntries? : Nat → List Char → Option (List (String × Data) × List Char)
  | 0, _ => none
  | fuel + 1, cs => do
    let '"' :: rest := cs.dropWhile isBlank | none
    let (key, rest) ← readString? rest
    let ':' :: rest := rest.dropWhile isBlank | none
    let (value, rest) ← readValue? fuel rest
    match rest.dropWhile isBlank with
    | '\x7d' :: rest => return ([(key, value)], rest)
    | ',' :: rest =>
      let (entries, rest) ← readEntries? fuel rest
      return ((key, value) :: entries, rest)
    | _ => none

end

/-- The value that a text holds. -/
def parse? (text : String) : Option Data := do
  let (value, rest) ← readValue? (text.length + 1) text.toList
  if rest.all isBlank then some value else none

end Json

end PrecisionAudit
