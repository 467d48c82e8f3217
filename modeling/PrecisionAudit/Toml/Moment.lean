import PrecisionAudit.Decimal.Read

/-!
# Dates and times in TOML

A date is a year of four digits, a month and a day of that month. A time of day is an hour, a minute and a second,
which may be a leap second and have decimals. Both may be written together, with a `T` or a blank between them, and only
then an offset from universal time may follow.

`Toml.skipMoment?` skips a date, a time of day or both.

Each function takes the text to read and returns the rest.
-/

namespace PrecisionAudit

namespace Toml

/-! ## The calendar -/

/-- Whether a year has a leap day. -/
def isLeapYear (year : Nat) : Bool := year % 4 == 0 && (year % 100 != 0 || year % 400 == 0)

/-- The number of days in a month. -/
def daysInMonth (year month : Nat) : Nat :=
  match month with
  | 2 => if isLeapYear year then 29 else 28
  | 4 | 6 | 9 | 11 => 30
  | _ => 31

/-! ## Reading -/

/-- A number between two bounds, in a fixed number of decimal digits. -/
def readBounded? (digitCount least greatest : Nat) (cs : List Char) : Option (Nat × List Char) :=
  let written := cs.take digitCount
  let n := (Decimal.readDigits 0 0 written).1
  if written.length = digitCount ∧ written.all Char.isDigit ∧ least ≤ n ∧ n ≤ greatest then
    some (n, cs.drop digitCount)
  else
    none

/-- Skips a date. -/
def skipDate? (cs : List Char) : Option (List Char) := do
  let (year, '-' :: rest) ← readBounded? 4 0 9999 cs | none
  let (month, '-' :: rest) ← readBounded? 2 1 12 rest | none
  let (_, rest) ← readBounded? 2 1 (daysInMonth year month) rest
  return rest

/-- Skips an hour and a minute. -/
def skipMinute? (cs : List Char) : Option (List Char) := do
  let (_, ':' :: rest) ← readBounded? 2 0 23 cs | none
  let (_, rest) ← readBounded? 2 0 59 rest
  return rest

/-- Skips a time of day. -/
def skipTime? (cs : List Char) : Option (List Char) := do
  let ':' :: rest ← skipMinute? cs | none
  let (_, rest) ← readBounded? 2 0 60 rest
  match rest with
  | '.' :: c :: decimals => return if c.isDigit then decimals.dropWhile Char.isDigit else rest
  | rest => return rest

/-- Skips an offset from universal time, if there is one. -/
def skipOffset : List Char → List Char
  | 'Z' :: rest | 'z' :: rest => rest
  | '+' :: rest => (skipMinute? rest).getD ('+' :: rest)
  | '-' :: rest => (skipMinute? rest).getD ('-' :: rest)
  | cs => cs

/-- Skips a time of day with its offset after a date, if there is one. -/
def skipTimeAfterDate : List Char → List Char
  | [] => []
  | c :: rest =>
    if c = 'T' ∨ c = 't' ∨ c = ' ' then
      match skipTime? rest with
      | some rest => skipOffset rest
      | none => c :: rest
    else
      c :: rest

/-- Skips a date, a time of day or both. -/
def skipMoment? (cs : List Char) : Option (List Char) :=
  match skipDate? cs with
  | some rest => some (skipTimeAfterDate rest)
  | none => skipTime? cs

end Toml

end PrecisionAudit
