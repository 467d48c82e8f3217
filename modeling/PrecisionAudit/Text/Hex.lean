/-!
# Hexadecimal text

* `Hex.digits`: the digits of a number, without leading zeros.
* `Hex.Style`, `Hex.format`: digits with a mark, padded to a width.
* `Hex.readWord`: reads a 32-bit word from digits with an optional mark.
-/

namespace PrecisionAudit

-- a power is that of the core library, whatever other instances are in scope
attribute [local instance (2000)] instPowNat

/-- Pads a text on the left. -/
def padStart (width : Nat) (fill : Char) (text : String) : String :=
  "".pushn fill (width - text.length) ++ text

/-- Pads a text on the right. -/
def padEnd (width : Nat) (fill : Char) (text : String) : String :=
  text ++ "".pushn fill (width - text.length)

theorem toList_pushn (text : String) (c : Char) (count : Nat) :
    (text.pushn c count).toList = text.toList ++ List.replicate count c := by
  induction count with
  | zero => exact (List.append_nil _).symm
  | succ count ih =>
    rw [String.pushn_eq_repeat_push] at ih ⊢
    rw [Nat.repeat, String.toList_push, ih, List.append_assoc, List.replicate_succ']

theorem toList_padStart (width : Nat) (fill : Char) (text : String) :
    (padStart width fill text).toList = List.replicate (width - text.length) fill ++ text.toList := by
  rw [padStart, String.toList_append, toList_pushn]
  rfl

theorem toList_padEnd (width : Nat) (fill : Char) (text : String) :
    (padEnd width fill text).toList = text.toList ++ List.replicate (width - text.length) fill := by
  rw [padEnd, String.toList_append, toList_pushn]
  rfl

namespace Hex

/-- The digit of a value below sixteen. -/
def digitChar (upper : Bool) (d : Nat) : Char :=
  if d < 10 then Char.ofNat (48 + d) else Char.ofNat ((if upper then 55 else 87) + d)

/-- The digits of a number in base sixteen, the most significant first. -/
def digitChars (upper : Bool) (n : Nat) : List Char :=
  if n < 16 then [digitChar upper n] else digitChars upper (n / 16) ++ [digitChar upper (n % 16)]
termination_by n
decreasing_by omega

def digits (upper : Bool) (n : Nat) : String := String.ofList (digitChars upper n)

theorem toList_digits (upper : Bool) (n : Nat) : (digits upper n).toList = digitChars upper n := String.toList_ofList

/-- Where padding goes. -/
inductive Padding
  | none
  | start
  | finish
  /-- Zeros between the mark and the digits. -/
  | zeros
  deriving DecidableEq, Repr

/-- How a number is laid out in hexadecimal. -/
structure Style where
  upper : Bool
  /-- Whether the digits follow the mark `0x`. -/
  marked : Bool
  padding : Padding
  width : Nat
  deriving Repr

def format (style : Style) (n : Nat) : String :=
  let mark := if style.marked then "0x" else ""
  let body := digits style.upper n
  match style.padding with
  | .none => mark ++ body
  | .start => padStart style.width ' ' (mark ++ body)
  | .finish => padEnd style.width ' ' (mark ++ body)
  | .zeros => mark ++ padStart (style.width - mark.length) '0' body

/-- Lower case digits after the mark, without padding. -/
def marked (n : Nat) : String := format ⟨false, true, .none, 0⟩ n

/-- Lower case digits after the mark, padded with zeros to a number of digits. -/
def word (digitCount n : Nat) : String := "0x" ++ padStart digitCount '0' (digits false n)

/-! ## Reading -/

/-- The value of a digit, in either case. -/
def digitValue? (c : Char) : Option Nat :=
  if '0' ≤ c ∧ c ≤ '9' then some (c.toNat - 48)
  else if 'a' ≤ c ∧ c ≤ 'f' then some (c.toNat - 87)
  else if 'A' ≤ c ∧ c ≤ 'F' then some (c.toNat - 55)
  else none

/-- Why a text is no word. -/
inductive ReadError
  | empty
  | invalidDigit
  | tooLarge
  deriving DecidableEq, Repr

def ReadError.message : ReadError → String
  | empty => "cannot parse integer from empty string"
  | invalidDigit => "invalid digit found in string"
  | tooLarge => "number too large to fit in target type"

/-- Reads digits after what has been read so far. The first fault from the left decides. -/
def readDigits (bound : Nat) : Nat → List Char → Except ReadError Nat
  | value, [] => .ok value
  | value, c :: rest =>
    match digitValue? c with
    | none => .error .invalidDigit
    | some d => if bound ≤ value * 16 + d then .error .tooLarge else readDigits bound (value * 16 + d) rest

/-- Removes the mark `0x` or `0X`, at most once. -/
def stripMark : List Char → List Char
  | '0' :: 'x' :: rest => rest
  | '0' :: 'X' :: rest => rest
  | cs => cs

/-- Reads a number below `bound`: an optional plus sign and at least one digit. -/
def readNumber (bound : Nat) : List Char → Except ReadError Nat
  | [] => .error .empty
  | ['+'] => .error .invalidDigit
  | '+' :: rest => readDigits bound 0 rest
  | cs => readDigits bound 0 cs

/-- Reads a 32-bit word, with or without the mark. -/
def readWord (text : String) : Except ReadError Nat := readNumber (2 ^ (32 : Nat)) (stripMark text.toList)

end Hex

end PrecisionAudit
