import PrecisionAudit.Scalar.Order
import PrecisionAudit.Decimal.Text

/-!
# Working precisions

A result is produced and judged in one of five precisions: three narrow formats and the two native ones. A narrow
number takes part in comparisons as its widened value and is shown as its stored word; a native number stands for
itself and is shown in decimal.

* `Precision`: the five precisions, with their names and the names other tools give them.
* `Precision.Value`: a number of a precision.
* `Precision.ofDouble`, `Precision.toDouble`, `Precision.compare?`, `Precision.text`.
-/

namespace PrecisionAudit

/-- A precision in which results are produced and judged. -/
inductive Precision
  | half
  | bfloat
  | tfloat
  | single
  | double
  deriving DecidableEq, Repr, Inhabited

namespace Precision

/-- All precisions, in the order in which they are listed. -/
def all : List Precision := [half, bfloat, tfloat, single, double]

def name : Precision → String
  | half => "half"
  | bfloat => "bfloat"
  | tfloat => "tfloat"
  | single => "float"
  | double => "double"

/-- Reads a precision from its name or one of its short names, in any case. -/
def parse? (text : String) : Option Precision :=
  match String.ofList (text.toList.map Char.toLower) with
  | "half" | "f16" => some half
  | "bfloat" | "bfloat16" | "bf16" => some bfloat
  | "tfloat" | "tf32" => some tfloat
  | "float" | "f32" => some single
  | "double" | "f64" => some double
  | _ => none

/-- Whether the precision is one of the narrow formats. -/
def isCustom : Precision → Bool
  | half | bfloat | tfloat => true
  | single | double => false

/-- The name of the type that holds a value in device source code. -/
def deviceName : Precision → String
  | half => "half"
  | bfloat => "ushort"
  | tfloat | single => "float"
  | double => "double"

/-- The name of the type in the vector dialect of device source code. -/
def vectorDialectName : Precision → String
  | bfloat => "bfloat16"
  | p => p.name

/-- The format of the numbers of a precision. -/
@[reducible] def format : Precision → Format
  | half => .half
  | bfloat => .bfloat
  | tfloat => .tfloat
  | single => .single
  | double => .double

/-- The size of a stored value. -/
def storageBytes (p : Precision) : Nat := p.format.storageWidth / 8

/-- A number of a precision. -/
abbrev Value (p : Precision) := Scalar p.format

/-- The nearest number of a precision. The narrow formats are reached through single precision. -/
def ofDouble : (p : Precision) → Double → p.Value
  | half, x => .ofSingle .half x.doubleToSingle
  | bfloat, x => .ofSingle .bfloat x.doubleToSingle
  | tfloat, x => .ofSingle .tfloat x.doubleToSingle
  | single, x => x.doubleToSingle
  | double, x => x

/-- The number in double precision. -/
def toDouble : (p : Precision) → p.Value → Double
  | half, x | bfloat, x | tfloat, x => x.widen.singleToDouble
  | single, x => x.singleToDouble
  | double, x => x

/-- The order of two numbers; a NaN is unordered. -/
def compare? : (p : Precision) → p.Value → p.Value → Option Ordering
  | half, x, y | bfloat, x, y | tfloat, x, y => x.widen.compare? y.widen
  | single, x, y | double, x, y => x.compare? y

/-- Whether `x` is at most `y`; false for a NaN. -/
def le (p : Precision) (x y : p.Value) : Bool := p.compare? x y == some .lt || p.compare? x y == some .eq

/-- How a number is shown: the stored word of a narrow number, the shortest decimal of a native one. -/
def text (p : Precision) (x : p.Value) : String :=
  if p.isCustom then Hex.word (p.format.storageWidth / 4) x.toNat else x.decimalText

/-- The name under which a narrow number is shown together with its value. -/
def title : Precision → String
  | half => "Half"
  | bfloat => "Bfloat"
  | tfloat => "Tfloat"
  | single => "Float"
  | double => "Double"

/-- The stored word of a narrow number with the number it stands for. -/
def debugText (p : Precision) (x : p.Value) : String :=
  if p.isCustom then s!"{p.title}({p.text x} = {x.widen.debugText})" else x.debugText

end Precision

end PrecisionAudit
