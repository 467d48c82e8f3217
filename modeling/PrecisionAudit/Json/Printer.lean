import PrecisionAudit.Data.Basic
import PrecisionAudit.Decimal.Text
import PrecisionAudit.Text.Hex

/-!
# Writing JSON

`Json.compact` writes a value without blanks, `Json.pretty` with one entry a line.
-/

namespace PrecisionAudit

namespace Json

/-- How a character of a string is written. -/
def escape (c : Char) : String :=
  match c with
  | '"' => "\\\""
  | '\\' => "\\\\"
  | '\n' => "\\n"
  | '\r' => "\\r"
  | '\t' => "\\t"
  | c =>
    if c.toNat = 8 then "\\b"
    else if c.toNat = 12 then "\\f"
    else if c.toNat < 32 then "\\u" ++ padStart 4 '0' (Hex.digits false c.toNat)
    else c.toString

def quote (text : String) : String := "\"" ++ String.join (text.toList.map escape) ++ "\""

/-- A number that JSON has no name for is written as `null`. -/
def realText (x : Double) : String := if x.isFinite then x.debugText else "null"

mutual

/-- A value without blanks. -/
def compact : Data → String
  | .null => "null"
  | .bool b => toString b
  | .integer n => toString n
  | .real x => realText x
  | .text s | .moment s => quote s
  | .list items => "[" ++ ",".intercalate (compactItems items) ++ "]"
  | .table entries => "\x7b" ++ ",".intercalate (compactEntries entries) ++ "\x7d"

def compactItems : List Data → List String
  | [] => []
  | item :: rest => compact item :: compactItems rest

def compactEntries : List (String × Data) → List String
  | [] => []
  | (key, value) :: rest => (quote key ++ ":" ++ compact value) :: compactEntries rest

end

/-- Lines between two brackets, each at the given depth; without lines the brackets stand together. -/
def bracketed (opening closing : String) (depth : Nat) (lines : List String) : String :=
  let margin := fun n => "".pushn ' ' (2 * n)
  if lines.isEmpty then
    opening ++ closing
  else
    opening ++ "\n" ++ ",\n".intercalate (lines.map (margin (depth + 1) ++ ·)) ++ "\n" ++ margin depth ++ closing

mutual

/-- A value at a depth of nesting. -/
def prettyAt : Nat → Data → String
  | depth, .list items => bracketed "[" "]" depth (prettyItems depth items)
  | depth, .table entries => bracketed "\x7b" "\x7d" depth (prettyEntries depth entries)
  | _, d => compact d

def prettyItems : Nat → List Data → List String
  | _, [] => []
  | depth, item :: rest => prettyAt (depth + 1) item :: prettyItems depth rest

def prettyEntries : Nat → List (String × Data) → List String
  | _, [] => []
  | depth, (key, value) :: rest => (quote key ++ ": " ++ prettyAt (depth + 1) value) :: prettyEntries depth rest

end

/-- A value with one entry a line, indented by two blanks for each level. -/
def pretty (d : Data) : String := prettyAt 0 d

end Json

end PrecisionAudit
