import PrecisionAudit.Text.Hex
import PrecisionAudit.Text.Hidden

/-!
# Quoted text

A text between double quotes in which quotes, backslashes and characters that do not show what they are stand as
escapes.
-/

namespace PrecisionAudit

/-- How a character stands in a quoted text. -/
def quotedChar (c : Char) : String :=
  match c with
  | '"' => "\\\""
  | '\\' => "\\\\"
  | '\n' => "\\n"
  | '\r' => "\\r"
  | '\t' => "\\t"
  | c =>
    if c.toNat = 0 then "\\0"
    else if isHidden c then "\\u\x7b" ++ Hex.digits false c.toNat ++ "\x7d"
    else c.toString

/-- A text between quotes. -/
def quoted (text : String) : String := "\"" ++ String.join (text.toList.map quotedChar) ++ "\""

end PrecisionAudit
