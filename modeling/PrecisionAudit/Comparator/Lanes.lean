import PrecisionAudit.Precision

/-!
# Lanes

An operand of a comparison is one number or a vector of numbers. Every access to a lane is partial: it is `none`
outside the lanes that there are. An access behind a condition is made where the condition holds, so that it fails
there like any other.
-/

namespace PrecisionAudit

/-- Numbers that are compared lane by lane. -/
inductive Lanes (p : Precision)
  /-- One number. -/
  | scalar (value : p.Value)
  /-- A vector whose width belongs to its type. -/
  | array (values : List p.Value)
  /-- A vector of any width; with one lane it counts as a number. -/
  | vector (values : List p.Value)
  deriving DecidableEq

namespace Lanes

variable {p : Precision}

def toList : Lanes p → List p.Value
  | scalar x => [x]
  | array xs | vector xs => xs

/-- The number of lanes. -/
def width (v : Lanes p) : Nat := v.toList.length

/-- The number in a lane. -/
def lane? (v : Lanes p) (index : Nat) : Option p.Value := v.toList[index]?

/-- The number in a lane, looked up only where a condition holds. The outer `none` is an access outside the lanes,
the inner one an access that is not made. -/
def guardedLane? (v : Lanes p) (present : Prop) [Decidable present] (index : Nat) : Option (Option p.Value) :=
  if present then (v.lane? index).map some else some none

/-- Whether the lanes are shown as a vector. -/
def isVector : Lanes p → Bool
  | scalar _ => false
  | array _ => true
  | vector xs => xs.length != 1

end Lanes

/-- Texts separated by commas. -/
def commaSeparated (texts : List String) : String := ", ".intercalate texts

/-- Texts in braces, separated by commas. -/
def braced (texts : List String) : String := "\x7b" ++ commaSeparated texts ++ "\x7d"

namespace Lanes

variable {p : Precision}

/-- The text of an operand; `none` if a number has no lane. -/
def text? (v : Lanes p) : Option String :=
  if v.isVector then
    ((List.range v.width).mapM fun i => (v.lane? i).map p.text).map braced
  else
    (v.lane? 0).map p.text

end Lanes

end PrecisionAudit
