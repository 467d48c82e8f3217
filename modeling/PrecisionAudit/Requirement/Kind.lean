/-!
# Kinds of requirements

The names of the requirements that a result can be judged by, as they are written in case files.
-/

namespace PrecisionAudit

/-- What a requirement bounds. -/
inductive RequirementKind
  | errorValue
  | ulpValue
  | valueRange
  | any
  | undefined
  deriving DecidableEq, Repr, Inhabited

namespace RequirementKind

def all : List RequirementKind := [errorValue, ulpValue, valueRange, any, undefined]

def name : RequirementKind → String
  | errorValue => "error_value"
  | ulpValue => "ulp_value"
  | valueRange => "value_range"
  | any => "any"
  | undefined => "undefined"

/-- Reads a kind from its exact name. -/
def parse? (text : String) : Option RequirementKind := all.find? (·.name == text)

end RequirementKind

/-- One of the two numbers that a requirement may carry. -/
inductive BoundField
  | value
  | value2
  deriving DecidableEq, Repr, Inhabited

def BoundField.name : BoundField → String
  | value => "value"
  | value2 => "value2"

end PrecisionAudit
