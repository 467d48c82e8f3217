import PrecisionAudit.Keyed
import PrecisionAudit.Scalar.Exact

/-!
# Structured values

Configurations, case files and reports are trees of lists and tables over plain values. A tree is read from one of two
encodings, which differ in how much they forgive.

* `Data`: the trees.
* `Data.record?`: the fields of a record, by name.
* `Data.choice?`: one of several names.
* `Data.list?`, `Data.text?`, `Data.bool?`, `Data.natBelow?`, `Data.double?`: plain values.

Every reader is `none` for a value of another shape.
-/

namespace PrecisionAudit

/-- A structured value. -/
inductive Data
  | null
  | bool (value : Bool)
  | integer (value : Int)
  | real (value : Double)
  | text (value : String)
  /-- A date, a time of day or both, as it is written. No reader takes it for something else. -/
  | moment (written : String)
  | list (items : List Data)
  /-- Named values in the order in which they are written. -/
  | table (entries : List (String × Data))
  deriving Inhabited

/-- How a structured value is written. -/
inductive Encoding
  | json
  | toml
  deriving DecidableEq, Repr

namespace Data

/-! ## Plain values -/

def bool? : Data → Option Bool
  | bool b => some b
  | _ => none

def text? : Data → Option String
  | text s => some s
  | _ => none

/-- A natural number below a bound. -/
def natBelow? (bound : Nat) : Data → Option Nat
  | integer n => if 0 ≤ n ∧ n < bound then some n.toNat else none
  | _ => none

/-- A number in double precision; an integer stands for the nearest one. -/
def double? : Data → Option Double
  | real x => some x
  | integer n => some (.ofInt .double n)
  | _ => none

/-- A value that may be left open. -/
def optional? {α : Type} (decode : Data → Option α) : Data → Option (Option α)
  | null => some none
  | d => (decode d).map some

/-- A list of values. -/
def list? {α : Type} (decode : Data → Option α) : Data → Option (List α)
  | list items => items.mapM decode
  | _ => none

/-! ## Choices and records -/

/-- Whether a value says nothing, as a name without content does. -/
def isBlank (encoding : Encoding) : Data → Bool
  | null => encoding == .json
  | list [] | table [] => encoding == .toml
  | _ => false

/-- One of several names: the name itself, or a table that gives the name a blank content. -/
def choice? {α : Type} (encoding : Encoding) (name : α → String) (choices : List α) : Data → Option α
  | text s => choices.find? (name · == s)
  | table [(s, content)] => if content.isBlank encoding then choices.find? (name · == s) else none
  | _ => none

/-- The fields of a record with the given names: a table without unknown or repeated names, or the values in the
order of the names. Values that are left over in the second form are ignored in TOML and refused in JSON. -/
def record? (encoding : Encoding) (names : List String) : Data → Option (Keyed String Data)
  | table entries =>
    if entries.all (names.contains ·.1) && (entries.map (·.1)).Nodup then some entries else none
  | list items =>
    if encoding = .json ∧ names.length < items.length then none else some (names.zip items)
  | _ => none

/-- A field of a record, which must be present. -/
def field? {α : Type} (decode : Data → Option α) (name : String) (entries : Keyed String Data) : Option α :=
  (entries.get? name).bind decode

/-- A field of a record, or a default if it is absent. -/
def fieldOr? {α : Type} (default : α) (decode : Data → Option α) (name : String) (entries : Keyed String Data) :
    Option α :=
  match entries.get? name with
  | none => some default
  | some d => decode d

end Data

end PrecisionAudit
