import PrecisionAudit.Comparator.Lane

/-!
# Comparison of whole buffers

A buffer comparator holds a reference and a bound in representable steps for every element of a buffer. It finds the
first place where a candidate buffer leaves its bound or where only one side has a lane.

* `BufferComparator.new`, `BufferComparator.uniform`.
* `BufferComparator.firstMismatch`, `BufferComparator.accepts`, `BufferComparator.describe`.
* `Mismatch`: the first place, with both sides and their distance.
-/

namespace PrecisionAudit

/-- A place where a candidate buffer fails. -/
structure Mismatch (p : Precision) where
  index : Nat
  lane : Nat
  candidate : Option p.Value
  reference : Option p.Value
  /-- The distance of the two sides, if both are there and neither is a NaN. -/
  distance : Option Nat
  bound : p.Value
  deriving DecidableEq

/-- A mismatch as it is shown to a user. -/
def Mismatch.text {p : Precision} (m : Mismatch p) : String :=
  let place := s!"element {m.index} lane {m.lane}: "
  let bound := "(bound " ++ p.text m.bound ++ ")"
  place ++ match m.candidate, m.reference with
    | some c, some r =>
      let reached := match m.distance with
        | some steps => s!"{steps} ULP "
        | none => "unordered "
      p.text c ++ " vs reference " ++ p.text r ++ ", " ++ reached ++ bound
    | none, some r => "missing, reference " ++ p.text r
    | some c, none => p.text c ++ " has no reference lane"
    | none, none => "missing on both sides"

/-- References with a bound each, and the candidates to be described. -/
structure BufferComparator (p : Precision) where
  candidates : List (Lanes p)
  references : List (Lanes p)
  bounds : List p.Value

namespace BufferComparator

variable {p : Precision}

/-- A bound for every reference. -/
def new (candidates references : List (Lanes p)) (bounds : List p.Value) : Except AuditError (BufferComparator p) :=
  if bounds.length ≠ references.length then
    .error (.lengthMismatch .ulpBounds references.length bounds.length)
  else
    .ok ⟨candidates, references, bounds⟩

/-- The same bound for every reference. -/
def uniform (candidates references : List (Lanes p)) (bound : p.Value) : BufferComparator p :=
  ⟨candidates, references, List.replicate references.length bound⟩

/-! ## The first mismatch -/

/-- The mismatch of a lane that both sides have, if there is one. -/
def laneMismatch? (index : Nat) (candidate reference : Lanes p) (bound : p.Value) (lane : Nat) :
    Option (Option (Mismatch p)) := do
  let c ← candidate.lane? lane
  let r ← reference.lane? lane
  if (Requirement.ulpValue bound).check c r then
    return none
  else
    return some ⟨index, lane, some c, some r, c.distance? r, bound⟩

/-- The mismatch of the first lane that only one side has, if the widths differ. A side is looked up only if it has
the lane. -/
def widthMismatch? (index : Nat) (candidate reference : Lanes p) (bound : p.Value) :
    Option (Option (Mismatch p)) := do
  let lane := min reference.width candidate.width
  if candidate.width = reference.width then
    return none
  else
    let c ← candidate.guardedLane? (lane < candidate.width) lane
    let r ← reference.guardedLane? (lane < reference.width) lane
    return some ⟨index, lane, c, r, none, bound⟩

/-- The first mismatch of an element. The outer `none` is an access outside the lanes. -/
def elementMismatch? (index : Nat) (candidate reference : Lanes p) (bound : p.Value) :
    Option (Option (Mismatch p)) := do
  let shared := List.range (min reference.width candidate.width)
  match ← shared.findSomeM? (laneMismatch? index candidate reference bound) with
  | some m => return some m
  | none => widthMismatch? index candidate reference bound

/-- The elements that candidates, references and bounds share, with their positions. -/
def sharedElements (b : BufferComparator p) (candidates : List (Lanes p)) :
    List (Nat × Lanes p × Lanes p × p.Value) :=
  (List.range candidates.length).zip (candidates.zip (b.references.zip b.bounds))

/-- The first mismatch of a buffer. The outer `none` is an access outside the lanes. -/
def firstMismatch? (b : BufferComparator p) (candidates : List (Lanes p)) : Option (Option (Mismatch p)) :=
  (b.sharedElements candidates).findSomeM? fun (index, candidate, reference, bound) =>
    elementMismatch? index candidate reference bound

/-- The first place, element by element and lane by lane, where a candidate buffer fails. -/
def firstMismatch (b : BufferComparator p) (candidates : List (Lanes p)) : Option (Mismatch p) :=
  (b.firstMismatch? candidates).getD none

/-! ## The verdict and the report -/

/-- The verdict on a buffer: as many elements as references, each as wide as its reference, and no mismatch. -/
def accepts? (b : BufferComparator p) (candidates : List (Lanes p)) : Option Bool :=
  if candidates.length ≠ b.references.length then
    some false
  else if (candidates.zip b.references).any fun (c, r) => c.width != r.width then
    some false
  else
    (b.firstMismatch? candidates).map Option.isNone

def accepts (b : BufferComparator p) (candidates : List (Lanes p)) : Bool := (b.accepts? candidates).getD false

/-- The distances of an element, lane by lane. -/
def distances? (candidate reference : Lanes p) : Option String := do
  let shared := List.range (min candidate.width reference.width)
  let texts ← shared.mapM fun lane => do
    let c ← candidate.lane? lane
    let r ← reference.lane? lane
    return match c.distance? r with
      | some steps => toString steps
      | none => "n/a"
  return if reference.isVector then braced texts else commaSeparated texts

def describe? (b : BufferComparator p) : Option String := do
  let references ← b.references.mapM Lanes.text?
  let distances ← (b.candidates.zip b.references).mapM fun (c, r) => distances? c r
  return "Reference: " ++ braced references ++ "\nULP distance: " ++ braced distances

/-- The report on the stored candidates. -/
def describe (b : BufferComparator p) : String := b.describe?.getD ""

end BufferComparator

end PrecisionAudit
