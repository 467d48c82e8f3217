import PrecisionAudit.Proofs.Batch.WellFormed
import PrecisionAudit.Proofs.Comparator.FirstMismatch

/-!
# Look-ups stay in range

Lanes, requirements, bounds and arguments are looked up by number, and the functions that answer without
a question mark put something in the place of an answer that is missing. Nothing is ever missing: for
comparators as they can be built every look-up succeeds, and a case file is evaluated from look-ups that
all succeed. The counts that this rests on are checked elsewhere: when a comparator is built, and when
the arguments of a function are counted.

## Layers

- `LaneComparator.Made`, `BufferComparator.Made`: the comparators that can be built.
- `Checked`: computations that may end with an error, and in which a failed look-up shows.
- `MathFunction.value?` … `CaseFile.evaluate?`: the evaluation of a case file as such a computation.

## Main results

- `CaseFile.evaluate?_eq`: an evaluation ends with a report or an error, after look-ups that succeed.
- `lookups_in_range`: the same for comparators, functions and case files.
-/

namespace PrecisionAudit

variable {p : Precision}

/-! ## Comparators as they are built -/

namespace LaneComparator

variable {c : LaneComparator p}

/-- The lane comparators that can be built. -/
inductive Made : LaneComparator p → Prop
  | new (candidate reference : Lanes p) (requirement : Requirement p) :
    Made (new candidate reference requirement)
  | withRequirements {c : LaneComparator p} (candidate reference : Lanes p)
    (requirements : List (Requirement p)) (h : withRequirements candidate reference requirements = .ok c) :
    Made c
  | withInputs {c : LaneComparator p} (inputs : List String) (h : Made c) : Made (c.withInputs inputs)

/-- A comparator that was built has one requirement, or one for each lane of its reference. -/
theorem Made.covers (h : c.Made) : c.Covers := by
  induction h with
  | new candidate reference requirement => exact covers_new candidate reference requirement
  | withRequirements candidate reference requirements h => exact (withRequirements_eq_ok_iff.1 h).2
  | withInputs inputs h ih => exact ih

theorem accepts?_eq (h : c.Covers) (candidate : Lanes p) :
    c.accepts? candidate = some (c.accepts candidate) := by
  obtain ⟨verdict, heq, -⟩ := exists_accepts?_eq h candidate
  rw [accepts, heq, Option.getD_some]

theorem describe?_eq (h : c.Covers) : c.describe? = some c.describe := by
  obtain ⟨text, heq⟩ := exists_describe?_eq h
  rw [describe, heq, Option.getD_some]

end LaneComparator

namespace BufferComparator

variable {b : BufferComparator p}

/-- The buffer comparators that can be built. -/
inductive Made : BufferComparator p → Prop
  | uniform (candidates references : List (Lanes p)) (bound : p.Value) :
    Made (uniform candidates references bound)
  | new {b : BufferComparator p} (candidates references : List (Lanes p)) (bounds : List p.Value)
    (h : new candidates references bounds = .ok b) : Made b

/-- A comparator that was built has a bound for every reference. -/
theorem Made.length_bounds (h : b.Made) : b.bounds.length = b.references.length := by
  cases h with
  | uniform candidates references bound => exact List.length_replicate
  | new candidates references bounds h =>
    unfold BufferComparator.new at h
    split at h
    case isTrue => cases h
    case isFalse hlength =>
      cases h
      exact not_not.1 hlength

theorem firstMismatch?_eq (b : BufferComparator p) (candidates : List (Lanes p)) :
    b.firstMismatch? candidates = some (b.firstMismatch candidates) := by
  obtain ⟨mismatch, heq, -⟩ := b.exists_firstMismatch?_eq candidates
  rw [firstMismatch, heq, Option.getD_some]

theorem accepts?_eq (h : b.bounds.length = b.references.length) (candidates : List (Lanes p)) :
    b.accepts? candidates = some (b.accepts candidates) := by
  obtain ⟨verdict, heq, -⟩ := exists_accepts?_eq h candidates
  rw [accepts, heq, Option.getD_some]

/-- The distances of an element run over the lanes that both sides have. -/
theorem isSome_distances? (candidate reference : Lanes p) :
    (distances? candidate reference).isSome := by
  refine isSome_bind (isSome_mapM fun lane hlane => ?_) fun texts _ => rfl
  have hlt := List.mem_range.1 hlane
  obtain ⟨x, hx⟩ := Lanes.exists_lane?_eq (hlt.trans_le (min_le_left _ _))
  obtain ⟨r, hr⟩ := Lanes.exists_lane?_eq (hlt.trans_le (min_le_right _ _))
  simp [hx, hr]

theorem describe?_eq (b : BufferComparator p) : b.describe? = some b.describe := by
  have hdescribe : b.describe?.isSome :=
    isSome_bind (isSome_mapM fun reference _ => reference.isSome_text?) fun references _ =>
      isSome_bind (isSome_mapM fun pair _ => isSome_distances? pair.1 pair.2) fun distances _ => rfl
  obtain ⟨text, htext⟩ := Option.isSome_iff_exists.1 hdescribe
  rw [describe, htext, Option.getD_some]

end BufferComparator

/-! ## Functions -/

/-- A function finds its arguments if there are as many as it takes. -/
theorem MathFunction.isSome_eval? {f : Format} (fn : MathFunction) {args : List (Scalar f)}
    (h : args.length = fn.arity) : (fn.eval? args).isSome := by
  cases fn with
  | atan2 | atan2pi | copysign =>
    obtain ⟨x, y, rfl⟩ := List.length_eq_two.1 h
    rfl
  | _ =>
    obtain ⟨x, rfl⟩ := List.length_eq_one_iff.1 h
    rfl

/-! ## Evaluation with its look-ups -/

/-- A computation that may end with an error, and in which a look-up that fails shows as `none`. -/
abbrev Checked := ExceptT AuditError Option

namespace Checked

variable {α β : Type}

/-- A computation without look-ups. -/
def ofExcept (x : Except AuditError α) : Checked α := ExceptT.mk (some x)

/-- The answer to a look-up. -/
def lookup (x : Option α) : Checked α := ExceptT.lift x

@[simp]
theorem run_ofExcept (x : Except AuditError α) : (ofExcept x).run = some x := rfl

theorem run_lookup {x : Option α} {a : α} (h : x = some a) : (lookup x).run = some (.ok a) := by
  rw [h]
  rfl

theorem lookup_bind {x : Option α} {a : α} (h : x = some a) (k : α → Checked β) :
    lookup x >>= k = k a := by
  rw [h]
  rfl

/-- If all look-ups of a computation succeed, and then all of what follows it, none fails. -/
theorem run_bind {m : Checked α} {x : Except AuditError α} {k : α → Checked β}
    {l : α → Except AuditError β} (hm : m.run = some x)
    (hk : ∀ a, x = .ok a → (k a).run = some (l a)) : (m >>= k).run = some (x >>= l) := by
  rw [ExceptT.run_bind, hm]
  cases x with
  | error error => rfl
  | ok a => exact hk a rfl

/-- If all look-ups succeed for every element of a list, none fails on the way through it. -/
theorem run_mapM {g : α → Checked β} {h : α → Except AuditError β} (hrun : ∀ a, (g a).run = some (h a))
    (l : List α) : (l.mapM g).run = some (l.mapM h) := by
  induction l with
  | nil => rfl
  | cons head tail ih =>
    rw [List.mapM_cons, List.mapM_cons]
    exact run_bind (hrun head) fun b _ => run_bind ih fun bs _ => rfl

end Checked

namespace MathFunction

/-- The value of a function, with the look-ups of its arguments. -/
def value? {f : Format} (fn : MathFunction) (args : List (Scalar f)) : Checked (Scalar f) :=
  if args.length ≠ fn.arity then
    throw (.arity fn args.length)
  else
    Checked.lookup (fn.eval? args)

/-- The reference in a working precision, with the look-ups of the arguments. -/
def reference? (fn : MathFunction) (p : Precision) (args : List p.Value) : Checked p.Value := do
  let _ ← Checked.ofExcept (fn.bound p)
  let wide := args.map p.toDouble
  let result ← if p = .double then fn.value? wide
    else Scalar.singleToDouble <$> fn.value? (wide.map Scalar.doubleToSingle)
  return p.ofDouble result

/-- Whatever the number of arguments, none is looked up that is not there. -/
theorem value?_eq {f : Format} (fn : MathFunction) (args : List (Scalar f)) :
    (fn.value? args).run = some (fn.value args) := by
  unfold value? value
  split
  case isTrue => rfl
  case isFalse harity =>
    obtain ⟨x, hx⟩ := Option.isSome_iff_exists.1 (fn.isSome_eval? (not_not.1 harity))
    rw [Checked.run_lookup hx, hx, Option.getD_some]

theorem reference?_eq (fn : MathFunction) (args : List p.Value) :
    (fn.reference? p args).run = some (fn.reference p args) := by
  refine Checked.run_bind (Checked.run_ofExcept _) fun _ _ => ?_
  dsimp only
  split
  case isTrue => exact Checked.run_bind (fn.value?_eq _) fun _ _ => rfl
  case isFalse =>
    refine Checked.run_bind ?_ fun _ _ => rfl
    rw [ExceptT.run_map, fn.value?_eq]
    rfl

end MathFunction

namespace CaseSpec

variable {c : CaseSpec} {tolerance : Tolerance}

/-- The reference of a case as a function gives it, with its look-ups. -/
def computedReference? (c : CaseSpec) (p : Precision) (fn : MathFunction) : Checked (List p.Value) :=
  if c.args.length ≠ c.candidate.length then
    throw (.lengthMismatch .caseArgs c.candidate.length c.args.length)
  else
    c.args.mapM fun args => fn.reference? p (args.map p.ofDouble)

/-- The reference of a case, with its look-ups. -/
def referenceValues? (c : CaseSpec) (p : Precision) (fn : Option MathFunction) :
    Checked (List p.Value) :=
  match c.reference, fn with
  | some written, _ => pure (written.map p.ofDouble)
  | none, some fn => c.computedReference? p fn
  | none, none => throw (.invalidValue c.name "a case needs either `reference` or `function`")

/-- What a case compares, with its look-ups. -/
def comparator? (c : CaseSpec) (p : Precision) (tolerance : Tolerance) :
    Checked (LaneComparator p) := do
  let fn ← Checked.ofExcept c.namedFunction
  let reference ← c.referenceValues? p fn
  if reference.length ≠ c.candidate.length then
    throw (.lengthMismatch .caseReference c.candidate.length reference.length)
  let requirements ← Checked.ofExcept (c.requirementList p fn tolerance)
  let comparator ← Checked.ofExcept
    (LaneComparator.withRequirements (c.candidateLanes p) (.vector reference) requirements)
  return comparator.withInputs (c.args.flatten.map Scalar.decimalText)

/-- The verdict on a case, with its look-ups. The report is composed for every case. -/
def evaluate? (c : CaseSpec) (p : Precision) (tolerance : Tolerance) : Checked CaseOutcome := do
  let comparator ← c.comparator? p tolerance
  let passed ← Checked.lookup (comparator.accepts? (c.candidateLanes p))
  let description ← Checked.lookup comparator.describe?
  return ⟨c.name, p, passed, if passed then none else some description⟩

theorem computedReference?_eq (fn : MathFunction) :
    (c.computedReference? p fn).run = some (c.computedReference p fn) := by
  unfold computedReference? computedReference
  split
  case isTrue => rfl
  case isFalse => exact Checked.run_mapM (fun args => fn.reference?_eq _) c.args

theorem referenceValues?_eq (fn : Option MathFunction) :
    (c.referenceValues? p fn).run = some (c.referenceValues p fn) := by
  unfold referenceValues? referenceValues
  cases c.reference with
  | some written => rfl
  | none =>
    cases fn with
    | some fn => exact computedReference?_eq fn
    | none => rfl

theorem comparator?_eq : (c.comparator? p tolerance).run = some (c.comparator p tolerance) := by
  refine Checked.run_bind (Checked.run_ofExcept _) fun fn _ =>
    Checked.run_bind (referenceValues?_eq fn) fun reference _ => ?_
  dsimp only
  split
  case isTrue => rfl
  case isFalse =>
    exact Checked.run_bind (Checked.run_ofExcept _) fun requirements _ =>
      Checked.run_bind (Checked.run_ofExcept _) fun comparator _ => rfl

/-- The look-ups of a verdict rest on the counts that are checked when the comparison is set up. -/
theorem evaluate?_eq : (c.evaluate? p tolerance).run = some (c.evaluate p tolerance) := by
  refine Checked.run_bind comparator?_eq fun comparator hcomparator => ?_
  -- a comparator that is reached has passed the count of its requirements
  have hcovers := (comparator_eq_ok_iff.1 hcomparator).2.1
  rw [Checked.lookup_bind (LaneComparator.accepts?_eq hcovers (c.candidateLanes p)),
    Checked.lookup_bind (LaneComparator.describe?_eq hcovers)]
  rfl

end CaseSpec

/-- The report on all cases, with its look-ups. -/
def CaseFile.evaluate? (file : CaseFile) (tolerance : Tolerance) : Checked Report := do
  return ⟨← file.cases.mapM fun c => c.evaluate? (c.precision.getD file.precision) tolerance⟩

/-- An evaluation ends with a report or an error, after look-ups that all succeed. -/
theorem CaseFile.evaluate?_eq (file : CaseFile) (tolerance : Tolerance) :
    (file.evaluate? tolerance).run = some (file.evaluate tolerance) :=
  Checked.run_bind (Checked.run_mapM (fun _ => CaseSpec.evaluate?_eq) file.cases) fun _ _ => rfl

/-- No look-up is out of range: not in a lane comparator or a buffer comparator that was built, whatever
the widths of the stored candidate, the reference and the candidate that is judged; not in a function,
whatever the number of arguments; and not in the evaluation of a case file. -/
theorem lookups_in_range :
    (∀ (p : Precision) (c : LaneComparator p), c.Made →
      (∀ candidate, c.accepts? candidate = some (c.accepts candidate)) ∧
        c.describe? = some c.describe) ∧
    (∀ (p : Precision) (b : BufferComparator p), b.Made →
      (∀ candidates, b.firstMismatch? candidates = some (b.firstMismatch candidates) ∧
        b.accepts? candidates = some (b.accepts candidates)) ∧
          b.describe? = some b.describe) ∧
    (∀ (f : Format) (fn : MathFunction) (args : List (Scalar f)),
      (fn.value? args).run = some (fn.value args)) ∧
    (∀ (p : Precision) (fn : MathFunction) (args : List p.Value),
      (fn.reference? p args).run = some (fn.reference p args)) ∧
    ∀ (file : CaseFile) (tolerance : Tolerance),
      (file.evaluate? tolerance).run = some (file.evaluate tolerance) := by
  refine ⟨fun p c hmade => ?_, fun p b hmade => ?_, fun f fn args => fn.value?_eq args,
    fun p fn args => fn.reference?_eq args, CaseFile.evaluate?_eq⟩
  · exact ⟨LaneComparator.accepts?_eq hmade.covers, LaneComparator.describe?_eq hmade.covers⟩
  · exact ⟨fun candidates => ⟨b.firstMismatch?_eq candidates,
      BufferComparator.accepts?_eq hmade.length_bounds candidates⟩, b.describe?_eq⟩

/-- A stored candidate without lanes against a reference of two, judging one of two; and two buffers of
different lengths whose elements differ in width. -/
theorem lookups_in_range_ragged :
    let one : Precision.single.Value := .ofNat .single 0x3f800000
    let c : LaneComparator .single := ⟨.vector [], .array [one, one], [.any, .ulpValue one], []⟩
    let b := BufferComparator.uniform [.scalar one] [.vector [one, one], .vector []] one
    (c.accepts? (.vector [one, one]) = some true ∧ c.describe? = some c.describe) ∧
      b.firstMismatch? [.scalar one, .vector [], .scalar one] =
          some (b.firstMismatch [.scalar one, .vector [], .scalar one]) ∧
        b.describe? = some b.describe := by
  intro one c b
  have hc : c.Made := .withRequirements (.vector []) (.array [one, one]) [.any, .ulpValue one] rfl
  have hb : b.Made := .uniform _ _ _
  obtain ⟨haccepts, hdescribe⟩ := lookups_in_range.1 .single c hc
  obtain ⟨hmismatch, hreport⟩ := lookups_in_range.2.1 .single b hb
  have hverdict : c.accepts (.vector [one, one]) = true := by decide +kernel
  exact ⟨⟨(haccepts _).trans (congrArg some hverdict), hdescribe⟩, (hmismatch _).1, hreport⟩

end PrecisionAudit
