import PrecisionAudit.Batch.Evaluation
import PrecisionAudit.Proofs.Comparator.Lanes

/-!
# Well-formed cases

Whether a case makes sense in a precision can be read off what is written: the name of its function,
the lengths of its lists and the kinds of its requirements. Then it has a reference value for every lane
and requirements for the lanes, and its comparison can be set up; otherwise it cannot.

## Layers

1. names: `RequirementKind.read_eq_ok_iff`, `MathFunction.read_eq_ok_iff`;
2. what is compared and required: `RequirementSpec.Means`, `CaseSpec.References`, `CaseSpec.Requires`,
   each with the lemma that the evaluation computes it;
3. the case: `CaseSpec.WellFormed`.

## Main results

- `CaseSpec.comparator_eq_ok_iff`: what the comparison of a case consists of.
- `CaseSpec.exists_comparator_eq_ok_iff`: a comparison can be set up exactly for a well-formed case.
-/

namespace PrecisionAudit

variable {p : Precision}

/-! ## Names -/

theorem RequirementKind.parse?_eq_some_iff {text : String} {kind : RequirementKind} :
    parse? text = some kind ↔ kind.name = text :=
  find?_name_eq_some_iff fun kind => by cases kind <;> rfl

theorem RequirementKind.read_eq_ok_iff {text : String} {kind : RequirementKind} :
    RequirementKind.read text = .ok kind ↔ kind.name = text := by
  rw [← parse?_eq_some_iff, RequirementKind.read]
  cases parse? text <;> simp

theorem MathFunction.parse?_eq_some_iff {text : String} {fn : MathFunction} :
    parse? text = some fn ↔ fn.name = text :=
  find?_name_eq_some_iff fun fn => by cases fn <;> rfl

theorem MathFunction.read_eq_ok_iff {text : String} {fn : MathFunction} :
    MathFunction.read text = .ok fn ↔ fn.name = text := by
  rw [← parse?_eq_some_iff, MathFunction.read]
  cases parse? text <;> simp

/-! ## Written requirements -/

theorem Requirement.need_eq_ok_iff {kind : RequirementKind} {field : BoundField}
    {value : Option p.Value} {x : p.Value} : need kind field value = .ok x ↔ value = some x := by
  cases value with
  | none => simp [need]
  | some y => simp [need]

/-- The requirement that is meant by what is written. Numbers that a kind does not use may be there. -/
inductive RequirementSpec.Means (p : Precision) : RequirementSpec → Requirement p → Prop
  | errorValue (x : Double) (value2 : Option Double) :
    Means p ⟨"error_value", some x, value2⟩ (.errorValue (p.ofDouble x))
  | ulpValue (x : Double) (value2 : Option Double) :
    Means p ⟨"ulp_value", some x, value2⟩ (.ulpValue (p.ofDouble x))
  | valueRange (x y : Double) :
    Means p ⟨"value_range", some x, some y⟩ (.valueRange (p.ofDouble x) (p.ofDouble y))
  | any (value value2 : Option Double) : Means p ⟨"any", value, value2⟩ .any
  | undefined (value value2 : Option Double) : Means p ⟨"undefined", value, value2⟩ .undefined

theorem RequirementSpec.resolve_eq_ok_iff {spec : RequirementSpec} {q : Requirement p} :
    spec.resolve p = .ok q ↔ spec.Means p q := by
  obtain ⟨kind, value, value2⟩ := spec
  simp only [resolve, bind_eq_ok_iff, RequirementKind.read_eq_ok_iff]
  constructor
  · rintro ⟨known, rfl, h⟩
    -- each kind takes the numbers that it needs and ignores the others
    cases known <;>
      simp only [Requirement.ofParts, bind_eq_ok_iff, Requirement.need_eq_ok_iff,
        Option.map_eq_some_iff] at h
    case errorValue =>
      obtain ⟨_, ⟨x, rfl, rfl⟩, ⟨⟩⟩ := h
      exact .errorValue x value2
    case ulpValue =>
      obtain ⟨_, ⟨x, rfl, rfl⟩, ⟨⟩⟩ := h
      exact .ulpValue x value2
    case valueRange =>
      obtain ⟨_, ⟨x, rfl, rfl⟩, _, ⟨y, rfl, rfl⟩, ⟨⟩⟩ := h
      exact .valueRange x y
    case any =>
      cases h
      exact .any value value2
    case undefined =>
      cases h
      exact .undefined value value2
  · intro h
    cases h with
    | errorValue x value2 => exact ⟨.errorValue, rfl, rfl⟩
    | ulpValue x value2 => exact ⟨.ulpValue, rfl, rfl⟩
    | valueRange x y => exact ⟨.valueRange, rfl, rfl⟩
    | any value value2 => exact ⟨.any, rfl, rfl⟩
    | undefined value value2 => exact ⟨.undefined, rfl, rfl⟩

/-! ## Reference functions -/

namespace MathFunction

variable {fn : MathFunction}

theorem bound_eq_ok_iff {x : Double} :
    fn.bound p = .ok x ↔ fn.hasBound p = true ∧ x = .ofInt .double fn.stepBound := by
  unfold bound
  split
  case isTrue hbound => simp [hbound, eq_comm]
  case isFalse hbound => simp [hbound]

theorem requirement_eq_ok_iff {q : Requirement p} :
    fn.requirement p = .ok q ↔
      fn.hasBound p = true ∧ q = .ulpValue (p.ofDouble (.ofInt .double fn.stepBound)) := by
  simp only [requirement, bind_eq_ok_iff, bound_eq_ok_iff]
  constructor
  · rintro ⟨x, ⟨hbound, rfl⟩, ⟨⟩⟩
    exact ⟨hbound, rfl⟩
  · rintro ⟨hbound, rfl⟩
    exact ⟨_, ⟨hbound, rfl⟩, rfl⟩

theorem value_of_length_eq {f : Format} {args : List (Scalar f)} (h : args.length = fn.arity) :
    fn.value args = .ok ((fn.eval? args).getD (.defaultNaN f)) := by
  simp [value, h]

theorem value_of_length_ne {f : Format} {args : List (Scalar f)} (h : args.length ≠ fn.arity) :
    fn.value args = .error (.arity fn args.length) := by
  simp [value, h]

/-- A reference exists where the function has a bound, at as many arguments as it takes. -/
theorem exists_reference_eq_ok_iff {args : List p.Value} :
    (∃ x, fn.reference p args = .ok x) ↔ fn.hasBound p = true ∧ args.length = fn.arity := by
  simp only [reference, bind_eq_ok_iff, bound_eq_ok_iff]
  constructor
  · rintro ⟨x, steps, ⟨hbound, -⟩, h⟩
    refine ⟨hbound, ?_⟩
    by_contra harity
    -- both ways of computing the value count the arguments first
    rw [value_of_length_ne (by simpa using harity), value_of_length_ne (by simpa using harity)] at h
    split at h <;> cases h
  · rintro ⟨hbound, harity⟩
    rw [value_of_length_eq (by simpa using harity), value_of_length_eq (by simpa using harity)]
    split
    · exact ⟨_, _, ⟨hbound, rfl⟩, rfl⟩
    · exact ⟨_, _, ⟨hbound, rfl⟩, rfl⟩

theorem name_injective : Function.Injective name := fun _ _ h =>
  Except.ok.inj ((read_eq_ok_iff.2 h).symm.trans (read_eq_ok_iff.2 rfl))

end MathFunction

namespace CaseSpec

variable {c : CaseSpec} {fn? : Option MathFunction} {tolerance : Tolerance}

/-! ## What is compared -/

/-- The function of a case, if it has one, is known. -/
def FunctionKnown (c : CaseSpec) : Prop :=
  ∀ name, c.function = some name → ∃ fn : MathFunction, fn.name = name

/-- The reference values of a case: those that are written, or else those of its function. -/
inductive References (p : Precision) (c : CaseSpec) : List p.Value → Prop
  | written (values : List Double) (hwritten : c.reference = some values) :
    References p c (values.map p.ofDouble)
  | computed (fn : MathFunction) (values : List p.Value) (hnone : c.reference = none)
    (hfunction : c.function = some fn.name) (hlength : c.args.length = c.candidate.length)
    (hvalues : List.Forall₂ (fun args x => fn.reference p (args.map p.ofDouble) = .ok x) c.args values) :
    References p c values

/-- The requirements of a case: the one or the ones that are written, or else that of its function, or
else the default. -/
inductive Requires (p : Precision) (tolerance : Tolerance) (c : CaseSpec) : List (Requirement p) → Prop
  | one (spec : RequirementSpec) (q : Requirement p) (hwritten : c.requirement = some spec)
    (hmeans : spec.Means p q) : Requires p tolerance c [q]
  | each (requirements : List (Requirement p)) (hnone : c.requirement = none)
    (hwritten : c.requirements ≠ [])
    (hmeans : List.Forall₂ (RequirementSpec.Means p) c.requirements requirements) :
    Requires p tolerance c requirements
  | ofFunction (fn : MathFunction) (hnone : c.requirement = none) (hnil : c.requirements = [])
    (hfunction : c.function = some fn.name) (hbound : fn.hasBound p = true) :
    Requires p tolerance c [.ulpValue (p.ofDouble (.ofInt .double fn.stepBound))]
  | default (hnone : c.requirement = none) (hnil : c.requirements = [])
    (hfunction : c.function = none) : Requires p tolerance c [tolerance.requirement p]

theorem namedFunction_eq_ok_iff : c.namedFunction = .ok fn? ↔ c.function = fn?.map (·.name) := by
  unfold namedFunction
  cases c.function with
  | none => cases fn? <;> simp
  | some name =>
    change (MathFunction.read name).map some = .ok fn? ↔ some name = fn?.map (·.name)
    cases hread : MathFunction.read name with
    | ok fn =>
      rw [MathFunction.read_eq_ok_iff] at hread
      cases fn? with
      | none => simp [Except.map]
      | some fn' => simp [Except.map, ← hread, MathFunction.name_injective.eq_iff]
    | error error =>
      constructor
      · intro h
        cases h
      · intro h
        obtain ⟨fn, rfl, hname⟩ := Option.map_eq_some_iff.1 h.symm
        rw [MathFunction.read_eq_ok_iff.2 hname] at hread
        cases hread

theorem exists_namedFunction_eq_ok_iff : (∃ fn?, c.namedFunction = .ok fn?) ↔ c.FunctionKnown := by
  simp only [namedFunction_eq_ok_iff]
  constructor
  · rintro ⟨fn?, hfunction⟩ name hname
    obtain ⟨fn, -, hfn⟩ := Option.map_eq_some_iff.1 (hfunction.symm.trans hname)
    exact ⟨fn, hfn⟩
  · intro hknown
    cases hfunction : c.function with
    | none => exact ⟨none, rfl⟩
    | some name =>
      obtain ⟨fn, rfl⟩ := hknown name hfunction
      exact ⟨some fn, rfl⟩

theorem computedReference_eq_ok_iff {fn : MathFunction} {values : List p.Value} :
    c.computedReference p fn = .ok values ↔ c.args.length = c.candidate.length ∧
      List.Forall₂ (fun args x => fn.reference p (args.map p.ofDouble) = .ok x) c.args values := by
  unfold computedReference
  split
  case isTrue hlength => simp [hlength]
  case isFalse hlength =>
    rw [not_not] at hlength
    rw [and_iff_right hlength, mapM_eq_ok_iff]

theorem referenceValues_eq_ok_iff (hfn : c.function = fn?.map (·.name)) {values : List p.Value} :
    c.referenceValues p fn? = .ok values ↔ c.References p values := by
  unfold referenceValues
  -- a written reference and a function exclude each other as sources
  split
  case h_1 written hwritten =>
    constructor
    · rintro ⟨⟩
      exact .written written hwritten
    · intro h
      cases h with
      | written values hwritten' =>
        cases hwritten.symm.trans hwritten'
        rfl
      | computed fn values hnone => cases hwritten.symm.trans hnone
  case h_2 fn hnone =>
    rw [computedReference_eq_ok_iff]
    constructor
    · rintro ⟨hlength, hvalues⟩
      exact .computed fn values hnone hfn hlength hvalues
    · intro h
      cases h with
      | written values hwritten => cases hnone.symm.trans hwritten
      | computed fn' values _ hfunction hlength hvalues =>
        obtain rfl := MathFunction.name_injective (Option.some.inj (hfn.symm.trans hfunction))
        exact ⟨hlength, hvalues⟩
  case h_3 hnone =>
    constructor
    · intro h
      cases h
    · intro h
      cases h with
      | written values hwritten => cases hnone.symm.trans hwritten
      | computed fn values _ hfunction => cases hfn.symm.trans hfunction

theorem requirementList_eq_ok_iff (hfn : c.function = fn?.map (·.name))
    {requirements : List (Requirement p)} :
    c.requirementList p fn? tolerance = .ok requirements ↔ c.Requires p tolerance requirements := by
  unfold requirementList
  -- the four sources exclude each other, so that each case leaves one constructor
  split
  case h_1 spec hwritten =>
    simp only [bind_eq_ok_iff, RequirementSpec.resolve_eq_ok_iff]
    constructor
    · rintro ⟨q, hmeans, ⟨⟩⟩
      exact .one spec q hwritten hmeans
    · intro h
      cases h with
      | one spec' q hwritten' hmeans =>
        cases hwritten.symm.trans hwritten'
        exact ⟨q, hmeans, rfl⟩
      | each _ hnone | ofFunction _ hnone | default hnone => cases hwritten.symm.trans hnone
  case h_2 first rest hnone hwritten =>
    simp only [mapM_eq_ok_iff, RequirementSpec.resolve_eq_ok_iff]
    constructor
    · intro hmeans
      exact .each requirements hnone (hwritten ▸ List.cons_ne_nil _ _) (hwritten ▸ hmeans)
    · intro h
      cases h with
      | one _ _ hsome => cases hnone.symm.trans hsome
      | each _ _ _ hmeans => exact hwritten ▸ hmeans
      | ofFunction _ _ hnil | default _ hnil => cases hwritten.symm.trans hnil
  case h_3 fn hnone hnil =>
    simp only [bind_eq_ok_iff, MathFunction.requirement_eq_ok_iff]
    constructor
    · rintro ⟨q, ⟨hbound, rfl⟩, ⟨⟩⟩
      exact .ofFunction fn hnone hnil hfn hbound
    · intro h
      cases h with
      | one _ _ hsome => cases hnone.symm.trans hsome
      | each _ _ hne => exact absurd hnil hne
      | ofFunction fn' _ _ hfunction hbound =>
        obtain rfl := MathFunction.name_injective (Option.some.inj (hfn.symm.trans hfunction))
        exact ⟨_, ⟨hbound, rfl⟩, rfl⟩
      | default _ _ hfunction => cases hfn.symm.trans hfunction
  case h_4 hnone hnil =>
    constructor
    · rintro ⟨⟩
      exact .default hnone hnil hfn
    · intro h
      cases h with
      | one _ _ hsome => cases hnone.symm.trans hsome
      | each _ _ hne => exact absurd hnil hne
      | ofFunction _ _ _ hfunction => cases hfn.symm.trans hfunction
      | default => rfl

/-- The candidate of a case next to reference values, under requirements. -/
def comparison (c : CaseSpec) (references : List p.Value) (requirements : List (Requirement p)) :
    LaneComparator p :=
  ⟨c.candidateLanes p, .vector references, requirements, c.args.flatten.map Scalar.decimalText⟩

theorem covers_comparison_iff {references : List p.Value} {requirements : List (Requirement p)} :
    (c.comparison references requirements).Covers ↔
      requirements.length = 1 ∨ requirements.length = references.length := Iff.rfl

/-- A case is compared if there are as many reference values as candidates, and requirements for them. -/
theorem comparator_eq_ok_iff {k : LaneComparator p} :
    c.comparator p tolerance = .ok k ↔ c.FunctionKnown ∧ k.Covers ∧ ∃ references requirements,
      c.References p references ∧ references.length = c.candidate.length ∧
        c.Requires p tolerance requirements ∧
          k = c.comparison references requirements := by
  simp only [comparator, bind_eq_ok_iff]
  constructor
  · rintro ⟨fn?, hfn, references, hreferences, h⟩
    have hfunction := namedFunction_eq_ok_iff.1 hfn
    split at h
    case isTrue => cases h
    case isFalse hlength =>
      simp only [bind_eq_ok_iff, LaneComparator.withRequirements_eq_ok_iff] at h
      obtain ⟨requirements, hrequirements, _, ⟨rfl, hcovers⟩, ⟨⟩⟩ := h
      exact ⟨exists_namedFunction_eq_ok_iff.1 ⟨fn?, hfn⟩, hcovers, references, requirements,
        (referenceValues_eq_ok_iff hfunction).1 hreferences, not_not.1 hlength,
        (requirementList_eq_ok_iff hfunction).1 hrequirements, rfl⟩
  · rintro ⟨hknown, hcovers, references, requirements, hreferences, hlength, hrequirements, rfl⟩
    obtain ⟨fn?, hfn⟩ := exists_namedFunction_eq_ok_iff.2 hknown
    have hfunction := namedFunction_eq_ok_iff.1 hfn
    refine ⟨fn?, hfn, references, (referenceValues_eq_ok_iff hfunction).2 hreferences, ?_⟩
    rw [if_neg (not_not.2 hlength)]
    simp only [bind_eq_ok_iff, LaneComparator.withRequirements_eq_ok_iff]
    exact ⟨requirements, (requirementList_eq_ok_iff hfunction).2 hrequirements, _, ⟨rfl, hcovers⟩, rfl⟩

theorem References.unique (hknown : c.FunctionKnown) {references references' : List p.Value}
    (h : c.References p references) (h' : c.References p references') : references = references' := by
  obtain ⟨fn?, hfn⟩ := exists_namedFunction_eq_ok_iff.2 hknown
  have hfunction := namedFunction_eq_ok_iff.1 hfn
  rw [← referenceValues_eq_ok_iff hfunction] at h h'
  exact Except.ok.inj (h.symm.trans h')

theorem Requires.unique (hknown : c.FunctionKnown) {requirements requirements' : List (Requirement p)}
    (h : c.Requires p tolerance requirements) (h' : c.Requires p tolerance requirements') :
    requirements = requirements' := by
  obtain ⟨fn?, hfn⟩ := exists_namedFunction_eq_ok_iff.2 hknown
  have hfunction := namedFunction_eq_ok_iff.1 hfn
  rw [← requirementList_eq_ok_iff hfunction] at h h'
  exact Except.ok.inj (h.symm.trans h')

/-! ## What is well-formed -/

/-- There is a written reference of the right length, or a function with arguments for every lane. Unless
there is no lane at all, the function has a bound and takes as many arguments as there are. -/
def HasReference (c : CaseSpec) (p : Precision) : Prop :=
  (∃ values, c.reference = some values ∧ values.length = c.candidate.length) ∨
    c.reference = none ∧ ∃ fn : MathFunction, c.function = some fn.name ∧
      c.args.length = c.candidate.length ∧
        (c.candidate ≠ [] → fn.hasBound p = true ∧ ∀ args ∈ c.args, args.length = fn.arity)

/-- The requirement that is written means something; or else those that are written do, one for all lanes
or one for each; or else the function, if there is one, has a bound. -/
def HasRequirement (c : CaseSpec) (p : Precision) : Prop :=
  (∃ spec, c.requirement = some spec ∧ ∃ q, spec.Means p q) ∨
    c.requirement = none ∧ c.requirements ≠ [] ∧ (∀ spec ∈ c.requirements, ∃ q, spec.Means p q) ∧
      (c.requirements.length = 1 ∨ c.requirements.length = c.candidate.length) ∨
    c.requirement = none ∧ c.requirements = [] ∧
      ∀ name, c.function = some name → ∃ fn : MathFunction, fn.name = name ∧ fn.hasBound p = true

/-- A case makes sense in a precision. -/
structure WellFormed (c : CaseSpec) (p : Precision) : Prop where
  function : c.FunctionKnown
  reference : c.HasReference p
  requirement : c.HasRequirement p

theorem exists_references_iff :
    (∃ references, c.References p references ∧ references.length = c.candidate.length) ↔
      c.HasReference p := by
  constructor
  · rintro ⟨_, ⟨values, hwritten⟩ | ⟨fn, values, hnone, hfunction, hlength, hvalues⟩, hcount⟩
    · exact .inl ⟨values, hwritten, by simpa using hcount⟩
    · refine .inr ⟨hnone, fn, hfunction, hlength, fun hne => ?_⟩
      have hall := fun args hargs => fn.exists_reference_eq_ok_iff.1
        (exists_forall₂_iff.1 ⟨_, hvalues⟩ args hargs)
      -- with a lane there is a list of arguments, and it shows that the function has a bound
      obtain ⟨args, hargs⟩ := List.exists_mem_of_length_pos
        (hlength ▸ List.length_pos_of_ne_nil hne)
      exact ⟨(hall args hargs).1, fun args hargs => by simpa using (hall args hargs).2⟩
  · rintro (⟨values, hwritten, hcount⟩ | ⟨hnone, fn, hfunction, hlength, hfits⟩)
    · exact ⟨_, .written values hwritten, by simpa using hcount⟩
    · have hall : ∀ args ∈ c.args, ∃ x, fn.reference p (args.map p.ofDouble) = .ok x := by
        intro args hargs
        have hne : c.candidate ≠ [] :=
          List.ne_nil_of_length_pos (hlength ▸ List.length_pos_of_mem hargs)
        obtain ⟨hbound, harity⟩ := hfits hne
        exact fn.exists_reference_eq_ok_iff.2 ⟨hbound, by simpa using harity args hargs⟩
      obtain ⟨values, hvalues⟩ := exists_forall₂_iff.2 hall
      exact ⟨values, .computed fn values hnone hfunction hlength hvalues,
        hvalues.length_eq.symm.trans hlength⟩

theorem exists_requires_iff :
    (∃ requirements, c.Requires p tolerance requirements ∧
      (requirements.length = 1 ∨ requirements.length = c.candidate.length)) ↔ c.HasRequirement p := by
  constructor
  · rintro ⟨_, hrequires, hcount⟩
    cases hrequires with
    | one spec q hwritten hmeans => exact .inl ⟨spec, hwritten, q, hmeans⟩
    | each requirements hnone hwritten hmeans =>
      rw [← hmeans.length_eq] at hcount
      exact .inr (.inl ⟨hnone, hwritten, exists_forall₂_iff.1 ⟨_, hmeans⟩, hcount⟩)
    | ofFunction fn hnone hnil hfunction hbound =>
      refine .inr (.inr ⟨hnone, hnil, fun name hname => ?_⟩)
      exact ⟨fn, Option.some.inj (hfunction.symm.trans hname), hbound⟩
    | default hnone hnil hfunction =>
      exact .inr (.inr ⟨hnone, hnil, fun name hname => nomatch hfunction.symm.trans hname⟩)
  · rintro (⟨spec, hwritten, q, hmeans⟩ | ⟨hnone, hwritten, hall, hcount⟩ | ⟨hnone, hnil, hbound⟩)
    · exact ⟨_, .one spec q hwritten hmeans, .inl rfl⟩
    · obtain ⟨requirements, hmeans⟩ := exists_forall₂_iff.2 hall
      exact ⟨_, .each requirements hnone hwritten hmeans, hmeans.length_eq ▸ hcount⟩
    · cases hfunction : c.function with
      | none => exact ⟨_, .default hnone hnil hfunction, .inl rfl⟩
      | some name =>
        obtain ⟨fn, rfl, hfn⟩ := hbound name hfunction
        exact ⟨_, .ofFunction fn hnone hnil hfunction hfn, .inl rfl⟩

/-- The comparison of a case can be set up exactly if the case is well-formed. -/
theorem exists_comparator_eq_ok_iff :
    (∃ k, c.comparator p tolerance = .ok k) ↔ c.WellFormed p := by
  simp only [comparator_eq_ok_iff]
  constructor
  · rintro ⟨_, hknown, hcovers, references, requirements, hreferences, hlength, hrequires, rfl⟩
    refine ⟨hknown, exists_references_iff.1 ⟨references, hreferences, hlength⟩, ?_⟩
    exact exists_requires_iff.1 ⟨requirements, hrequires, hlength ▸ hcovers⟩
  · rintro ⟨hknown, hreference, hrequirement⟩
    obtain ⟨references, hreferences, hlength⟩ := exists_references_iff.2 hreference
    obtain ⟨requirements, hrequires, hcount⟩ : ∃ requirements, c.Requires p tolerance requirements ∧ _ :=
      exists_requires_iff.2 hrequirement
    rw [← hlength] at hcount
    exact ⟨_, hknown, covers_comparison_iff.2 hcount, references, requirements, hreferences, hlength,
      hrequires, rfl⟩

end CaseSpec

end PrecisionAudit
