import PrecisionAudit.Proofs.Batch.Evaluation
import PrecisionAudit.Proofs.Requirement.Steps

/-!
# Bounds in representable steps

A case may bound the number of steps between candidate and reference. The bound is written in double
precision, and it is applied as the number that the working precision has for it: half precision, for
instance, has no 2049 and applies 2048 instead. Distances are compared to it in double precision, which
counts them exactly up to `2 ^ 53`.

## Main results

- `CaseSpec.evaluate_stepBound`: a case under a bound.
- `CaseSpec.stepBound_not_as_written`: the bound applied is not always the bound written.
-/

namespace PrecisionAudit

variable {p : Precision}

namespace CaseSpec

variable {c : CaseSpec} {tolerance : Tolerance}

/-- The only requirement of a case, in either of the places where it may be written. -/
def OnlyRequirement (c : CaseSpec) (spec : RequirementSpec) : Prop :=
  c.requirement = some spec ∨ c.requirement = none ∧ c.requirements = [spec]

theorem OnlyRequirement.requires {spec : RequirementSpec} {q : Requirement p}
    (h : c.OnlyRequirement spec) (hmeans : spec.Means p q) : c.Requires p tolerance [q] := by
  rcases h with hone | ⟨hnone, hlist⟩
  · exact .one spec q hone hmeans
  · refine .each [q] hnone (hlist ▸ List.cons_ne_nil _ _) ?_
    rw [hlist]
    exact .cons hmeans .nil

/-- A case with a written reference and one requirement is satisfied if every lane of it is. -/
theorem satisfied_one_iff (hwellFormed : c.WellFormed p) {references : List Double}
    (hreference : c.reference = some references) {q : Requirement p}
    (hrequires : c.Requires p tolerance [q]) :
    c.Satisfied p tolerance ↔ ∀ (lane : ℕ) (y z : Double), c.candidate[lane]? = some y →
      references[lane]? = some z → q.check (p.ofDouble y) (p.ofDouble z) = true := by
  have hlength : references.length = c.candidate.length := by
    rcases hwellFormed.reference with ⟨values, hvalues, hlength⟩ | ⟨hnone, -⟩
    · cases hreference.symm.trans hvalues
      exact hlength
    · cases hreference.symm.trans hnone
  rw [satisfied_iff hwellFormed.function (.written references hreference) hrequires]
  constructor
  · intro hlanes lane y z hy hz
    obtain ⟨q', y', r, hq, hy', hr, hcheck⟩ := hlanes lane (List.getElem?_eq_some_iff.1 hy).1
    rw [List.getElem?_map, hz] at hr
    cases hr
    cases hy.symm.trans hy'
    rcases hq with hq | hq
    · cases hq
      exact hcheck
    · obtain rfl := List.mem_singleton.1 (List.mem_of_getElem? hq)
      exact hcheck
  · intro hlanes lane hlane
    have hy := List.getElem?_eq_getElem hlane
    have hz := List.getElem?_eq_getElem (hlength ▸ hlane)
    refine ⟨q, _, _, .inl rfl, hy, ?_, hlanes lane _ _ hy hz⟩
    rw [List.getElem?_map, hz, Option.map_some]

/-- In every lane, once both sides are in the working precision, the steps between them are bounded. -/
def StepsWithin (c : CaseSpec) (p : Precision) (references : List Double) (w : Extended) : Prop :=
  ∀ (lane : ℕ) (y z : Double), c.candidate[lane]? = some y → references[lane]? = some z →
    ((((p.ofDouble y).distance (p.ofDouble z) : ℕ) : ℚ) : Extended) ≤ w

/-- Under a bound on the steps a case passes if and only if no lane exceeds the bound, where the bound is
the number that the working precision has for the one that is written. It is the written one if the
working precision has that. In double precision a bound of `2 ^ 53` or more still passes what it should. -/
theorem evaluate_stepBound (tolerance : Tolerance) (hwellFormed : c.WellFormed p)
    {references : List Double} (hreference : c.reference = some references) {x : Double}
    {value2 : Option Double} (hrequirement : c.OnlyRequirement ⟨"ulp_value", some x, value2⟩) {v : ℕ}
    (hx : x.value? = some ((v : ℚ) : Extended))
    (hcandidate : ∀ y ∈ c.candidate, (p.ofDouble y).isNaN = false)
    (hreferences : ∀ z ∈ references, (p.ofDouble z).isNaN = false) :
    ∃ o w, c.evaluate p tolerance = .ok o ∧ (p.ofDouble x).value? = some w ∧
      (((v : ℚ) : Extended) ∈ p.format.values → w = ((v : ℚ) : Extended)) ∧
      (c.StepsWithin p references w → o.passed = true) ∧
      ((p = .double → v < 2 ^ 53) → o.passed = true → c.StepsWithin p references w) := by
  obtain ⟨o, ho⟩ : ∃ o, c.evaluate p tolerance = .ok o := exists_evaluate_eq_ok_iff.2 hwellFormed
  have hrequires : c.Requires p tolerance [.ulpValue (p.ofDouble x)] :=
    hrequirement.requires (.ulpValue x value2)
  have hpassed := (hasOutcome_of_evaluate ho).passed.trans
    (satisfied_one_iff hwellFormed hreference hrequires)
  -- the bound is a number, and so has a value in the working precision
  have hnumber : x.isNaN = false := by
    rw [← Bool.not_eq_true, ← x.value?_eq_none_iff Format.double_isBinary, hx]
    simp
  have hw := Scalar.value?_of_not_isNaN p.isBinary_format (Precision.isNaN_ofDouble (p := p) hnumber)
  have hexact (hv : ((v : ℚ) : Extended) ∈ p.format.values) :
      p.format.valueAt (p.ofDouble x).ordinal = ((v : ℚ) : Extended) :=
    Option.some.inj (hw.symm.trans (Precision.value?_ofDouble hx hv))
  refine ⟨o, _, ho, hw, hexact, fun hwithin => ?_, fun hshort hpass lane y z hy hz => ?_⟩
  · refine hpassed.2 fun lane y z hy hz => ?_
    exact Requirement.check_ulpValue_of_le (hcandidate y (List.mem_of_getElem? hy))
      (hreferences z (List.mem_of_getElem? hz)) hw (hwithin lane y z hy hz)
  · refine Requirement.distance_le_of_check (hcandidate y (List.mem_of_getElem? hy))
      (hreferences z (List.mem_of_getElem? hz)) hw ?_ (hpassed.1 hpass lane y z hy hz)
    rintro rfl
    rw [hexact ⟨x, hx⟩]
    exact Extended.coe_strictMono (Nat.cast_lt.2 (hshort rfl))

theorem stepsWithin_singleton_iff {y z : Double} {w : Extended} (hcandidate : c.candidate = [y]) :
    c.StepsWithin p [z] w ↔
      ((((p.ofDouble y).distance (p.ofDouble z) : ℕ) : ℚ) : Extended) ≤ w := by
  unfold StepsWithin
  rw [hcandidate]
  constructor
  · intro h
    exact h 0 y z rfl rfl
  · rintro h lane y' z' hy hz
    obtain rfl := List.mem_singleton.1 (List.mem_of_getElem? hy)
    obtain rfl := List.mem_singleton.1 (List.mem_of_getElem? hz)
    exact h

/-- Half precision has the bound of two steps, and applies it as it is written. -/
theorem evaluate_stepBound_two :
    let one := Scalar.ofNat .double 0x3ff0000000000000
    let c : CaseSpec := ⟨"two steps", none, [Scalar.ofNat .double 0x3ff0080000000000], some [one], none, [],
      none, [⟨"ulp_value", some (.ofInt .double 2), none⟩]⟩
    c.StepsWithin .half [one] ((2 : ℕ) : ℚ) ∧
      ∃ o, c.evaluate .half .zero = .ok o ∧ o.passed = true := by
  intro one c
  have hevaluate : c.evaluate .half .zero = .ok ⟨"two steps", .half, true, none⟩ := by decide +kernel
  have hwithin : c.StepsWithin .half [one] ((2 : ℕ) : ℚ) := by
    rw [stepsWithin_singleton_iff rfl]
    exact Extended.coe_strictMono.monotone (Nat.cast_le.2 (by decide +kernel))
  obtain ⟨o, w, ho, -, hw, hpass, -⟩ := evaluate_stepBound .zero
    (exists_evaluate_eq_ok_iff.1 ⟨_, hevaluate⟩) (show c.reference = some [one] from rfl)
    (.inr ⟨rfl, rfl⟩)
    (Scalar.value?_ofInt (n := 2) Format.double_isBinary (by decide) (by decide)) (by decide +kernel)
    (by decide +kernel)
  have htwo := Scalar.natCast_mem_values (n := 2) (f := .half) (by decide) (by decide) (by decide)
  exact ⟨hwithin, o, ho, hpass (hw htwo ▸ hwithin)⟩

/-- A bound that half precision does not have fails a case that is within it, and a bound on which double
precision cannot tell distances apart passes a case beyond it. -/
theorem stepBound_not_as_written :
    let one := Scalar.ofNat .double 0x3ff0000000000000
    let rounded : CaseSpec := ⟨"rounded bound", none, [Scalar.ofNat .double 0x4010040000000000], some [one],
      none, [], some ⟨"ulp_value", some (.ofInt .double 2049), none⟩, []⟩
    let long : CaseSpec := ⟨"long distance", none, [Scalar.ofNat .double 0x4010000000000001], some [one],
      none, [], some ⟨"ulp_value", some (.ofInt .double (2 ^ 53)), none⟩, []⟩
    ((Scalar.ofInt .double 2049).value? = some (((2049 : ℕ) : ℚ) : Extended) ∧
      (rounded.evaluate .half .zero).map (·.passed) = .ok false ∧
        rounded.StepsWithin .half [one] ((2049 : ℕ) : ℚ)) ∧
    (Scalar.ofInt .double (2 ^ 53)).value? = some (((2 ^ 53 : ℕ) : ℚ) : Extended) ∧
      (long.evaluate .double .zero).map (·.passed) = .ok true ∧
        ¬ long.StepsWithin .double [one] ((2 ^ 53 : ℕ) : ℚ) := by
  intro one rounded long
  refine ⟨⟨?_, by decide +kernel, ?_⟩, ?_, by decide +kernel, ?_⟩
  · exact Scalar.value?_ofInt (n := 2049) Format.double_isBinary (by decide) (by decide)
  · rw [stepsWithin_singleton_iff rfl]
    exact Extended.coe_strictMono.monotone (Nat.cast_le.2 (by decide +kernel))
  · exact Scalar.value?_ofInt (n := 2 ^ 53) Format.double_isBinary (by decide) (by decide)
  · rw [stepsWithin_singleton_iff rfl, not_le]
    exact Extended.coe_strictMono (Nat.cast_lt.2 (by decide +kernel))

end CaseSpec

end PrecisionAudit
