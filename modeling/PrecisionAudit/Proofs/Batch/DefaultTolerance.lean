import PrecisionAudit.Config
import PrecisionAudit.Proofs.Batch.StepBound
import PrecisionAudit.Proofs.Requirement.Tolerance

/-!
# Tolerances of a configuration

The two tolerances of a configuration are checked as numbers of double precision and applied as numbers of the
working precision. On the way they may become zero or infinite, but they stay numbers that are not negative: a
conversion keeps the sign, and negative zero, which the check lets pass, stays a zero. Under such a bound every
number is right that has the value it should have, an infinity too, and a NaN where a NaN should be.

## Main results

- `isTolerance_iff`: what the check of a configuration asks of a tolerance.
- `Tolerance.requirement_hasBound`: the requirement of a checked tolerance in a working precision.
- `Config.accepts_correct_of_check`: under a checked configuration nothing correct is rejected.
-/

namespace PrecisionAudit

variable {p : Precision}

/-! ## Tolerances in double precision -/

/-- A tolerance is a number that does not lie below zero. -/
theorem isTolerance_iff {x : Double} : isTolerance x = true ↔ x.isNaN = false ∧ 0 ≤ x.ordinal := by
  rw [isTolerance, Bool.and_eq_true, Bool.not_eq_true', Bool.not_eq_true']
  refine and_congr_right fun hx => ?_
  obtain ⟨hnumber, hzero⟩ := Scalar.ordinal_zero .double
  rw [Scalar.numLt, Scalar.compare?_eq_cmp_ordinal Format.double_isBinary hx hnumber, hzero,
    beq_eq_false_iff_ne, ne_eq, Option.some_inj, cmp_eq_lt_iff, not_lt]

theorem Config.check_eq_ok_iff {config : Config} : config.check = .ok () ↔
    isTolerance config.tolerance.steps = true ∧ isTolerance config.tolerance.error = true := by
  unfold Config.check
  cases isTolerance config.tolerance.steps <;> cases isTolerance config.tolerance.error <;> simp

/-- A configuration that was read has been checked. -/
theorem Config.check_of_read {text : String} {config : Config} (h : Config.read text = .ok config) :
    config.check = .ok () := by
  unfold Config.read at h
  split at h
  case h_1 config' _ =>
    obtain ⟨_, hcheck, ⟨⟩⟩ := exists_of_bind_eq_ok h
    exact hcheck
  case h_2 => cases h

/-! ## Tolerances in a working precision -/

/-- In a working precision a tolerance is not negative either, whatever it is rounded to. -/
theorem Precision.zero_le_ofDouble {x : Double} (hx : isTolerance x = true) :
    p.le (.zero p.format) (p.ofDouble x) = true := by
  obtain ⟨hnumber, hnonneg⟩ := isTolerance_iff.1 hx
  cases hsign : x.isNegative with
  | false =>
    obtain ⟨hzero, hplace⟩ := Scalar.ordinal_zero p.format
    refine (p.le_iff_ordinal _ _).2 ⟨hzero, (isNaN_ofDouble_eq x).trans hnumber, ?_⟩
    rw [hplace, Scalar.ordinal, isNegative_ofDouble, hsign]
    exact Int.natCast_nonneg _
  | true =>
    -- a negative number that is not below zero is a zero, which every precision has
    have hmag : x.magnitude = 0 := by
      rw [Scalar.ordinal, hsign, if_pos rfl] at hnonneg
      omega
    exact (p.le_iff_value _ _).2
      ⟨_, _, Scalar.value?_ofParts_zero p.isBinary_format false, value?_ofDouble_of_zero hmag, le_rfl⟩

/-- A requirement that bounds an error or a number of steps, by a number that is not negative. -/
structure Requirement.HasBound (q : Requirement p) (bound : p.Value) : Prop where
  kind : q = .errorValue bound ∨ q = .ulpValue bound
  number : bound.isNaN = false
  nonneg : p.le (.zero p.format) bound = true

theorem Requirement.HasBound.check_of_value?_eq {q : Requirement p} {bound x r : p.Value}
    (h : q.HasBound bound) (hvalue : x.value? = r.value?) : q.check x r = true := by
  rcases h.kind with rfl | rfl
  · exact Requirement.check_of_value?_eq (.inl rfl) h.nonneg hvalue
  · exact Requirement.check_of_value?_eq (.inr rfl) h.nonneg hvalue

theorem Tolerance.requirement_hasBound {t : Tolerance} (hsteps : isTolerance t.steps = true)
    (herror : isTolerance t.error = true) (p : Precision) : ∃ bound, (t.requirement p).HasBound bound := by
  have hnumber {x : Double} (hx : isTolerance x = true) : (p.ofDouble x).isNaN = false :=
    (Precision.isNaN_ofDouble_eq x).trans (isTolerance_iff.1 hx).1
  unfold Tolerance.requirement
  split
  · exact ⟨_, .inl rfl, hnumber herror, Precision.zero_le_ofDouble herror⟩
  · exact ⟨_, .inr rfl, hnumber hsteps, Precision.zero_le_ofDouble hsteps⟩

/-! ## Cases that repeat their candidate -/

/-- A case whose reference has the values of its candidate, a NaN for a NaN, and which says nothing on how it
is to be judged. -/
structure CaseSpec.Repeats (c : CaseSpec) : Prop where
  function : c.function = none
  requirement : c.requirement = none
  requirements : c.requirements = []
  reference : ∃ values, c.reference = some values ∧
    values.map Scalar.value? = c.candidate.map Scalar.value?

namespace CaseSpec

variable {c : CaseSpec} {tolerance : Tolerance}

theorem Repeats.wellFormed (h : c.Repeats) (p : Precision) : c.WellFormed p where
  function name hname := nomatch h.function.symm.trans hname
  reference := by
    obtain ⟨values, hreference, hvalues⟩ := h.reference
    exact .inl ⟨values, hreference, by simpa using congrArg List.length hvalues⟩
  requirement :=
    .inr (.inr ⟨h.requirement, h.requirements, fun name hname => nomatch h.function.symm.trans hname⟩)

/-- Under a bound that is not negative such a case is satisfied in every precision. -/
theorem Repeats.satisfied (h : c.Repeats) {bound : p.Value}
    (hbound : (tolerance.requirement p).HasBound bound) : c.Satisfied p tolerance := by
  obtain ⟨values, hreference, hvalues⟩ := h.reference
  have hdefault : c.Requires p tolerance [tolerance.requirement p] :=
    .default h.requirement h.requirements h.function
  refine (satisfied_one_iff (h.wellFormed p) hreference hdefault).2 fun lane y z hy hz => ?_
  -- both sides have one value as they are written, and keep that in the precision
  have hlane : z.value? = y.value? := by
    have hlanes := congrArg (·[lane]?) hvalues
    rwa [List.getElem?_map, List.getElem?_map, hy, hz, Option.map_some, Option.map_some,
      Option.some_inj] at hlanes
  exact hbound.check_of_value?_eq (Precision.value?_ofDouble_congr hlane.symm)

end CaseSpec

/-- Under a checked configuration the requirement that stands for all that is not written is a bound that is a
number and not negative, in every precision. So it accepts every number and every NaN for itself, and a case
file whose cases repeat their candidates as references, in value, and are not to be judged otherwise passes case
by case and as a whole. -/
theorem Config.accepts_correct_of_check {config : Config} (hcheck : config.check = .ok ()) :
    (∀ p, ∃ bound, (config.tolerance.requirement p = .errorValue bound ∨
      config.tolerance.requirement p = .ulpValue bound) ∧
        bound.isNaN = false ∧ p.le (.zero p.format) bound = true) ∧
    (∀ (p : Precision) (x : p.Value), (config.tolerance.requirement p).check x x = true) ∧
    ∀ file : CaseFile, (∀ c ∈ file.cases, c.Repeats) →
      ∃ report, file.evaluate config.tolerance = .ok report ∧ report.total = file.cases.length ∧
        (∀ o ∈ report.outcomes, o.passed = true) ∧ report.allPassed = true := by
  obtain ⟨hsteps, herror⟩ := Config.check_eq_ok_iff.1 hcheck
  have hbound (p : Precision) := Tolerance.requirement_hasBound hsteps herror p
  refine ⟨fun p => ?_, fun p x => ?_, fun file hrepeats => ?_⟩
  · obtain ⟨bound, hkind, hnumber, hnonneg⟩ := hbound p
    exact ⟨bound, hkind, hnumber, hnonneg⟩
  · obtain ⟨bound, h⟩ := hbound p
    exact h.check_of_value?_eq rfl
  · -- every case has an outcome, and it is a pass
    have hcases : ∀ c ∈ file.cases, ∃ o,
        c.evaluate (file.precisionOf c) config.tolerance = .ok o ∧ o.passed = true := by
      intro c hc
      obtain ⟨o, ho⟩ : ∃ o, c.evaluate (file.precisionOf c) config.tolerance = .ok o :=
        CaseSpec.exists_evaluate_eq_ok_iff.2 ((hrepeats c hc).wellFormed _)
      obtain ⟨bound, h⟩ := hbound (file.precisionOf c)
      exact ⟨o, ho, (CaseSpec.hasOutcome_of_evaluate ho).passed.2 ((hrepeats c hc).satisfied h)⟩
    obtain ⟨outcomes, houtcomes⟩ := exists_forall₂_iff.2 hcases
    have hpassed : ∀ o ∈ outcomes, o.passed = true := by
      intro o ho
      obtain ⟨c, -, h⟩ := exists_forall₂_iff.1 ⟨_, houtcomes.flip⟩ o ho
      exact h
    refine ⟨⟨outcomes⟩, CaseFile.evaluate_eq_ok_iff.2 (houtcomes.imp fun c o h => h.1),
      houtcomes.length_eq.symm, hpassed, ?_⟩
    rw [Report.allPassed, Report.failed, Report.passed, Report.total, List.countP_eq_length.2 hpassed,
      Nat.sub_self, beq_self_eq_true]

/-- Negative zero steps, and an error so small that half precision has only zero for it: a quiet and a signaling
NaN, an infinity and both zeros pass. -/
theorem Config.accepts_correct_of_check_underflow :
    let config : Config := ⟨.host, ⟨.ofNat .double 0x8000000000000000, .ofNat .double 1⟩, ⟨false⟩⟩
    let quiet := Scalar.ofNat .double 0x7ff8000000000000
    let signaling := Scalar.ofNat .double 0xfff0000000000001
    let infinite := Scalar.infinity .double true
    let c : CaseSpec := ⟨"specials", none, [quiet, infinite, Scalar.ofParts .double true 0],
      some [signaling, infinite, Scalar.ofParts .double false 0], none, [], none, []⟩
    config.check = .ok () ∧ config.tolerance.requirement .half = .errorValue (.zero .half) ∧
      ∃ report, CaseFile.evaluate ⟨.half, [c]⟩ config.tolerance = .ok report ∧ report.total = 1 ∧
        (∀ o ∈ report.outcomes, o.passed = true) ∧ report.allPassed = true := by
  intro config quiet signaling infinite c
  have hcheck : config.check = .ok () := by decide +kernel
  obtain ⟨-, -, hfile⟩ := accepts_correct_of_check hcheck
  refine ⟨hcheck, by decide +kernel, hfile ⟨.half, [c]⟩ fun d hd => ?_⟩
  obtain rfl := List.mem_singleton.1 hd
  refine ⟨rfl, rfl, rfl, _, rfl, ?_⟩
  have hquiet := Scalar.value?_of_isNaN (x := quiet) (by decide +kernel)
  have hsignaling := Scalar.value?_of_isNaN (x := signaling) (by decide +kernel)
  have hzero := Scalar.value?_ofParts_zero Format.double_isBinary
  simp only [c, List.map_cons, List.map_nil, hquiet, hsignaling, hzero]

end PrecisionAudit
