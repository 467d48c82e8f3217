import PrecisionAudit.Proofs.Batch.WellFormed

/-!
# Evaluation case by case

A case file is evaluated exactly if all its cases are well-formed, each in its own precision or else in
that of the file. The report then consists of what each case gives on its own, in the order of the
cases, and otherwise the error is that of the first case that is not well-formed.

## Main results

- `CaseSpec.evaluate_eq_ok_iff`: the outcome of a case.
- `CaseFile.evaluate_singleton`: a case on its own.
- `CaseFile.evaluate_caseByCase`: the report, or the error, of a case file.
-/

namespace PrecisionAudit

variable {p : Precision} {tolerance : Tolerance}

namespace CaseSpec

variable {c : CaseSpec} {o : CaseOutcome}

/-- Every lane satisfies the requirement of that lane, or the only requirement, after all numbers have
been brought into the precision. -/
def Satisfied (c : CaseSpec) (p : Precision) (tolerance : Tolerance) : Prop :=
  ∃ references requirements, c.References p references ∧ c.Requires p tolerance requirements ∧
    ∀ lane < c.candidate.length, ∃ q x r, (requirements = [q] ∨ requirements[lane]? = some q) ∧
      c.candidate[lane]? = some x ∧ references[lane]? = some r ∧ q.check (p.ofDouble x) r = true

/-- The outcome of a case: the verdict on its lanes, and a description of what failed. Neither the
verdict nor the description looks for a lane that is not there. -/
structure HasOutcome (c : CaseSpec) (p : Precision) (tolerance : Tolerance) (o : CaseOutcome) : Prop where
  name : o.name = c.name
  precision : o.precision = p
  passed : o.passed = true ↔ c.Satisfied p tolerance
  description : o.description.isSome = !o.passed
  total : ∃ k text, c.comparator p tolerance = .ok k ∧
    k.accepts? (c.candidateLanes p) = some o.passed ∧ k.describe? = some text ∧
      o.description = if o.passed then none else some text

theorem meets_comparison_iff {references : List p.Value} {requirements : List (Requirement p)}
    {lane : ℕ} : (c.comparison references requirements).Meets (c.candidateLanes p) lane ↔
      ∃ q x r, (requirements = [q] ∨ requirements[lane]? = some q) ∧ c.candidate[lane]? = some x ∧
        references[lane]? = some r ∧ q.check (p.ofDouble x) r = true := by
  have hlane : (c.candidateLanes p).lane? lane = c.candidate[lane]?.map p.ofDouble := List.getElem?_map
  simp only [LaneComparator.Meets, LaneComparator.requirement?_eq_some_iff, hlane,
    Option.map_eq_some_iff]
  constructor
  · rintro ⟨q, _, r, hq, ⟨x, hx, rfl⟩, hr, hcheck⟩
    exact ⟨q, x, r, hq, hx, hr, hcheck⟩
  · rintro ⟨q, x, r, hq, hx, hr, hcheck⟩
    exact ⟨q, _, r, hq, ⟨x, hx, rfl⟩, hr, hcheck⟩

theorem satisfied_iff {references : List p.Value} {requirements : List (Requirement p)}
    (hknown : c.FunctionKnown) (hreferences : c.References p references)
    (hrequires : c.Requires p tolerance requirements) :
    c.Satisfied p tolerance ↔ ∀ lane < c.candidate.length,
      ∃ q x r, (requirements = [q] ∨ requirements[lane]? = some q) ∧ c.candidate[lane]? = some x ∧
        references[lane]? = some r ∧ q.check (p.ofDouble x) r = true := by
  constructor
  · rintro ⟨references', requirements', hreferences', hrequires', hlanes⟩
    -- there is only one list of reference values and one of requirements
    obtain rfl := hreferences.unique hknown hreferences'
    obtain rfl := hrequires.unique hknown hrequires'
    exact hlanes
  · intro hlanes
    exact ⟨references, requirements, hreferences, hrequires, hlanes⟩

/-- The comparison of a case accepts the candidate if the case is satisfied. -/
theorem accepts_comparator_iff {k : LaneComparator p} (h : c.comparator p tolerance = .ok k) :
    k.accepts (c.candidateLanes p) = true ↔ c.Satisfied p tolerance := by
  obtain ⟨hknown, hcovers, references, requirements, hreferences, hlength, hrequires, rfl⟩ :=
    comparator_eq_ok_iff.1 h
  have hwidth : (c.candidateLanes p).width = references.length := by
    rw [hlength]
    exact List.length_map _
  rw [LaneComparator.accepts_iff hcovers, satisfied_iff hknown hreferences hrequires, ← hlength]
  constructor
  · rintro ⟨-, hlanes⟩ lane hlane
    exact meets_comparison_iff.1 (hlanes lane hlane)
  · intro hlanes
    exact ⟨hwidth, fun lane hlane => meets_comparison_iff.2 (hlanes lane hlane)⟩

/-- A case is evaluated if its comparison can be set up, and then it has an outcome. -/
theorem hasOutcome_of_evaluate (h : c.evaluate p tolerance = .ok o) : c.HasOutcome p tolerance o := by
  obtain ⟨k, hk, ⟨⟩⟩ := exists_of_bind_eq_ok h
  have hcovers := (comparator_eq_ok_iff.1 hk).2.1
  obtain ⟨verdict, haccepts, -⟩ := LaneComparator.exists_accepts?_eq hcovers (c.candidateLanes p)
  obtain ⟨text, htext⟩ := LaneComparator.exists_describe?_eq hcovers
  have hverdict : k.accepts (c.candidateLanes p) = verdict := by
    rw [LaneComparator.accepts, haccepts, Option.getD_some]
  refine ⟨rfl, rfl, accepts_comparator_iff hk, ?_, k, text, hk, ?_, htext, ?_⟩
  · cases hpassed : k.accepts (c.candidateLanes p) <;> rfl
  · rw [haccepts, hverdict]
  · rw [LaneComparator.describe, htext, Option.getD_some]

theorem exists_evaluate_eq_ok_iff : (∃ o, c.evaluate p tolerance = .ok o) ↔ c.WellFormed p := by
  rw [← exists_comparator_eq_ok_iff]
  constructor
  · rintro ⟨o, h⟩
    obtain ⟨k, hk, -⟩ := exists_of_bind_eq_ok h
    exact ⟨k, hk⟩
  · rintro ⟨k, hk⟩
    rw [evaluate, hk]
    exact ⟨_, rfl⟩

end CaseSpec

namespace CaseFile

variable {file : CaseFile}

/-- The precision of a case: its own, or else that of the file. -/
def precisionOf (file : CaseFile) (c : CaseSpec) : Precision := c.precision.getD file.precision

/-- A case of a file on its own. -/
def only (file : CaseFile) (c : CaseSpec) : CaseFile := ⟨file.precision, [c]⟩

theorem evaluate_eq_ok_iff {report : Report} : file.evaluate tolerance = .ok report ↔
    List.Forall₂ (fun c o => c.evaluate (file.precisionOf c) tolerance = .ok o) file.cases
      report.outcomes := by
  rw [evaluate, bind_eq_ok_iff]
  constructor
  · rintro ⟨outcomes, h, ⟨⟩⟩
    exact mapM_eq_ok_iff.1 h
  · intro h
    exact ⟨report.outcomes, mapM_eq_ok_iff.2 h, rfl⟩

theorem evaluate_eq_error_iff {error : AuditError} : file.evaluate tolerance = .error error ↔
    ∃ before c after, file.cases = before ++ c :: after ∧
      (∀ d ∈ before, ∃ o, d.evaluate (file.precisionOf d) tolerance = .ok o) ∧
        c.evaluate (file.precisionOf c) tolerance = .error error := by
  rw [evaluate, bind_eq_error_iff, mapM_eq_error_iff]
  constructor
  · rintro (h | ⟨outcomes, -, ⟨⟩⟩)
    exact h
  · exact .inl

/-- A case that is evaluated on its own gives its outcome alone. -/
theorem evaluate_only_eq_ok_iff {c : CaseSpec} {o : CaseOutcome} :
    (file.only c).evaluate tolerance = .ok ⟨[o]⟩ ↔
      c.evaluate (file.precisionOf c) tolerance = .ok o := by
  rw [evaluate_eq_ok_iff]
  exact ⟨fun h => (List.forall₂_cons.1 h).1, fun h => .cons h .nil⟩

theorem evaluate_only_eq_error_iff {c : CaseSpec} {error : AuditError} :
    (file.only c).evaluate tolerance = .error error ↔
      c.evaluate (file.precisionOf c) tolerance = .error error := by
  rw [evaluate_eq_error_iff]
  constructor
  · rintro ⟨before, d, after, hcases, -, herror⟩
    obtain ⟨-, rfl, -⟩ : before = [] ∧ d = c ∧ after = [] := by
      simpa [only, List.cons_eq_append_iff] using hcases
    exact herror
  · intro herror
    exact ⟨[], c, [], rfl, by simp, herror⟩

/-- A case file has a report exactly if each of its cases is well-formed in its precision. The report
counts as many cases as there are and the ones that passed among them, and the outcomes are those of the
cases on their own, in their order.
Otherwise the error is that of the first case that is not well-formed. -/
theorem evaluate_caseByCase (file : CaseFile) (tolerance : Tolerance) :
    ((∃ report, file.evaluate tolerance = .ok report) ↔
      ∀ c ∈ file.cases, c.WellFormed (file.precisionOf c)) ∧
    (∀ report, file.evaluate tolerance = .ok report →
      report.total = file.cases.length ∧ report.total = report.passed + report.failed ∧
      report.passed = (report.outcomes.filter (·.passed)).length ∧
      List.Forall₂ (fun c o => (file.only c).evaluate tolerance = .ok ⟨[o]⟩ ∧
        c.HasOutcome (file.precisionOf c) tolerance o) file.cases report.outcomes) ∧
    ∀ error, file.evaluate tolerance = .error error →
      ∃ before c after, file.cases = before ++ c :: after ∧
        (∀ d ∈ before, d.WellFormed (file.precisionOf d)) ∧ ¬ c.WellFormed (file.precisionOf c) ∧
          (file.only c).evaluate tolerance = .error error := by
  refine ⟨?_, ?_, ?_⟩
  · constructor
    · rintro ⟨report, h⟩ c hc
      exact CaseSpec.exists_evaluate_eq_ok_iff.1
        (exists_forall₂_iff.1 ⟨_, evaluate_eq_ok_iff.1 h⟩ c hc)
    · intro hall
      obtain ⟨outcomes, h⟩ := exists_forall₂_iff.2 fun c hc =>
        CaseSpec.exists_evaluate_eq_ok_iff.2 (hall c hc)
      exact ⟨⟨outcomes⟩, evaluate_eq_ok_iff.2 h⟩
  · intro report h
    have hcases := evaluate_eq_ok_iff.1 h
    refine ⟨hcases.length_eq.symm, ?_, List.countP_eq_length_filter, hcases.imp fun c o ho => ?_⟩
    · have hle : report.passed ≤ report.total := List.countP_le_length
      rw [Report.failed, Nat.add_sub_of_le hle]
    · exact ⟨evaluate_only_eq_ok_iff.2 ho, CaseSpec.hasOutcome_of_evaluate ho⟩
  · intro error h
    obtain ⟨before, c, after, hcases, hbefore, herror⟩ := evaluate_eq_error_iff.1 h
    refine ⟨before, c, after, hcases, fun d hd => CaseSpec.exists_evaluate_eq_ok_iff.1 (hbefore d hd), ?_,
      evaluate_only_eq_error_iff.2 herror⟩
    intro hwellFormed
    obtain ⟨o, ho⟩ := CaseSpec.exists_evaluate_eq_ok_iff.2 hwellFormed
    cases herror.symm.trans ho

/-- A vector of ones that is written as its own reference, before a case whose function is not known. -/
theorem evaluate_caseByCase_unknown :
    let one := Scalar.ofNat .double 0x3ff0000000000000
    let same : CaseSpec := ⟨"same", some .double, [one, one], some [one, one], none, [], none, []⟩
    let unknown : CaseSpec := ⟨"unknown", none, [one], some [one], some "tan", [], none, []⟩
    same.WellFormed .double ∧ ∃ before c after, [same, unknown] = before ++ c :: after ∧
      (∀ d ∈ before, d.WellFormed (d.precision.getD .half)) ∧ ¬ c.WellFormed (c.precision.getD .half) ∧
        (CaseFile.only ⟨.half, [same, unknown]⟩ c).evaluate .zero = .error (.unknownFunction "tan") := by
  intro one same unknown
  have hreport : CaseFile.evaluate ⟨.half, [same]⟩ .zero = .ok ⟨[⟨"same", .double, true, none⟩]⟩ := by
    decide +kernel
  have herror : CaseFile.evaluate ⟨.half, [same, unknown]⟩ .zero = .error (.unknownFunction "tan") := by
    decide +kernel
  refine ⟨?_, (evaluate_caseByCase ⟨.half, [same, unknown]⟩ .zero).2.2 _ herror⟩
  exact (evaluate_caseByCase ⟨.half, [same]⟩ .zero).1.1 ⟨_, hreport⟩ same List.mem_cons_self

end CaseFile

end PrecisionAudit
