import PrecisionAudit.Proofs.Requirement.Steps
import PrecisionAudit.Proofs.Scalar.Difference

/-!
# Requirements as tolerances

A requirement on the absolute error and one on the number of steps hold a rounded distance against their
bound. Rounding keeps the order of distances and does not take them past a number, so that both behave like
tolerances on the exact values: what lies between a number that passes and the reference passes, the two
numbers may be exchanged, a larger bound accepts more, and within its bound no number is rejected.

## Main results

- `Requirement.check_errorValue_iff`, `Requirement.check_ulpValue_iff_rounded`: the verdicts as comparisons
  of values.
- `Requirement.check_of_mem_uIcc`: what lies between passes.
- `Requirement.check_errorValue_of_abs_sub_le`: within the bound on the error a number passes, and in half
  precision nothing else does.
- `Requirement.check_isTolerance`: the laws of a tolerance.
-/

namespace PrecisionAudit

namespace Requirement

variable {p : Precision} {bound c c' r : p.Value} {v w : Extended} {kind : p.Value → Requirement p}

/-! ## The verdicts -/

/-- Equal numbers pass, and so do numbers whose absolute difference in double precision is within the
bound. -/
theorem check_errorValue_iff (hc : c.value? = some v) (hr : r.value? = some w) :
    (errorValue bound).check c r = true ↔
      v = w ∨ ∃ b, bound.value? = some b ∧ Format.double.absError v w ≤ b := by
  have hnumber := Scalar.isNaN_of_value?_eq p.isBinary_format hr
  have hc' := (Precision.value?_toDouble c).trans hc
  have hr' := (Precision.value?_toDouble r).trans hr
  have hequal : (p.toDouble c).numEq (p.toDouble r) = true ↔ v = w := by
    rw [Scalar.numEq, Scalar.compare?_eq_cmp_value, hc', hr', Option.map₂_some_some, beq_iff_eq,
      Option.some_inj, cmp_eq_eq_iff]
  rw [check, if_neg (by simp [hnumber])]
  unfold withinError
  dsimp only
  rw [Bool.or_eq_true, hequal]
  rcases eq_or_ne v w with heq | hne
  · exact iff_of_true (.inl heq) (.inl heq)
  · rw [or_iff_right hne, or_iff_right hne, Scalar.numLe_iff_value, Precision.value?_toDouble,
      Scalar.value?_abs_sub Format.double_isBinary hc' hr' hne]
    simp

theorem check_errorValue_iff_valueAt (hc : c.isNaN = false) (hr : r.isNaN = false) :
    (errorValue bound).check c r = true ↔ p.format.valueAt c.ordinal = p.format.valueAt r.ordinal ∨
      ∃ b, bound.value? = some b ∧
        Format.double.absError (p.format.valueAt c.ordinal) (p.format.valueAt r.ordinal) ≤ b :=
  check_errorValue_iff (Scalar.value?_of_not_isNaN p.isBinary_format hc)
    (Scalar.value?_of_not_isNaN p.isBinary_format hr)

/-- Numbers pass whose distance in double precision is within the bound. -/
theorem check_ulpValue_iff_rounded (hc : c.isNaN = false) (hr : r.isNaN = false) :
    (ulpValue bound).check c r = true ↔
      ∃ b, bound.value? = some b ∧ Format.double.rounded (c.distance r) ≤ b := by
  rw [check_ulpValue_iff_value hc hr, Scalar.value?_ofInt_eq_rounded Format.double_isBinary]
  simp

theorem isNaN_or_numbers (c r : p.Value) :
    (c.isNaN = true ∨ r.isNaN = true) ∨ (c.isNaN = false ∧ r.isNaN = false) := by
  cases c.isNaN <;> simp

/-- Where a NaN takes part, it passes for a NaN only, whatever the bound is. -/
theorem check_of_isNaN (hkind : kind = errorValue ∨ kind = ulpValue) (h : c.isNaN = true ∨ r.isNaN = true) :
    (kind bound).check c r = (c.isNaN && r.isNaN) := by
  cases hr : r.isNaN with
  | true => rcases hkind with rfl | rfl <;> simp [check, hr]
  | false =>
    have hc := h.resolve_right (by simp [hr])
    rw [Bool.and_false, ← Bool.not_eq_true]
    rcases hkind with rfl | rfl
    · -- the difference is a NaN, too
      have hc' : (p.toDouble c).value? = none :=
        (Precision.value?_toDouble c).trans (Scalar.value?_of_isNaN hc)
      have hsub := Scalar.isNaN_sub (y := p.toDouble r) Format.double_isBinary
        (.inl ((Scalar.value?_eq_none_iff Format.double_isBinary _).1 hc'))
      rw [Scalar.isNaN_iff, ← Scalar.magnitude_abs, ← Scalar.isNaN_iff] at hsub
      rw [check, if_neg (by simp [hr])]
      unfold withinError
      dsimp only
      rw [Bool.or_eq_true, Scalar.numLe_iff_value, Scalar.value?_of_isNaN hsub, Scalar.numEq,
        Scalar.compare?_eq_cmp_value, hc']
      simp
    · rw [check, if_neg (by simp [hr])]
      simp [withinSteps, Scalar.distance?, hc]

/-! ## Within the bound -/

/-- Of finite numbers none is rejected whose exact difference is within the bound, as rounding does not take
the difference past the bound. Differences of half precision numbers are not rounded at all, so that the
verdict is the exact comparison there. -/
theorem check_errorValue_of_abs_sub_le (p : Precision) {c r bound : p.Value} (hc : c.isFinite = true)
    (hr : r.isFinite = true) (hbound : bound.isNaN = false) :
    ∃ (a b : ℚ) (w : Extended), c.value? = some ((a : ℚ) : Extended) ∧
      r.value? = some ((b : ℚ) : Extended) ∧ bound.value? = some w ∧
      (((|a - b| : ℚ) : Extended) ≤ w → (errorValue bound).check c r = true) ∧
      (p = .half → ((0 : ℚ) : Extended) ≤ w →
        ((errorValue bound).check c r = true ↔ ((|a - b| : ℚ) : Extended) ≤ w)) := by
  have ha := Scalar.value?_of_finite ((Scalar.isFinite_iff c).1 hc)
  have hb := Scalar.value?_of_finite ((Scalar.isFinite_iff r).1 hr)
  have hw := Scalar.value?_of_not_isNaN p.isBinary_format hbound
  have hiff : (errorValue bound).check c r = true ↔ _ := check_errorValue_iff ha hb
  generalize p.format.gridValue c.ordinal = a at *
  generalize p.format.gridValue r.ordinal = b at *
  generalize p.format.valueAt bound.ordinal = w at *
  have hpass (hle : ((|a - b| : ℚ) : Extended) ≤ w) : (errorValue bound).check c r = true :=
    hiff.2 (.inr ⟨w, hw, Format.rounded_le_of_mem_values Format.double_isBinary (mem_values_double hw) hle⟩)
  refine ⟨a, b, w, ha, hb, hw, hpass, ?_⟩
  rintro rfl hnonneg
  refine ⟨fun hcheck => ?_, hpass⟩
  rcases hiff.1 hcheck with heq | ⟨u, hu, hle⟩
  · rw [Extended.coe_strictMono.injective heq, sub_self, abs_zero]
    exact hnonneg
  · obtain rfl := Option.some.inj (hw.symm.trans hu)
    have hexact := Format.coe_abs_sub_mem_values Format.half_isNarrow.toIsBinary Format.double_isBinary
      ⟨by decide, by decide⟩ (by decide) (by decide +kernel) ⟨c, ha⟩ ⟨r, hb⟩
    rwa [Format.absError_coe, Format.rounded_of_mem_values Format.double_isBinary hexact] at hle

/-- In half precision the largest number against the least negative one is beyond a bound of the largest
number. -/
theorem check_errorValue_of_abs_sub_le_extremes :
    let largest : Precision.half.Value := .ofNat .half 0x7bff
    let least : Precision.half.Value := .ofNat .half 0x8001
    largest.isFinite = true ∧ least.isFinite = true ∧ largest.isNaN = false ∧
      ¬ (errorValue largest).check largest least = true := by
  intro largest least
  have hlargest : largest.isFinite = true := by decide +kernel
  have hleast : least.isFinite = true := by decide +kernel
  have hbound : largest.isNaN = false := by decide +kernel
  refine ⟨hlargest, hleast, hbound, ?_⟩
  have hdatum : largest.datum = .finite ⟨false, 2047, 5⟩ := by decide +kernel
  have hdatum' : least.datum = .finite ⟨true, 1, -24⟩ := by decide +kernel
  obtain ⟨a, b, w, ha, hb, hw, -, hexact⟩ := check_errorValue_of_abs_sub_le .half hlargest hleast hbound
  obtain rfl := Scalar.value_unique (Scalar.value?_of_datum hdatum) ha
  obtain rfl := Scalar.value_unique (Scalar.value?_of_datum hdatum') hb
  obtain rfl := Option.some.inj (ha.symm.trans hw)
  simp only [Exact.value, Extended.coe_strictMono.le_iff_le, true_imp_iff] at hexact
  rw [hexact (by norm_num)]
  norm_num [abs_of_pos]

/-- In single precision a number passes that is beyond its bound by less than double precision can tell. -/
example : (errorValue (.ofNat .single 0x3f800000) : Requirement .single).check (.ofNat .single 0x3f800000)
    (.ofNat .single 0x80000001) = true := by decide +kernel

/-! ## Tolerances -/

/-- What lies between a number that passes and the reference passes. -/
theorem check_of_mem_uIcc (hkind : kind = errorValue ∨ kind = ulpValue) (hc : c.isNaN = false)
    (hc' : c'.isNaN = false) (hr : r.isNaN = false) (hmem : c'.ordinal ∈ Set.uIcc r.ordinal c.ordinal)
    (hcheck : (kind bound).check c r = true) : (kind bound).check c' r = true := by
  rcases hkind with rfl | rfl
  · have hvalue :=
      Format.valueAt_between p.isBinary_format (Scalar.ordinal_mem hr) (Scalar.ordinal_mem hc) hmem
    rw [check_errorValue_iff_valueAt hc hr] at hcheck
    rw [check_errorValue_iff_valueAt hc' hr]
    rcases hcheck with heq | ⟨b, hb, hle⟩
    · rw [heq, Set.uIcc_self] at hvalue
      exact .inl hvalue
    · exact .inr ⟨b, hb, (Format.absError_le_of_mem_uIcc Format.double_isBinary hvalue).trans hle⟩
  · rw [check_ulpValue_iff_rounded hc hr] at hcheck
    rw [check_ulpValue_iff_rounded hc' hr]
    obtain ⟨b, hb, hle⟩ := hcheck
    refine ⟨b, hb, (Format.rounded_mono Format.double_isBinary ?_).trans hle⟩
    rw [Nat.abs_cast, Nat.abs_cast, Nat.cast_le]
    exact Scalar.distance_le_of_mem_uIcc hmem

/-- What lies between two numbers that pass passes, whatever is required. -/
theorem check_of_le_of_le (req : Requirement p) {c₁ c₂ c₃ : p.Value} (h₁₂ : p.le c₁ c₂ = true)
    (h₂₃ : p.le c₂ c₃ = true) (h₁ : req.check c₁ r = true) (h₃ : req.check c₃ r = true) :
    req.check c₂ r = true := by
  obtain ⟨hnan₁, hnan₂, hle₁₂⟩ := (p.le_iff_ordinal c₁ c₂).1 h₁₂
  obtain ⟨-, hnan₃, hle₂₃⟩ := (p.le_iff_ordinal c₂ c₃).1 h₂₃
  have hbounded {kind : p.Value → Requirement p} (hkind : kind = errorValue ∨ kind = ulpValue) {bound : p.Value}
      (h₁ : (kind bound).check c₁ r = true) (h₃ : (kind bound).check c₃ r = true) :
      (kind bound).check c₂ r = true := by
    cases hr : r.isNaN with
    | true => simp [check_of_isNaN hkind (.inr hr), hnan₁] at h₁
    | false =>
      -- the number lies between the reference and one of the others
      rcases le_total c₂.ordinal r.ordinal with hbelow | habove
      · exact check_of_mem_uIcc hkind hnan₁ hnan₂ hr (Set.mem_uIcc.2 (.inr ⟨hle₁₂, hbelow⟩)) h₁
      · exact check_of_mem_uIcc hkind hnan₃ hnan₂ hr (Set.mem_uIcc.2 (.inl ⟨habove, hle₂₃⟩)) h₃
  cases req with
  | errorValue bound => exact hbounded (.inl rfl) h₁ h₃
  | ulpValue bound => exact hbounded (.inr rfl) h₁ h₃
  | valueRange min max =>
    rw [check, Bool.and_eq_true, p.le_iff_ordinal, p.le_iff_ordinal] at h₁ h₃ ⊢
    exact ⟨⟨h₁.1.1, hnan₂, h₁.1.2.2.trans hle₁₂⟩, hnan₂, h₃.2.2.1, hle₂₃.trans h₃.2.2.2⟩
  | any => rfl
  | undefined => rfl

/-- Candidate and reference may be exchanged. -/
theorem check_comm (hkind : kind = errorValue ∨ kind = ulpValue) (bound c r : p.Value) :
    (kind bound).check c r = (kind bound).check r c := by
  rcases isNaN_or_numbers c r with hnan | ⟨hc, hr⟩
  · rw [check_of_isNaN hkind hnan, check_of_isNaN hkind hnan.symm, Bool.and_comm]
  · rw [Bool.eq_iff_iff]
    rcases hkind with rfl | rfl
    · rw [check_errorValue_iff_valueAt hc hr, check_errorValue_iff_valueAt hr hc, eq_comm,
        Format.absError_comm Format.double_isBinary]
    · rw [check_ulpValue_iff_rounded hc hr, check_ulpValue_iff_rounded hr hc, Scalar.distance_comm]

/-- A larger bound accepts more. -/
theorem check_mono (hkind : kind = errorValue ∨ kind = ulpValue) {b₁ b₂ : p.Value} (hle : p.le b₁ b₂ = true)
    (hcheck : (kind b₁).check c r = true) : (kind b₂).check c r = true := by
  obtain ⟨w₁, w₂, hw₁, hw₂, hw⟩ := (p.le_iff_value b₁ b₂).1 hle
  have hbound {u : Extended} (h : ∃ b, b₁.value? = some b ∧ u ≤ b) : ∃ b, b₂.value? = some b ∧ u ≤ b := by
    obtain ⟨b, hb, hub⟩ := h
    obtain rfl := Option.some.inj (hw₁.symm.trans hb)
    exact ⟨w₂, hw₂, hub.trans hw⟩
  rcases isNaN_or_numbers c r with hnan | ⟨hc, hr⟩
  · rw [check_of_isNaN hkind hnan] at hcheck ⊢
    exact hcheck
  · rcases hkind with rfl | rfl
    · rw [check_errorValue_iff_valueAt hc hr] at hcheck ⊢
      exact hcheck.imp_right hbound
    · rw [check_ulpValue_iff_rounded hc hr] at hcheck ⊢
      exact hbound hcheck

/-- Under a bound that is not negative a number passes for a number of the same value, and a NaN for a NaN. -/
theorem check_of_value?_eq (hkind : kind = errorValue ∨ kind = ulpValue)
    (hbound : p.le (.zero p.format) bound = true) (h : c.value? = r.value?) :
    (kind bound).check c r = true := by
  have hnan := Scalar.isNaN_eq_of_value?_eq p.isBinary_format p.isBinary_format h
  cases hc : c.isNaN with
  | true => rw [check_of_isNaN hkind (.inl hc), ← hnan, hc, Bool.and_self]
  | false =>
    have hvalue := Scalar.value?_of_not_isNaN p.isBinary_format hc
    have hr := hnan.symm.trans hc
    rcases hkind with rfl | rfl
    · exact (check_errorValue_iff hvalue (h ▸ hvalue)).2 (.inl rfl)
    · obtain ⟨u, w, hu, hw, hle⟩ := (p.le_iff_value _ bound).1 hbound
      obtain rfl := Option.some.inj ((Scalar.value?_ofParts_zero p.isBinary_format false).symm.trans hu)
      have hdistance : c.distance r = 0 := by
        rw [Scalar.distance, Scalar.ordinal_eq_of_value?_eq p.isBinary_format hc h, sub_self, Int.natAbs_zero]
      refine check_ulpValue_of_le hc hr hw ?_
      rwa [hdistance, Nat.cast_zero]

/-- Under a bound that is not negative, every number and every NaN passes for itself. -/
theorem check_self (hkind : kind = errorValue ∨ kind = ulpValue)
    (hbound : p.le (.zero p.format) bound = true) (x : p.Value) : (kind bound).check x x = true :=
  check_of_value?_eq hkind hbound rfl

/-- Requirements accept intervals: what lies between two numbers that pass passes. Those with a bound treat
candidate and reference alike, a NaN included, accept more under a larger bound, and under a bound that is not
negative accept everything for itself. -/
theorem check_isTolerance (p : Precision) :
    (∀ (req : Requirement p) (c₁ c₂ c₃ r : p.Value), p.le c₁ c₂ = true → p.le c₂ c₃ = true →
      req.check c₁ r = true → req.check c₃ r = true → req.check c₂ r = true) ∧
    ∀ kind : p.Value → Requirement p, kind = errorValue ∨ kind = ulpValue →
      (∀ bound c r : p.Value, (kind bound).check c r = (kind bound).check r c) ∧
      (∀ b₁ b₂ c r : p.Value, p.le b₁ b₂ = true → (kind b₁).check c r = true →
        (kind b₂).check c r = true) ∧
      ∀ bound : p.Value, p.le (.zero p.format) bound = true → ∀ x : p.Value, (kind bound).check x x = true := by
  constructor
  · intro req c₁ c₂ c₃ r h₁₂ h₂₃ h₁ h₃
    exact check_of_le_of_le req h₁₂ h₂₃ h₁ h₃
  · intro kind hkind
    refine ⟨check_comm hkind, fun b₁ b₂ c r hle hcheck => ?_, fun bound hbound => ?_⟩
    · exact check_mono hkind hle hcheck
    · exact check_self hkind hbound

/-- Around one in single precision, under a bound of one: zero lies between a denormal, which passes by
rounding, and two. A NaN on either side, a larger bound, and infinity under a bound of negative zero. -/
theorem check_isTolerance_single :
    let denormal : Precision.single.Value := .ofNat .single 0x80000001
    let zero : Precision.single.Value := .ofNat .single 0x80000000
    let one : Precision.single.Value := .ofNat .single 0x3f800000
    let two : Precision.single.Value := .ofNat .single 0x40000000
    let infinite : Precision.single.Value := .ofNat .single 0x7f800000
    let nan : Precision.single.Value := .ofNat .single 0x7fc00000
    (errorValue one).check denormal one = true ∧ (errorValue one).check two one = true ∧
      (errorValue one).check zero one = true ∧
      (ulpValue one).check nan one = (ulpValue one).check one nan ∧
      (errorValue two).check denormal one = true ∧ (ulpValue zero).check infinite infinite = true := by
  intro denormal zero one two infinite nan
  have hdenormal : (errorValue one).check denormal one = true := by decide +kernel
  have htwo : (errorValue one).check two one = true := by decide +kernel
  obtain ⟨hconvex, hbounded⟩ := check_isTolerance .single
  obtain ⟨hcomm, -, hself⟩ := hbounded ulpValue (.inr rfl)
  obtain ⟨-, hmono, -⟩ := hbounded errorValue (.inl rfl)
  exact ⟨hdenormal, htwo,
    hconvex _ denormal zero two one (by decide +kernel) (by decide +kernel) hdenormal htwo,
    hcomm one nan one, hmono one two denormal one (by decide +kernel) hdenormal,
    hself zero (by decide +kernel) infinite⟩

end Requirement

end PrecisionAudit
