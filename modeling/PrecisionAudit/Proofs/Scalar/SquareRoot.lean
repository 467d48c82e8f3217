import PrecisionAudit.Proofs.Rounding.Roots
import PrecisionAudit.Proofs.Scalar.Arithmetic

/-!
# The square root in one format

The square root of a number is computed from the integer root of its significand, which is widened before so
that the root is longer than the significands of the format. One bit below the root says whether anything is
missing. The rational number that this gives stands for the root, and is rounded once.

## Main results

- `Exact.isqrt_eq_sqrt`: the iteration ends on the integer root.
- `Scalar.sqrt_isNearest`: the square root is the rounding of a number that stands for it.
- `Scalar.IsNearest.isNearestRoot`: such a rounding is the number nearest to the root.
-/

namespace PrecisionAudit

namespace Exact

variable {f g : Format}

/-! ## The integer root -/

/-- A step of the iteration does not pass the root: the mean of a guess and its quotient is no less. -/
private theorem sqrt_le_next {n guess : ℕ} (hlow : n.sqrt ≤ guess) :
    n.sqrt ≤ (guess + n / guess) / 2 := by
  rcases Nat.eq_zero_or_pos guess with rfl | hpos
  · omega
  · rcases Nat.lt_or_ge guess (2 * n.sqrt) with hnear | hfar
    · -- twice the root less the guess, times the guess, is no more than the square of the root
      obtain ⟨d, hd⟩ := Nat.exists_eq_add_of_lt hnear
      have hmean := four_mul_le_sq_add guess (d + 1)
      have hsquare := Nat.sqrt_le' n
      have hquotient : d + 1 ≤ n / guess := by
        rw [Nat.le_div_iff_mul_le hpos]
        rw [← Nat.add_assoc, ← hd] at hmean
        nlinarith
      omega
    · generalize n / guess = quotient
      omega

/-- Above the root the quotient of the guess is not above it. -/
private theorem div_le_sqrt {n guess : ℕ} (hguess : n.sqrt < guess) : n / guess ≤ n.sqrt := by
  rw [← Nat.lt_succ_iff]
  apply Nat.div_lt_of_lt_mul
  calc n < n.sqrt.succ * n.sqrt.succ := Nat.lt_succ_sqrt n
    _ ≤ guess * n.sqrt.succ := Nat.mul_le_mul_right _ hguess

/-- Each step halves the distance to the root at least, so that the iteration ends there before the steps are
used up. -/
theorem isqrtLoop_eq_sqrt {n fuel guess : ℕ} (hlow : n.sqrt ≤ guess) (hhigh : guess < n.sqrt + 2 ^ fuel) :
    isqrtLoop n fuel guess = n.sqrt := by
  induction fuel generalizing guess with
  | zero =>
    rw [isqrtLoop]
    omega
  | succ fuel ih =>
    have hnext := sqrt_le_next hlow
    rw [pow_succ] at hhigh
    simp only [isqrtLoop]
    split
    case isTrue hstep =>
      -- a step that falls starts above the root
      have hdiv := div_le_sqrt (show n.sqrt < guess by omega)
      exact ih hnext (by omega)
    case isFalse hlast =>
      by_contra! hne
      have hdiv := div_le_sqrt (show n.sqrt < guess by omega)
      omega

/-- The iteration starts above the root, and with more steps than there are bits. -/
theorem isqrt_eq_sqrt (n : ℕ) : isqrt n = n.sqrt := by
  unfold isqrt
  split
  case isTrue hzero => rw [hzero, Nat.sqrt_zero]
  case isFalse hpos =>
    refine isqrtLoop_eq_sqrt ?_ ?_
    · refine (Nat.sqrt_lt'.2 ?_).le
      calc n < 2 ^ (n.log2 + 1) := Nat.lt_log2_self
        _ ≤ 2 ^ ((n.log2 / 2 + 1) * 2) := Nat.pow_le_pow_right (by norm_num) (by omega)
        _ = (2 ^ (n.log2 / 2 + 1)) ^ 2 := pow_mul _ _ _
    · have hlt : 2 ^ (n.log2 / 2 + 1) < 2 ^ (n.log2 + 2) := Nat.pow_lt_pow_right (by norm_num) (by omega)
      exact Nat.lt_add_left _ hlt

/-! ## The root of an exact number -/

/-- The integer root of the widened significand, with a bit for what is missing. -/
def cutRoot (x : Exact) (f : Format) : Exact :=
  let grow : ℕ := 2 * (f.mantissaBits + 2) - x.significand.log2
  let shift : ℕ := if (x.exponent - grow) % 2 = 0 then grow else grow + 1
  let widened := x.significand * 2 ^ shift
  ⟨x.negative, 2 * widened.sqrt + (if widened.sqrt * widened.sqrt = widened then 0 else 1),
    (x.exponent - shift) / 2 - 1⟩

theorem sqrtRound_eq (x : Exact) (f : Format) (mode : RoundingMode) :
    x.sqrtRound f mode = (x.cutRoot f).round f mode := by
  simp only [sqrtRound, isqrt_eq_sqrt]
  rfl

/-- The cut root of a positive number is positive, and stands for the root in every format with significands
that are not longer. -/
theorem standsForRoot_cutRoot {x : Exact} (hx : 0 < x.value) (hbits : f.mantissaBits ≤ g.mantissaBits) :
    0 < (x.cutRoot g).value ∧ f.StandsForRoot (x.cutRoot g).value x.value := by
  have hneg := x.negative_eq_false_of_pos hx
  have hsig : x.significand ≠ 0 := by simpa [isZero] using x.isZero_of_value_ne_zero hx.ne'
  -- the shift makes the significand long and the exponent even
  obtain ⟨shift, half, hshift, hexp, hcut⟩ : ∃ shift : ℕ, ∃ half : ℤ,
      2 * (g.mantissaBits + 2) ≤ x.significand.log2 + shift ∧ x.exponent - shift = 2 * half ∧
      x.cutRoot g = ⟨x.negative, 2 * (x.significand * 2 ^ shift).sqrt +
        (if (x.significand * 2 ^ shift).sqrt * (x.significand * 2 ^ shift).sqrt = x.significand * 2 ^ shift
          then 0 else 1), half - 1⟩ := by
    refine ⟨_, _, ?_, ?_, rfl⟩
    · split <;> omega
    · split <;> omega
  have hlong : 4 * f.mantissaSpan ≤ (x.significand * 2 ^ shift).sqrt := by
    rw [Nat.le_sqrt']
    calc (4 * f.mantissaSpan) ^ 2 ≤ (2 ^ (g.mantissaBits + 2)) ^ 2 := by
          refine Nat.pow_le_pow_left ?_ 2
          rw [Nat.mul_comm, pow_add]
          exact Nat.mul_le_mul_right _ (Nat.pow_le_pow_right (by norm_num) hbits)
      _ = 2 ^ (2 * (g.mantissaBits + 2)) := by rw [← pow_mul, Nat.mul_comm]
      _ ≤ 2 ^ (x.significand.log2 + shift) := Nat.pow_le_pow_right (by norm_num) hshift
      _ = 2 ^ x.significand.log2 * 2 ^ shift := pow_add _ _ _
      _ ≤ x.significand * 2 ^ shift := Nat.mul_le_mul_right _ (Nat.log2_self_le hsig)
  have hvalue : x.value = (x.significand * 2 ^ shift : ℕ) * 2 ^ (2 * half) := by
    rw [value, hneg, ← hexp, zpow_sub₀ (by norm_num : (2 : ℚ) ≠ 0), zpow_natCast]
    push_cast
    field_simp
  have hroot := Format.standsForRoot_natSqrt hlong half
  rw [← hvalue] at hroot
  have hpos := f.mantissaSpan_pos
  rw [hcut, value, hneg, if_neg Bool.false_ne_true, one_mul]
  refine ⟨mul_pos (Nat.cast_pos.2 ?_) (by positivity), hroot⟩
  dsimp only
  omega

end Exact

namespace Scalar

variable {f g : Format} {a w : ℚ} {x r : Scalar f}

/-- The square root of a positive number is a rounded number that stands for the root. -/
theorem sqrt_isNearest (hf : f.IsBinary) (hx : x.value? = some ((a : ℚ) : Extended)) (ha : 0 < a) :
    ∃ w, 0 < w ∧ x.sqrt.IsNearest w ∧
      ∀ g : Format, g.mantissaBits ≤ f.mantissaBits → g.StandsForRoot w a := by
  obtain ⟨hfinite, rfl, -⟩ := exact_of_value?_eq hx
  refine ⟨(x.exact.cutRoot f).value, (Exact.standsForRoot_cutRoot ha le_rfl).1, ?_, fun g hbits =>
    (Exact.standsForRoot_cutRoot ha hbits).2⟩
  rw [sqrt, datum_of_finite hfinite]
  simp only [Exact.isZero_of_value_ne_zero _ ha.ne', Exact.negative_eq_false_of_pos _ ha, Bool.false_eq_true,
    if_false]
  rw [Exact.sqrtRound_eq]
  exact Exact.isNearest_round _ hf

/-- A zero is its own root. -/
theorem sqrt_of_zero (hx : x.value? = some ((0 : ℚ) : Extended)) : x.sqrt = x := by
  obtain ⟨hfinite, hvalue, -⟩ := exact_of_value?_eq hx
  have hzero : x.exact.isZero = true := by
    rw [Exact.isZero, beq_iff_eq]
    rw [← abs_eq_zero, Exact.abs_value, mul_eq_zero, Nat.cast_eq_zero] at hvalue
    exact hvalue.resolve_right (by positivity)
  rw [sqrt, datum_of_finite hfinite]
  simp only [hzero, if_true]

/-! ## The number nearest to a root -/

/-- The number nearest to the square root of `a`, said over squares: the root is below the threshold of
overflow, it is not beyond the middle to any other value, and in the middle only if the encoding is even. -/
def IsNearestRoot (a : ℚ) (r : Scalar f) : Prop :=
  a < f.overflowThreshold ^ 2 ∧ ∃ q : ℚ, 0 ≤ q ∧ r.value? = some ((q : ℚ) : Extended) ∧
    ∀ p : ℚ, 0 ≤ p → ((p : ℚ) : Extended) ∈ f.values →
      (p < q → ((p + q) / 2) ^ 2 ≤ a) ∧ (q < p → a ≤ ((p + q) / 2) ^ 2) ∧
      (p ≠ q → ((p + q) / 2) ^ 2 = a → r.packed % 2 = 0)

/-- The nearest one to a number that stands for a root is the nearest one to the root. -/
theorem IsNearest.isNearestRoot (hf : f.IsBinary) (h : r.IsNearest w) (hw : 0 < w)
    (hroot : f.StandsForRoot w a) (hrange : a < f.overflowThreshold ^ 2) : r.IsNearestRoot a := by
  obtain ⟨negative, hsign, rfl⟩ := h
  rw [decide_eq_false hw.not_gt] at hsign
  obtain rfl := hsign hw.ne'
  have hfinite : f.nearest w < f.infinity := by
    refine (Format.nearest_le_infinity hf w).lt_of_ne fun h => ?_
    rw [Format.nearest_eq_infinity_iff hf, abs_of_pos hw, ← hf.midpoint_maxFinite, hroot.midpoint_le_iff,
      hf.midpoint_maxFinite] at h
    exact hrange.not_ge h
  refine ⟨hrange, f.magnitudeValue (f.nearest w), f.magnitudeValue_nonneg _, ?_, fun p hp hvalue => ?_⟩
  · rw [value?_ofParts _ hfinite, if_neg Bool.false_ne_true, one_mul]
  · obtain ⟨n, hn, rfl⟩ := (Format.coe_mem_values_iff hf p).1 hvalue
    rw [← abs_of_nonneg hp, f.abs_gridValue, packed_ofParts_mod_two hf _ (hfinite.trans f.infinity_lt_signMask)]
    have hmono := f.magnitudeValue_strictMono
    refine ⟨fun hlt => ?_, fun hlt => ?_, fun hne htie => ?_⟩
    · exact (hroot.sq_middle_le hf hw.le (hmono.lt_iff_lt.1 hlt)).1
    · exact (hroot.le_sq_middle hf hw.le hfinite (hmono.lt_iff_lt.1 hlt)).1
    · rcases lt_or_gt_of_ne hne with hlt | hlt
      · exact (hroot.sq_middle_le hf hw.le (hmono.lt_iff_lt.1 hlt)).2 htie
      · exact (hroot.le_sq_middle hf hw.le hfinite (hmono.lt_iff_lt.1 hlt)).2 htie

/-- What the squares say about the root itself: no other value is closer to it, and if one is as close the
encoding is even. -/
theorem IsNearestRoot.abs_sqrt_sub_le (hf : f.IsBinary) (h : r.IsNearestRoot a) (ha : 0 ≤ a) :
    ∃ q : ℚ, r.value? = some ((q : ℚ) : Extended) ∧ ∀ p : ℚ, ((p : ℚ) : Extended) ∈ f.values →
      |√(a : ℝ) - q| ≤ |√(a : ℝ) - p| ∧
        (|√(a : ℝ) - p| = |√(a : ℝ) - q| → p ≠ q → r.packed % 2 = 0) := by
  obtain ⟨-, q, hq, hvalue, hclosest⟩ := h
  refine ⟨q, hvalue, fun p hp => ?_⟩
  have hsq : √(a : ℝ) ^ 2 = a := Real.sq_sqrt (by exact_mod_cast ha)
  have hq' : (0 : ℝ) ≤ q := by exact_mod_cast hq
  have hmiddle (u : ℚ) (hle : ((u + q) / 2) ^ 2 ≤ a) : ((u : ℝ) + q) / 2 ≤ √a :=
    Real.le_sqrt_of_sq_le (by exact_mod_cast hle)
  -- as close means that the root is in the middle
  have htied (htie : |√(a : ℝ) - p| = |√(a : ℝ) - q|) (hne : p ≠ q) : √(a : ℝ) = (p + q) / 2 := by
    rcases abs_eq_abs.1 htie with h | h
    · exact absurd (by exact_mod_cast sub_right_injective h) hne
    · linarith
  rcases lt_or_ge p 0 with hneg | hnonneg
  · -- a negative number is farther away than zero is
    have hneg' : (p : ℝ) < 0 := by exact_mod_cast hneg
    have hbeyond : ((p : ℝ) + q) / 2 < √a := by
      rcases hq.lt_or_eq with hpos | rfl
      · have hzero : ((0 : ℚ) : Extended) ∈ f.values :=
          (Format.coe_mem_values_iff hf 0).2 ⟨0, hf.infinity_pos, f.gridValue_zero⟩
        have hle := hmiddle 0 ((hclosest 0 le_rfl hzero).1 hpos)
        push_cast at hle
        linarith
      · have hroot := Real.sqrt_nonneg (a : ℝ)
        push_cast
        linarith
    have hlt : (p : ℝ) < q := hneg'.trans_le hq'
    exact ⟨(Format.abs_sub_le_abs_sub_iff hlt).2 hbeyond.le, fun htie hne =>
      absurd (htied htie hne) hbeyond.ne'⟩
  · obtain ⟨hsmaller, hlarger, htie⟩ := hclosest p hnonneg hp
    refine ⟨?_, fun heq hne => htie hne ?_⟩
    · rcases lt_trichotomy p q with hlt | rfl | hlt
      · exact (Format.abs_sub_le_abs_sub_iff (by exact_mod_cast hlt)).2 (hmiddle p (hsmaller hlt))
      · exact le_rfl
      · have hle : √(a : ℝ) ≤ ((q : ℝ) + p) / 2 := by
          have hnonneg' : (0 : ℝ) ≤ p := by exact_mod_cast hnonneg
          rw [Real.sqrt_le_left (by positivity), add_comm]
          exact_mod_cast hlarger hlt
        exact not_lt.1 (mt (Format.abs_sub_lt_abs_sub_iff (by exact_mod_cast hlt)).1 hle.not_gt)
    · rw [htied heq hne] at hsq
      exact_mod_cast hsq

end Scalar

end PrecisionAudit
