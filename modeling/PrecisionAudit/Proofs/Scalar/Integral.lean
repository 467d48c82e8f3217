import PrecisionAudit.Proofs.Rounding.Integral
import PrecisionAudit.Proofs.Scalar.Arithmetic

/-!
# Remainders and integers in one format

The remainder of a truncated quotient and the integer that a rule makes of a number are numbers of the
format, so that the last rounding of these operations changes nothing. Both take the sign of the number
they start from, also where they are zero.

## Main results

- `Scalar.value?_rem`: the remainder is exact.
- `IntegerRule.value?_apply`: so is rounding to an integer, by every rule.
-/

namespace PrecisionAudit

/-! ## Exact results -/

namespace Exact

variable {f : Format} {rule : IntegerRule} (x y : Exact)

/-- The count of units has the sign of the number. -/
theorem inUnits_eq_sign_mul (unit : ℤ) :
    x.inUnits unit = (if x.negative then -1 else 1) * (x.inUnits unit).natAbs := by
  unfold inUnits
  cases x.negative <;> simp [abs_of_nonneg]

theorem value_rem : (x.rem y).value = x.value - y.value * truncate (x.value / y.value) := by
  have hxvalue := x.inUnits_mul (min_le_left x.exponent y.exponent)
  have hyvalue := y.inUnits_mul (min_le_right x.exponent y.exponent)
  rw [inUnits_eq_sign_mul] at hxvalue hyvalue
  rw [rem, value]
  generalize min x.exponent y.exponent = unit at *
  generalize (x.inUnits unit).natAbs = m at *
  generalize (y.inUnits unit).natAbs = n at *
  have hpos : (0 : ℚ) < 2 ^ unit := by positivity
  -- the quotient of the values is the one of the counts, up to both signs
  have hquotient (s t : ℚ) : s * m * 2 ^ unit / (t * n * 2 ^ unit) = s / t * (m / n) := by
    rw [mul_div_mul_right _ _ hpos.ne', mul_div_mul_comm]
  have hmod : ((m % n : ℕ) : ℚ) = m - n * (m / n : ℕ) := by
    rw [eq_sub_iff_add_eq]
    exact_mod_cast Nat.mod_add_div m n
  rw [← hxvalue, ← hyvalue]
  push_cast
  rw [hquotient, hmod]
  cases x.negative <;> cases y.negative <;>
    simp only [reduceIte, Bool.false_eq_true, div_one, div_neg, neg_neg, one_mul, neg_mul, truncate_neg,
      truncate_natCast_div, Int.cast_neg, Int.cast_natCast] <;>
    ring

/-- A number becomes the integer that the rule stands for. -/
theorem exists_value_toIntegral (rule : IntegerRule) :
    ∃ n : ℤ, rule.Rounds x.value n ∧ (x.toIntegral (rule.magnitude x.negative)).value = n := by
  rcases le_or_gt 0 x.exponent with hexp | hexp
  · have hvalue := x.inUnits_mul hexp
    rw [zpow_zero, mul_one] at hvalue
    rw [toIntegral, if_pos hexp, ← hvalue]
    exact ⟨_, IntegerRule.rounds_intCast_iff.2 rfl, rfl⟩
  · -- the number is a fraction with a power of two below
    have hden : (0 : ℕ) < 2 ^ (-x.exponent).toNat := Nat.two_pow_pos _
    have hfraction : x.value =
        (if x.negative then -1 else 1) * (x.significand / (2 ^ (-x.exponent).toNat : ℕ)) := by
      have hnat : ((-x.exponent).toNat : ℤ) = -x.exponent := Int.toNat_of_nonneg (by omega)
      rw [value, div_eq_mul_inv, Nat.cast_pow, Nat.cast_ofNat, ← zpow_natCast, ← zpow_neg, hnat, neg_neg]
    refine ⟨_, hfraction ▸ rule.rounds_magnitude x.negative x.significand hden, ?_⟩
    rw [toIntegral, if_neg hexp.not_ge, value]
    cases x.negative <;> simp

@[simp]
theorem toIntegral_negative (roundMagnitude : ℕ → ℕ → ℕ) :
    (x.toIntegral roundMagnitude).negative = x.negative := by
  unfold toIntegral
  split <;> rfl

/-- An exact number that belongs to a format is not rounded. -/
theorem round_of_abs_value_eq (hf : f.IsBinary) {m : ℕ} (hm : m < f.infinity)
    (hv : |x.value| = f.magnitudeValue m) (mode : RoundingMode) :
    (x.round f mode).value? = some ((x.value : ℚ) : Extended) ∧
      (x.round f mode).isNegative = x.negative := by
  rw [abs_value] at hv
  rw [round_of_eq_magnitudeValue hf x mode hm hv]
  refine ⟨?_, Scalar.isNegative_ofParts _ (hm.trans f.infinity_lt_signMask)⟩
  rw [Scalar.value?_ofParts _ hm, ← hv, value]

end Exact

/-! ## The operations -/

namespace Scalar

variable {f : Format} {x y : Scalar f} {a b : ℚ}

/-- The remainder of finite numbers is exact and has the sign of the dividend. -/
theorem value?_rem (hf : f.IsBinary) (hx : x.value? = some ((a : ℚ) : Extended))
    (hy : y.value? = some ((b : ℚ) : Extended)) (hb : b ≠ 0) :
    (x.rem y).value? = some ((a - b * truncate (a / b) : ℚ) : Extended) ∧
      (x.rem y).isNegative = x.isNegative := by
  obtain ⟨hxfinite, rfl, ha⟩ := exact_of_value?_eq hx
  obtain ⟨hyfinite, rfl, hb'⟩ := exact_of_value?_eq hy
  obtain ⟨m, hm, hv⟩ := hf.exists_magnitudeValue_eq_remainder ha hxfinite hb' hb
  rw [← Exact.value_rem] at hv ⊢
  rw [rem, datum_of_finite hxfinite, datum_of_finite hyfinite]
  dsimp only
  rw [Exact.isZero_of_value_ne_zero _ hb, if_neg Bool.false_ne_true, ← x.exact_negative]
  exact (x.exact.rem y.exact).round_of_abs_value_eq hf hm hv .nearestEven

end Scalar

namespace IntegerRule

variable {f : Format} {x : Scalar f} {v : ℚ}

/-- The operation that follows the rule. -/
def apply : IntegerRule → Scalar f → Scalar f
  | floor => Scalar.floor
  | ceil => Scalar.ceil
  | trunc => Scalar.trunc
  | round => Scalar.roundAway
  | nearbyint => Scalar.roundEven

/-- All the operations round a magnitude under its sign. -/
theorem apply_eq (rule : IntegerRule) (x : Scalar f) :
    rule.apply x = x.toIntegral (rule.magnitude x.isNegative) := by
  cases rule <;> rfl

/-- Rounding a finite number to an integer is exact and keeps the sign. -/
theorem value?_apply (hf : f.IsBinary) (hbits : (f.mantissaBits : ℤ) < f.maxExponent) (rule : IntegerRule)
    (hx : x.value? = some ((v : ℚ) : Extended)) :
    ∃ n : ℤ, rule.Rounds v n ∧ (rule.apply x).value? = some (((n : ℚ)) : Extended) ∧
      (rule.apply x).isNegative = x.isNegative := by
  obtain ⟨hfinite, rfl, hv⟩ := Scalar.exact_of_value?_eq hx
  obtain ⟨n, hn, hvalue⟩ := x.exact.exists_value_toIntegral rule
  obtain ⟨m, hm, hnv⟩ := hf.exists_magnitudeValue_eq_rounds hbits hv hfinite hn
  rw [← hvalue] at hnv
  have hround := Exact.round_of_abs_value_eq _ hf hm hnv .nearestEven
  rw [hvalue, Exact.toIntegral_negative, Scalar.exact_negative] at hround
  rw [apply_eq, Scalar.toIntegral, Scalar.datum_of_finite hfinite]
  exact ⟨n, hn, hround⟩

end IntegerRule

end PrecisionAudit
