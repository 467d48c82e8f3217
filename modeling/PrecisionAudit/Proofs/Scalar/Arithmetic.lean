import PrecisionAudit.Proofs.Rounding.Nearest
import PrecisionAudit.Proofs.Scalar.Conversion
import PrecisionAudit.Scalar.Arithmetic

/-!
# Arithmetic in one format

Sum, difference, product and quotient of finite numbers of a format are their exact results, rounded
once to nearest even. A result that is zero may have either sign.

## Main results

- `Scalar.IsNearest.roundsTo`: the nearest magnitude under the right sign is the rounding of a number.
- `Scalar.convert_isNearest`: a conversion gives the nearest number of the other format.
- `Scalar.add_isNearest`, `Scalar.sub_isNearest`, `Scalar.mul_isNearest`, `Scalar.div_isNearest`: the
  operations round once.
-/

namespace PrecisionAudit

namespace Scalar

variable {f g : Format} {v a b : ℚ} {x y r : Scalar f}

/-! ## The nearest number of a format -/

/-- `r` is `v` rounded once to nearest even. If `v` is zero, either zero is. -/
def RoundsTo (v : ℚ) (r : Scalar f) : Prop :=
  (v = 0 → r.isZero = true) ∧ (v ≠ 0 → r.IsRounding .nearestEven v)

/-- `r` holds the magnitude nearest to `v`, under the sign of `v` unless that is zero. -/
def IsNearest (v : ℚ) (r : Scalar f) : Prop :=
  ∃ negative, (v ≠ 0 → negative = decide (v < 0)) ∧ r = ofParts f negative (f.nearest v)

/-- The nearest magnitude under the right sign is the rounding of a number. -/
theorem IsNearest.roundsTo (hf : f.IsBinary) (h : r.IsNearest v) : r.RoundsTo v := by
  obtain ⟨negative, hsign, rfl⟩ := h
  constructor
  · rintro rfl
    rw [Format.nearest_zero hf, isZero_iff, magnitude_ofParts _ f.signMask_pos]
  · intro hv
    rw [hsign hv]
    exact isRounding_nearest hf hv

theorem IsNearest.isNearestEven (hf : f.IsBinary) (h : r.IsNearest v) : r.IsNearestEven v := by
  obtain ⟨negative, hsign, rfl⟩ := h
  exact (isNearestEven_ofParts_iff hf (Format.nearest_le_infinity hf v) hsign).2 rfl

/-! ## Finite operands -/

/-- The negated number has the negated value. -/
theorem value?_neg (hx : x.value? = some ((v : ℚ) : Extended)) :
    x.neg.value? = some ((-v : ℚ) : Extended) := by
  obtain ⟨hfinite, hv, -⟩ := exact_of_value?_eq hx
  rw [neg, value?_ofParts _ hfinite, ← hv, value_exact, gridValue_ordinal]
  cases x.isNegative <;> simp

end Scalar

/-! ## Exact results -/

namespace Exact

variable {f : Format} (x y : Exact)

theorem value_add : (x.add y).value = x.value + y.value := by
  have hx := x.inUnits_mul (min_le_left x.exponent y.exponent)
  have hy := y.inUnits_mul (min_le_right x.exponent y.exponent)
  rw [← hx, ← hy, ← add_mul, ← Int.cast_add, add, ofUnits, value]
  generalize x.inUnits _ + y.inUnits _ = n
  have habs : (n.natAbs : ℚ) = |(n : ℚ)| := by rw [Nat.cast_natAbs, Int.cast_abs]
  rw [habs, ← mul_assoc]
  congr 1
  -- what is left is the sign of the sum, in units of the smaller exponent
  rcases lt_trichotomy n 0 with hn | rfl | hn
  · simp [hn.ne, hn, abs_of_neg (Int.cast_lt_zero.2 hn)]
  · simp
  · simp [hn.ne', hn.not_gt, abs_of_pos (Int.cast_pos.2 hn)]

private theorem sign_bne (s t : Bool) : (if (s != t) = true then (-1 : ℚ) else 1) =
    (if s = true then -1 else 1) * (if t = true then -1 else 1) := by
  cases s <;> cases t <;> simp

theorem value_mul : (x.mul y).value = x.value * y.value := by
  unfold value mul
  rw [sign_bne, zpow_add₀ (by norm_num : (2 : ℚ) ≠ 0)]
  push_cast
  ring

theorem abs_value : |x.value| = x.significand * 2 ^ x.exponent := by
  have hnonneg : (0 : ℚ) ≤ x.significand * 2 ^ x.exponent := by positivity
  unfold value
  cases x.negative <;> simp [abs_of_nonneg hnonneg]

theorem isZero_of_value_ne_zero (hx : x.value ≠ 0) : x.isZero = false := by
  rw [isZero, beq_eq_false_iff_ne]
  intro h0
  exact hx (by rw [value, h0, Nat.cast_zero, zero_mul, mul_zero])

/-- The sign of an exact number other than zero is that of its value. -/
theorem negative_eq (hx : x.value ≠ 0) : x.negative = decide (x.value < 0) := by
  have hpos : 0 < (x.significand : ℚ) * 2 ^ x.exponent := by rwa [← abs_value, abs_pos]
  unfold value
  cases x.negative <;> simp [hpos, hpos.le]

theorem negative_eq_false_of_pos (hx : 0 < x.value) : x.negative = false := by
  rw [x.negative_eq hx.ne', decide_eq_false hx.not_gt]

/-- An exact number is brought to the nearest one of a format. -/
theorem isNearest_round (hf : f.IsBinary) : (x.round f .nearestEven).IsNearest x.value := by
  refine ⟨x.negative, x.negative_eq, ?_⟩
  rw [round_eq_ofParts, Format.encodeRatio_eq_nearest hf _ Nat.one_pos]
  rw [Nat.cast_one, div_one, abs_value]

/-- The quotient of exact numbers is rounded once. -/
theorem isNearest_divRound (hf : f.IsBinary) (hy : y.value ≠ 0) :
    (x.divRound y f .nearestEven).IsNearest (x.value / y.value) := by
  have hden : 0 < y.significand := by
    rw [← abs_pos, abs_value] at hy
    exact Nat.cast_pos.1 (pos_of_mul_pos_left hy (by positivity))
  refine ⟨x.negative != y.negative, fun hv => ?_, ?_⟩
  · -- the two flags are the signs of the values, of which neither is zero
    obtain ⟨hx, -⟩ := div_ne_zero_iff.1 hv
    rw [x.negative_eq hx, y.negative_eq hy]
    rcases lt_or_gt_of_ne hx with hx | hx <;> rcases lt_or_gt_of_ne hy with hy | hy
    · simp [hx, hy, (div_pos_of_neg_of_neg hx hy).le]
    · simp [hx, hy.not_gt, div_neg_of_neg_of_pos hx hy]
    · simp [hx.not_gt, hy, div_neg_of_pos_of_neg hx hy]
    · simp [hx.not_gt, hy.not_gt, (div_pos hx hy).le]
  · rw [divRound, Format.encodeRatio_eq_nearest hf _ hden]
    rw [abs_div, abs_value, abs_value, zpow_sub₀ (by norm_num : (2 : ℚ) ≠ 0)]
    field_simp

end Exact

/-! ## The operations -/

namespace Scalar

variable {f g : Format} {v a b : ℚ} {x y : Scalar f}

/-- A conversion gives the nearest number of the other format. -/
theorem convert_isNearest (hg : g.IsBinary) (hx : x.value? = some ((v : ℚ) : Extended)) :
    (x.convert g .nearestEven).IsNearest v := by
  obtain ⟨hfinite, rfl, -⟩ := exact_of_value?_eq hx
  rw [convert_of_finite hfinite]
  exact x.exact.isNearest_round hg

section

variable (hf : f.IsBinary) (hx : x.value? = some ((a : ℚ) : Extended))
  (hy : y.value? = some ((b : ℚ) : Extended))

include hf hx hy

theorem add_isNearest : (x.add y).IsNearest (a + b) := by
  obtain ⟨hxfinite, rfl, -⟩ := exact_of_value?_eq hx
  obtain ⟨hyfinite, rfl, -⟩ := exact_of_value?_eq hy
  rw [add, datum_of_finite hxfinite, datum_of_finite hyfinite, ← Exact.value_add]
  exact Exact.isNearest_round _ hf

theorem sub_isNearest : (x.sub y).IsNearest (a - b) := by
  have hnan : y.isNaN = false := (not_isNaN_iff y).2 (exact_of_value?_eq hy).1.le
  rw [sub, if_neg (by simp [hnan]), sub_eq_add_neg]
  exact add_isNearest hf hx (value?_neg hy)

theorem mul_isNearest : (x.mul y).IsNearest (a * b) := by
  obtain ⟨hxfinite, rfl, -⟩ := exact_of_value?_eq hx
  obtain ⟨hyfinite, rfl, -⟩ := exact_of_value?_eq hy
  rw [mul, datum_of_finite hxfinite, datum_of_finite hyfinite, ← Exact.value_mul]
  exact Exact.isNearest_round _ hf

theorem div_isNearest (hb : b ≠ 0) : (x.div y).IsNearest (a / b) := by
  obtain ⟨hxfinite, rfl, -⟩ := exact_of_value?_eq hx
  obtain ⟨hyfinite, rfl, -⟩ := exact_of_value?_eq hy
  rw [div, datum_of_finite hxfinite, datum_of_finite hyfinite]
  dsimp only
  rw [Exact.isZero_of_value_ne_zero _ hb, if_neg Bool.false_ne_true]
  exact Exact.isNearest_divRound _ _ hf hb

end

end Scalar

end PrecisionAudit
