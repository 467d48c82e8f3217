import PrecisionAudit.Precision
import PrecisionAudit.Proofs.Narrow.Comparison
import PrecisionAudit.Proofs.Scalar.Narrowing

/-!
# Integers as numbers of a format

Short integers are values of a format. A longer one is rounded, but rounding never takes it past a value
of the format, and so not past any short integer either. A value that a working precision has survives
the way there from double precision.

## Main results

- `Scalar.natCast_mem_values`: short integers are values.
- `Scalar.exists_value?_ofInt_eq`: a rounded integer stays on its side of every value.
- `Scalar.isNegative_convert_eq`, `Scalar.isNaN_convert_eq`: what a conversion keeps of every number, a NaN too.
- `Precision.value?_toDouble`, `Precision.value?_ofDouble`: between a working precision and double
  precision.
- `Precision.value?_ofDouble_congr`: what has one value has one value in a working precision.
-/

namespace PrecisionAudit

namespace Scalar

variable {f g : Format}

/-! ## Rounded integers -/

theorem natCast_mem_values (hf : f.IsBinary) (hbits : (f.mantissaBits : ℤ) < f.maxExponent) {n : ℕ}
    (hn : n ≤ 2 * f.mantissaSpan) : ((n : ℚ) : Extended) ∈ f.values := by
  obtain ⟨m, hm, hv⟩ := hf.exists_magnitudeValue_eq_natCast hbits hn
  exact hv ▸ Format.coe_magnitudeValue_mem_values hf hm

/-- A short integer keeps its value. -/
theorem value?_ofInt (hf : f.IsBinary) (hbits : (f.mantissaBits : ℤ) < f.maxExponent) {n : ℕ}
    (hn : n ≤ 2 * f.mantissaSpan) : (ofInt f n).value? = some ((n : ℚ) : Extended) := by
  obtain ⟨k, hk, hint, hv⟩ := ofInt_eq_ofParts hf hbits hn
  rw [hint, value?_ofParts _ hk, hv]
  simp

theorem exact_ofInt_value (n : ℤ) : (Exact.ofInt n).value = n := by
  rcases lt_or_ge n 0 with hn | hn
  · simp [Exact.ofInt, Exact.value, hn, abs_of_neg (Int.cast_lt_zero (R := ℚ).2 hn)]
  · simp [Exact.ofInt, Exact.value, hn.not_gt, abs_of_nonneg (Int.cast_nonneg (R := ℚ) hn)]

/-- A rounded integer stays on its side of every value of the format. -/
theorem exists_value?_ofInt_eq (hf : f.IsBinary) {n : ℕ} (hn : (n : ℚ) < f.overflowThreshold) :
    ∃ q : ℚ, (ofInt f n).value? = some ((q : ℚ) : Extended) ∧
      ∀ v : ℚ, ((v : ℚ) : Extended) ∈ f.values → (v ≤ n → v ≤ q) ∧ (n ≤ v → q ≤ v) := by
  rcases Nat.eq_zero_or_pos n with rfl | hpos
  · refine ⟨0, ?_, fun v _ => ?_⟩
    · rw [ofInt, Exact.round_of_eq_magnitudeValue hf _ _ hf.infinity_pos (by simp [Exact.ofInt]),
        value?_ofParts_zero hf]
    · rw [Nat.cast_zero]
      exact ⟨id, id⟩
  · have hsignificand : (Exact.ofInt n).significand ≠ 0 := hpos.ne'
    obtain ⟨hinfinite, hnearest⟩ :=
      ((Exact.ofInt n).isRounding_round hf hsignificand .nearestEven).value_spec
    rw [exact_ofInt_value, Int.cast_natCast] at hinfinite hnearest
    have hfinite : (ofInt f n).isInfinite = false := by
      rw [← Bool.not_eq_true]
      intro h
      have hover := hinfinite.1 h
      rw [Nat.abs_cast] at hover
      exact hn.not_ge hover
    obtain ⟨q, hq, hclosest⟩ := hnearest hfinite
    refine ⟨q, hq, fun v hv => ?_⟩
    have hclose := (hclosest v hv).1
    -- a value on the other side would be closer than the nearest one
    constructor
    · intro hle
      rw [abs_of_nonneg (sub_nonneg.2 hle)] at hclose
      linarith [le_abs_self ((n : ℚ) - q)]
    · intro hle
      rw [abs_of_nonpos (sub_nonpos.2 hle)] at hclose
      linarith [neg_le_abs ((n : ℚ) - q)]

/-! ## Conversions -/

/-- A value that the target format has is not changed. -/
theorem value?_convert (hg : g.IsBinary) {x : Scalar f} {v : Extended} (hx : x.value? = some v)
    (hv : v ∈ g.values) (mode : RoundingMode) : (x.convert g mode).value? = some v := by
  rcases lt_trichotomy x.magnitude f.infinity with hx' | hx' | hx'
  · rw [value?_of_finite hx', Option.some_inj] at hx
    subst hx
    obtain ⟨n, hn, hgrid⟩ := (Format.coe_mem_values_iff hg _).1 hv
    have hmag : g.magnitudeValue n.natAbs = f.magnitudeValue x.magnitude := by
      rw [← g.abs_gridValue, hgrid, f.abs_gridValue, natAbs_ordinal]
    rw [convert_of_magnitudeValue_eq hg hx' hn hmag, value?_ofParts_eq hx' hn hmag,
      value?_of_finite hx']
  · rw [convert_of_infinite hx', value?_infinity_eq hx', hx]
  · rw [value?_of_isNaN ((isNaN_iff x).2 hx')] at hx
    cases hx

/-- In every direction a payload stays one and stays inside the mantissa. -/
theorem convertPayload_bounds (source target : Format) (htarget : target.IsBinary) {payload : ℕ}
    (hpos : 0 < payload) (hlt : payload < source.mantissaSpan) :
    0 < convertPayload source target payload ∧
      convertPayload source target payload < target.mantissaSpan := by
  rcases lt_or_ge source.mantissaBits target.mantissaBits with hbits | hbits
  · exact extendPayload_bounds source target htarget hbits hlt
  · rw [convertPayload, if_neg hbits.not_gt]
    exact shortenPayload_bounds source target htarget hbits hpos hlt

/-- A NaN becomes a NaN with the same sign. -/
theorem isNaN_convert_of_isNaN (hg : g.IsBinary) {x : Scalar f} (hx : x.isNaN = true) (mode : RoundingMode) :
    (x.convert g mode).isNegative = x.isNegative ∧ (x.convert g mode).isNaN = true := by
  obtain ⟨hpos, hlt⟩ := convertPayload_bounds f g hg (mantissaField_pos_of_isNaN hx) x.mantissaField_lt
  have hmask := g.infinity_add_mantissaSpan
  have hmagnitude : g.infinity + convertPayload f g x.mantissaField < g.signMask := by omega
  rw [isNaN_iff, convert_of_isNaN hx, isNegative_ofParts _ hmagnitude, magnitude_ofParts _ hmagnitude]
  exact ⟨rfl, by omega⟩

theorem isNegative_convert_eq (hg : g.IsBinary) (x : Scalar f) (mode : RoundingMode) :
    (x.convert g mode).isNegative = x.isNegative := by
  cases hx : x.isNaN with
  | false => exact isNegative_convert hg hx mode
  | true => exact (isNaN_convert_of_isNaN hg hx mode).1

theorem isNaN_convert_eq (hg : g.IsBinary) (x : Scalar f) (mode : RoundingMode) :
    (x.convert g mode).isNaN = x.isNaN := by
  cases hx : x.isNaN with
  | false => exact isNaN_convert hg hx mode
  | true => exact (isNaN_convert_of_isNaN hg hx mode).2

theorem isNaN_ofSingle_eq (hf : f.IsNarrow) (x : Single) : (ofSingle f x).isNaN = x.isNaN := by
  rw [ofSingle, narrow_eq_convert_of_isNarrow hf, isNaN_convert_eq hf.toIsBinary]

theorem value?_ofSingle (hf : f.IsNarrow) {x : Single} {v : Extended} (hx : x.value? = some v)
    (hv : v ∈ f.values) : (ofSingle f x).value? = some v := by
  rw [ofSingle, narrow_eq_convert_of_isNarrow hf]
  exact value?_convert hf.toIsBinary hx hv .nearestEven

end Scalar

/-- Single precision has the values of every narrow format. -/
theorem Format.IsNarrow.values_subset {f : Format} (hf : f.IsNarrow) : f.values ⊆ Format.single.values := by
  rintro v ⟨x, hx⟩
  exact ⟨x.widen, (x.value?_widen hf).trans hx⟩

/-! ## Working precisions -/

namespace Precision

variable {p : Precision}

/-- Going up to double precision keeps the value. -/
theorem value?_toDouble (x : p.Value) : (p.toDouble x).value? = x.value? := by
  cases p with
  | half => exact Narrow.value?_toDouble Format.half_isNarrow x
  | bfloat => exact Narrow.value?_toDouble Format.bfloat_isNarrow x
  | tfloat => exact Narrow.value?_toDouble Format.tfloat_isNarrow x
  | single => exact x.value?_singleToDouble
  | double => rfl

/-- Coming down from double precision keeps the sign. -/
theorem isNegative_ofDouble (x : Double) : (p.ofDouble x).isNegative = x.isNegative := by
  have hsingle : x.doubleToSingle.isNegative = x.isNegative :=
    Scalar.isNegative_convert_eq Format.single_isNarrow.toIsBinary x .nearestEven
  cases p with
  | half | bfloat | tfloat => exact (Scalar.isNegative_narrow (by decide) _ .nearestEven).trans hsingle
  | single => exact hsingle
  | double => rfl

/-- Coming down from double precision makes a NaN of NaNs only, and of all of them. -/
theorem isNaN_ofDouble_eq (x : Double) : (p.ofDouble x).isNaN = x.isNaN := by
  have hsingle : x.doubleToSingle.isNaN = x.isNaN :=
    Scalar.isNaN_convert_eq Format.single_isNarrow.toIsBinary x .nearestEven
  cases p with
  | half | bfloat | tfloat => exact (Scalar.isNaN_ofSingle_eq (by decide) _).trans hsingle
  | single => exact hsingle
  | double => rfl

theorem isNaN_ofDouble {x : Double} (hx : x.isNaN = false) : (p.ofDouble x).isNaN = false :=
  (isNaN_ofDouble_eq x).trans hx

/-- Coming down from double precision keeps a value that the working precision has. -/
theorem value?_ofDouble {x : Double} {v : Extended} (hx : x.value? = some v) (hv : v ∈ p.format.values) :
    (p.ofDouble x).value? = some v := by
  have hsingle (hv : v ∈ Format.single.values) : x.doubleToSingle.value? = some v :=
    Scalar.value?_convert Format.single_isNarrow.toIsBinary hx hv .nearestEven
  cases p with
  | half | bfloat | tfloat =>
    -- on the way single precision has the value, too
    refine Scalar.value?_ofSingle (by decide) (hsingle ?_) hv
    exact Format.IsNarrow.values_subset (by decide) hv
  | single => exact hsingle hv
  | double => exact hx

/-- Every precision has zero, so that both zeros are brought to a zero. -/
theorem value?_ofDouble_of_zero {x : Double} (hx : x.magnitude = 0) :
    (p.ofDouble x).value? = some ((0 : ℚ) : Extended) := by
  refine value?_ofDouble ?_ ⟨_, Scalar.value?_ofParts_zero p.isBinary_format false⟩
  rw [← Scalar.ofParts_isNegative_magnitude rfl x, hx, Scalar.value?_ofParts_zero Format.double_isBinary]

/-- Numbers of the same value are brought to numbers of the same value. -/
theorem value?_ofDouble_congr {x y : Double} (h : x.value? = y.value?) :
    (p.ofDouble x).value? = (p.ofDouble y).value? := by
  have hnan := Scalar.isNaN_eq_of_value?_eq Format.double_isBinary Format.double_isBinary h
  cases hx : x.isNaN with
  | true =>
    rw [Scalar.value?_of_isNaN ((isNaN_ofDouble_eq x).trans hx),
      Scalar.value?_of_isNaN ((isNaN_ofDouble_eq y).trans (hnan ▸ hx))]
  | false =>
    have hplace := Scalar.ordinal_eq_of_value?_eq Format.double_isBinary hx h
    have hmag : x.magnitude = y.magnitude := by rw [← x.natAbs_ordinal, hplace, y.natAbs_ordinal]
    by_cases hzero : x.ordinal = 0
    · have hx0 : x.magnitude = 0 := by rw [← x.natAbs_ordinal, hzero, Int.natAbs_zero]
      rw [value?_ofDouble_of_zero hx0, value?_ofDouble_of_zero (hmag ▸ hx0)]
    · -- apart from the zeros there is one number of each value
      have hsign := Scalar.isNegative_eq_of_ordinal_eq hplace hzero
      rw [← Scalar.ofParts_isNegative_magnitude rfl x, hsign, hmag, Scalar.ofParts_isNegative_magnitude rfl y]

end Precision

end PrecisionAudit
