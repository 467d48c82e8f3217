import PrecisionAudit.Proofs.Rounding.Nearest
import PrecisionAudit.Proofs.Scalar.Widening

/-!
# Widening and the classes of numbers

The number that an encoding stands for is written in its fields, and widening gives exactly that number in
single precision. The classes of numbers are tests on the fields as well; each of them holds if the widened
number is of that kind. Widening treats sign and magnitude separately, so that what changes only the sign may
be done before it or after it.

## Main results

- `Scalar.widensExactly`: the widened number by the fields.
- `Scalar.classifies_value?`: the classes by the value.
- `Scalar.widen_of_magnitude_eq`: the magnitude of a widened number depends on the magnitude alone.
- `Scalar.widen_exact`: the three together, with the operations on signs and denormals.
-/

namespace PrecisionAudit

/-- The smallest normal number is a power of two. -/
theorem Format.magnitudeValue_mantissaSpan (f : Format) :
    f.magnitudeValue f.mantissaSpan = 2 ^ f.minExponent := by
  have hcount := f.gridCount_mul_add (q := 0) (n := f.mantissaSpan) (.inl rfl) (by omega)
  rw [Nat.zero_mul, Nat.zero_add, pow_zero, Nat.mul_one] at hcount
  rw [magnitudeValue, hcount, mantissaSpan_eq_zpow, ← zpow_add₀ (by norm_num)]
  ring_nf

namespace Scalar

variable {f : Format} {x y : Scalar f}

/-! ## Fields -/

/-- The widened number is the one that the fields stand for. -/
structure WidensExactly (x : Scalar f) : Prop where
  isNegative : x.widen.isNegative = x.isNegative
  /-- Without exponent, the mantissa counts the least unit of the format. -/
  denormal : x.exponentField = 0 → x.widen.value? =
    some (((if x.isNegative then -1 else 1) *
      (x.mantissaField * 2 ^ (f.minExponent - f.mantissaBits)) : ℚ) : Extended)
  /-- That number is a product in single precision, in which nothing is rounded. -/
  product : x.exponentField = 0 → x.widen = ofParts .single x.isNegative
    ((ofInt .single x.mantissaField).mul (powerOfTwo (f.minExponent - f.mantissaBits))).packed
  /-- With an ordinary exponent, the mantissa stands behind a leading one. -/
  normal : x.exponentField ≠ 0 → x.exponentField < f.exponentFieldMax → x.widen.value? =
    some (((if x.isNegative then -1 else 1) *
      ((1 + x.mantissaField / 2 ^ f.mantissaBits) * 2 ^ (x.exponentField - f.bias)) : ℚ) : Extended)
  infinite : x.exponentField = f.exponentFieldMax → x.mantissaField = 0 →
    x.widen = infinity .single x.isNegative
  /-- The payload of a NaN is moved to the top of the longer mantissa. -/
  payload : x.exponentField = f.exponentFieldMax → x.mantissaField ≠ 0 → x.widen.isNaN = true ∧
    x.widen.mantissaField = x.mantissaField * 2 ^ (Format.single.mantissaBits - f.mantissaBits)

theorem widensExactly (hf : f.IsNarrow) (x : Scalar f) : x.WidensExactly := by
  have hthree := hf.three_le_exponentFieldMax
  have hvalue (h : x.exponentField ≠ f.exponentFieldMax) :
      x.widen.value? = some ((x.exact.value : ℚ) : Extended) := by
    rw [Ne, exponentField_eq_max_iff, not_le] at h
    rw [value?_widen hf, value?_of_datum (datum_of_finite h)]
  refine ⟨isNegative_widen hf x, fun hfield => ?_, widen_denormal_eq_mul hf, fun hfield hlt => ?_,
    fun hfield hmantissa => ?_, fun hfield hmantissa => ?_⟩
  · rw [hvalue (by omega), exact, if_pos hfield, Exact.value]
  · rw [hvalue hlt.ne, exact, if_neg hfield, Exact.value]
    -- the leading one is worth the span of the mantissa
    have hsplit : (2 : ℚ) ^ ((x.exponentField : ℤ) - f.bias) =
        2 ^ f.mantissaBits * 2 ^ ((x.exponentField : ℤ) - f.bias - f.mantissaBits) := by
      rw [← zpow_natCast, ← zpow_add₀ (by norm_num)]
      ring_nf
    rw [hsplit, Format.mantissaSpan]
    push_cast
    field_simp
  · have hmag := magnitude_of_infinity_le ((x.exponentField_eq_max_iff).1 hfield)
    exact widen_of_infinite (by omega)
  · have hnan : x.isNaN = true := by simp [isNaN, hfield, hmantissa]
    exact (widen_of_isNaN hf hnan).2

/-! ## Classes -/

/-- The classes of a number say what its value is. -/
structure Classifies (x : Scalar f) (value : Option Extended) : Prop where
  isNaN_iff : x.isNaN = true ↔ value = none
  isInfinite_iff : x.isInfinite = true ↔ value = some ⊤ ∨ value = some ⊥
  isFinite_iff : x.isFinite = true ↔ ∃ q : ℚ, value = some ((q : ℚ) : Extended)
  isZero_iff : x.isZero = true ↔ value = some ((0 : ℚ) : Extended)
  isDenormal_iff : x.isDenormal = true ↔
    ∃ q : ℚ, value = some ((q : ℚ) : Extended) ∧ 0 < |q| ∧ |q| < 2 ^ f.minExponent

/-- A number is finite and its magnitude of some size if its value is a rational number of that size. -/
theorem exists_value?_abs_iff (x : Scalar f) (p : ℚ → Prop) :
    (∃ q : ℚ, x.value? = some ((q : ℚ) : Extended) ∧ p |q|) ↔
      x.magnitude < f.infinity ∧ p (f.magnitudeValue x.magnitude) := by
  constructor
  · rintro ⟨q, hq, hp⟩
    obtain ⟨hfinite, -, habs⟩ := exact_of_value?_eq hq
    exact ⟨hfinite, habs ▸ hp⟩
  · rintro ⟨hfinite, hp⟩
    refine ⟨_, value?_of_finite hfinite, ?_⟩
    rwa [f.abs_gridValue, natAbs_ordinal]

theorem isInfinite_iff_value? (x : Scalar f) :
    x.isInfinite = true ↔ x.value? = some ⊤ ∨ x.value? = some ⊥ := by
  rw [isInfinite_iff]
  rcases lt_trichotomy x.magnitude f.infinity with hx | hx | hx
  · rw [value?_of_finite hx, Option.some_inj, Option.some_inj]
    simp only [hx.ne, (Extended.coe_lt_top _).ne, (Extended.bot_lt_coe _).ne', or_self]
  · rw [value?_of_infinite hx]
    cases x.isNegative <;> simp [hx]
  · rw [value?_of_isNaN ((isNaN_iff x).2 hx)]
    simp [hx.ne']

theorem classifies_value? (hf : f.IsBinary) (x : Scalar f) : x.Classifies x.value? := by
  have hthree := hf.three_le_exponentFieldMax
  have hspan : f.mantissaSpan ≤ f.infinity := Nat.le_mul_of_pos_left _ (by omega)
  have hpos := hf.infinity_pos
  -- the classes of finite numbers are conditions on the size of the value
  refine ⟨(value?_eq_none_iff hf x).symm, isInfinite_iff_value? x, ?_, ?_, ?_⟩
  · have hiff := x.exists_value?_abs_iff fun _ => True
    simp only [and_true] at hiff
    rw [hiff, isFinite_iff]
  · have hiff := x.exists_value?_abs_iff fun size => size = 0
    simp only [abs_eq_zero, exists_eq_right] at hiff
    rw [hiff, isZero_iff, ← f.magnitudeValue_zero, f.magnitudeValue_strictMono.injective.eq_iff]
    omega
  · rw [exists_value?_abs_iff x fun size => 0 < size ∧ size < 2 ^ f.minExponent, isDenormal_iff,
      ← f.magnitudeValue_mantissaSpan, ← f.magnitudeValue_zero,
      f.magnitudeValue_strictMono.lt_iff_lt, f.magnitudeValue_strictMono.lt_iff_lt]
    omega

/-! ## Sign and magnitude -/

/-- Widening a magnitude gives the same magnitude under every sign. -/
theorem widen_of_magnitude_eq (hf : f.IsNarrow) (h : y.magnitude = x.magnitude) :
    y.widen = ofParts .single y.isNegative x.widen.magnitude := by
  rcases lt_or_ge x.magnitude f.infinity with hx | hx
  · -- no two magnitudes of single precision have this value
    obtain ⟨k, hk, hwiden, hv⟩ := widen_of_finite hf hx
    obtain ⟨j, hj, hother, hw⟩ := widen_of_finite hf (h.trans_lt hx)
    have hsame : j = k := Format.single.magnitudeValue_strictMono.injective (by rw [hv, hw, h])
    rw [hother, hwiden, magnitude_ofParts _ (hk.trans Format.single.infinity_lt_signMask), hsame]
  · rw [widen_of_infinity_le (hx.trans_eq h.symm), widen_of_infinity_le hx,
      magnitude_ofParts _ (infinity_add_mantissaField_mul_lt hf x), mantissaField, mantissaField, h]

theorem widen_neg (hf : f.IsNarrow) (x : Scalar f) : x.neg.widen = x.widen.neg := by
  rw [widen_of_magnitude_eq hf x.magnitude_neg, isNegative_neg, neg, isNegative_widen hf]

theorem widen_abs (hf : f.IsNarrow) (x : Scalar f) : x.abs.widen = x.widen.abs := by
  rw [widen_of_magnitude_eq hf x.magnitude_abs, isNegative_abs, abs]

theorem widen_copySign (hf : f.IsNarrow) (x y : Scalar f) :
    (x.copySign y).widen = x.widen.copySign y.widen := by
  rw [widen_of_magnitude_eq hf (x.magnitude_copySign y), isNegative_copySign, copySign,
    isNegative_widen hf]

theorem widen_ofParts_zero (hf : f.IsNarrow) (negative : Bool) :
    (ofParts f negative 0).widen = ofParts .single negative 0 := by
  have hmag : (ofParts f negative 0).magnitude = 0 := magnitude_ofParts _ f.signMask_pos
  obtain ⟨k, -, hwiden, hv⟩ := widen_of_finite hf (hmag.trans_lt hf.infinity_pos)
  rw [hmag, f.magnitudeValue_zero, ← Format.single.magnitudeValue_zero] at hv
  rw [hwiden, isNegative_ofParts _ f.signMask_pos, Format.single.magnitudeValue_strictMono.injective hv]

/-! ## All together -/

/-- Widening is exact, and the classes of a number are those of the widened number; a denormal is one that
lies below the normal numbers of its own format. Negation, absolute value and the sign of another number give
the same word before and after widening, and without denormals a widened denormal becomes a zero of its sign. -/
theorem widen_exact (hf : f.IsNarrow) (x y : Scalar f) :
    x.WidensExactly ∧ x.Classifies x.widen.value? ∧ x.widen.Classifies x.widen.value? ∧
      x.neg.widen = x.widen.neg ∧ x.abs.widen = x.widen.abs ∧
      (x.copySign y).widen = x.widen.copySign y.widen ∧
      x.flushToZero.widen = if x.isDenormal then ofParts .single x.isNegative 0 else x.widen := by
  refine ⟨widensExactly hf x, ?_, classifies_value? Format.single_isNarrow.toIsBinary _,
    widen_neg hf x, widen_abs hf x, widen_copySign hf x y, ?_⟩
  · rw [value?_widen hf]
    exact classifies_value? hf.toIsBinary x
  · rw [flushToZero]
    split
    · exact widen_ofParts_zero hf _
    · rfl

/-- A negative denormal of tfloat, stored above padding, and a NaN that is given its sign. -/
theorem widen_exact_tfloat :
    let x : Tfloat := ⟨0x80006abc⟩
    let y : Tfloat := ⟨0x7f802000⟩
    Format.tfloat.IsNarrow ∧ x.widen.value? = some (((-3 * 2 ^ (-136 : ℤ) : ℚ)) : Extended) ∧
      x.flushToZero.widen = ofParts .single true 0 ∧ y.widen.isNaN = true ∧
      y.widen.mantissaField = 0x2000 ∧ (y.copySign x).widen = y.widen.copySign x.widen := by
  intro x y
  obtain ⟨hx, -, -, -, -, -, hflush⟩ := widen_exact Format.tfloat_isNarrow x y
  obtain ⟨hy, -, -, -, -, hcopy, -⟩ := widen_exact Format.tfloat_isNarrow y x
  have hsign : x.isNegative = true := by decide
  have hmantissa : x.mantissaField = 3 := by decide
  obtain ⟨hnan, hpayload⟩ := hy.payload (by decide) (by decide)
  refine ⟨Format.tfloat_isNarrow, ?_, ?_, hnan, hpayload.trans (by decide), hcopy⟩
  · rw [hx.denormal (by decide), hsign, hmantissa]
    norm_num [Format.minExponent, Format.bias, Format.tfloat]
  · rw [hflush, if_pos (by decide), hsign]

end Scalar

end PrecisionAudit
