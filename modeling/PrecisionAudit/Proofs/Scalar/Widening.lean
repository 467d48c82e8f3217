import PrecisionAudit.Proofs.Scalar.Conversion
import PrecisionAudit.Scalar.Arithmetic

/-!
# Widening

A narrow number is widened to single precision by moving its fields, except for denormals, which
are multiplied out. Both ways give the number's own value under its own sign.

## Main results

- `value?_widen`: widening keeps the value of every encoding.
- `widen_of_isNaN`: a NaN keeps its payload, moved to the top of the longer mantissa.
- `value?_singleToDouble`: so does going on to double precision.
- `widen_denormal_eq_mul`: a widened denormal is the rounded product of its mantissa and its unit,
  so that product rounds nothing.
-/

namespace PrecisionAudit

namespace Format

variable {f : Format}

/-- Single precision has room for the mantissa of a narrow format above the added zeros. -/
theorem IsNarrow.mantissaSpan_mul (hf : f.IsNarrow) :
    f.mantissaSpan * 2 ^ (single.mantissaBits - f.mantissaBits) = single.mantissaSpan := by
  have hbits : f.mantissaBits ≤ single.mantissaBits := hf.mantissaBits_le
  rw [mantissaSpan, mantissaSpan, ← pow_add, Nat.add_sub_cancel' hbits]

end Format

namespace Scalar

variable {f : Format}

/-- A mantissa with the added zeros still fits into single precision. -/
theorem mantissaField_mul_lt (hf : f.IsNarrow) (x : Scalar f) :
    x.mantissaField * 2 ^ (Format.single.mantissaBits - f.mantissaBits) <
      Format.single.mantissaSpan := by
  rw [← hf.mantissaSpan_mul]
  exact Nat.mul_lt_mul_of_pos_right x.mantissaField_lt (Nat.two_pow_pos _)

/-- The infinity of single precision with such a mantissa behind it is still a magnitude. -/
theorem infinity_add_mantissaField_mul_lt (hf : f.IsNarrow) (x : Scalar f) :
    Format.single.infinity +
        x.mantissaField * 2 ^ (Format.single.mantissaBits - f.mantissaBits) <
      Format.single.signMask := by
  have hmantissa := mantissaField_mul_lt hf x
  rw [← Format.infinity_add_mantissaSpan]
  omega

/-! ## Finite numbers -/

/-- The fields of a normal number stay inside their places: it is widened to a significand with
added zeros, in the binade it was in. -/
theorem widen_of_normal (hf : f.IsNarrow) {x : Scalar f} (hx : x.magnitude < f.infinity)
    (hnormal : x.exponentField ≠ 0) :
    ∃ q : ℕ, q + 1 < Format.single.exponentFieldMax ∧
      (q : ℤ) = x.exponentField - f.bias - Format.single.minExponent ∧
      x.widen = ofParts .single x.isNegative (q * Format.single.mantissaSpan +
        (f.mantissaSpan + x.mantissaField) * 2 ^ (Format.single.mantissaBits - f.mantissaBits)) := by
  have hmax : x.exponentField ≠ f.exponentFieldMax := by
    rw [Ne, exponentField_eq_max_iff]
    omega
  have hle := x.exponentField_le
  have htop := hf.exponentFieldMax_eq
  have hbias := hf.embeds.bias_le
  have hsingle : Format.single.bias = 127 := rfl
  have hleast : Format.single.minExponent = -126 := rfl
  have hfieldMax : Format.single.exponentFieldMax = 255 := rfl
  have hpow : 2 ^ Format.single.exponentBits = 256 := rfl
  -- `e - bias` lies between `1 - bias` and `bias`, and the bias is at most that of single precision
  obtain ⟨q, hq⟩ := Int.eq_ofNat_of_zero_le
    (show 0 ≤ (x.exponentField : ℤ) - f.bias - Format.single.minExponent by omega)
  refine ⟨q, by omega, hq.symm, ?_⟩
  have hmod : (((x.exponentField : ℤ) - f.bias + Format.single.bias) %
      (2 * (2 ^ Format.single.exponentBits : ℕ) : ℤ)).toNat = q + 1 := by
    rw [Int.emod_eq_of_lt (by omega) (by omega)]
    omega
  have hlt : q + 1 < 2 ^ Format.single.exponentBits := by omega
  have hspan := hf.mantissaSpan_mul
  simp only [widen, hmax, hnormal, if_false, hmod, Nat.mod_eq_of_lt hlt, Nat.not_le.2 hlt,
    decide_false, Bool.or_false]
  rw [Nat.add_mul f.mantissaSpan, hspan, Nat.add_one_mul, Nat.add_assoc]

/-- Widening stores the magnitude of single precision that has the number's value. -/
theorem widen_of_finite (hf : f.IsNarrow) {x : Scalar f} (hx : x.magnitude < f.infinity) :
    ∃ k < Format.single.infinity,
      x.widen = ofParts .single x.isNegative k ∧
        Format.single.magnitudeValue k = f.magnitudeValue x.magnitude := by
  by_cases hdenormal : x.exponentField = 0
  · -- a zero or a denormal, rounded to a number that single precision has
    obtain ⟨k, hk, hv⟩ := hf.embeds.exists_magnitudeValue_eq hf.toIsBinary
      Format.single_isNarrow.toIsBinary hx
    have hmax : (0 : ℕ) ≠ f.exponentFieldMax := by
      have hthree := hf.three_le_exponentFieldMax
      omega
    refine ⟨k, hk, ?_, hv⟩
    simp only [widen, hdenormal, hmax, if_false, if_true]
    rw [Exact.round_of_eq_magnitudeValue Format.single_isNarrow.toIsBinary _ _ hk, exact_negative]
    rw [exact_magnitudeValue, hv]
  · obtain ⟨q, htop, hq, hwiden⟩ := widen_of_normal hf hx hdenormal
    have hspan := hf.mantissaSpan_mul
    have hmantissa := x.mantissaField_lt
    -- the leading bit stays in its place
    have hlow : Format.single.mantissaSpan ≤
        (f.mantissaSpan + x.mantissaField) * 2 ^ (Format.single.mantissaBits - f.mantissaBits) := by
      rw [← hspan]
      exact Nat.mul_le_mul_right _ (Nat.le_add_right _ _)
    have hhigh : (f.mantissaSpan + x.mantissaField) *
        2 ^ (Format.single.mantissaBits - f.mantissaBits) < 2 * Format.single.mantissaSpan := by
      rw [← hspan, ← Nat.mul_assoc]
      exact Nat.mul_lt_mul_of_pos_right (by omega) (Nat.two_pow_pos _)
    refine ⟨_, ?_, hwiden, ?_⟩
    · calc q * Format.single.mantissaSpan + _
          < (q + 2) * Format.single.mantissaSpan := by rw [Nat.add_mul q 2]; omega
        _ ≤ Format.single.infinity := Nat.mul_le_mul_right _ htop
    · -- the significand gains zeros, and its unit shrinks by as many binades
      have hunit : (x.exponentField : ℤ) - f.bias - f.mantissaBits =
          ((Format.single.mantissaBits - f.mantissaBits : ℕ) : ℤ) + q +
            (Format.single.minExponent - Format.single.mantissaBits) := by
        have hbits := hf.mantissaBits_le
        have hsingle : Format.single.mantissaBits = 23 := rfl
        omega
      rw [← exact_magnitudeValue, exact, if_neg hdenormal, Format.magnitudeValue,
        Format.single.gridCount_mul_add (.inr hlow) hhigh.le, hunit,
        zpow_add₀ (by norm_num : (2 : ℚ) ≠ 0), zpow_add₀ (by norm_num : (2 : ℚ) ≠ 0),
        zpow_natCast, zpow_natCast]
      push_cast
      ring

/-! ## Infinities and NaNs -/

theorem widen_of_infinity_le {x : Scalar f} (hx : f.infinity ≤ x.magnitude) :
    x.widen = ofParts .single x.isNegative (Format.single.infinity +
      x.mantissaField * 2 ^ (Format.single.mantissaBits - f.mantissaBits)) := by
  have hfield := (x.exponentField_eq_max_iff).2 hx
  simp only [widen, hfield, if_true]

theorem widen_of_infinite {x : Scalar f} (hx : x.magnitude = f.infinity) :
    x.widen = infinity .single x.isNegative := by
  rw [widen_of_infinity_le hx.ge, mantissaField_of_infinite hx, Nat.zero_mul, Nat.add_zero, infinity]

/-- A NaN keeps its sign and its payload, which moves to the top of the longer mantissa. -/
theorem widen_of_isNaN (hf : f.IsNarrow) {x : Scalar f} (hx : x.isNaN = true) :
    x.widen.isNegative = x.isNegative ∧ x.widen.isNaN = true ∧
      x.widen.mantissaField =
        x.mantissaField * 2 ^ (Format.single.mantissaBits - f.mantissaBits) := by
  have hmantissa := mantissaField_mul_lt hf x
  have hpos : 0 < x.mantissaField * 2 ^ (Format.single.mantissaBits - f.mantissaBits) := by
    exact Nat.mul_pos (mantissaField_pos_of_isNaN hx) (Nat.two_pow_pos _)
  have hlt := infinity_add_mantissaField_mul_lt hf x
  rw [isNaN_iff, mantissaField, widen_of_infinity_le ((isNaN_iff x).1 hx).le,
    isNegative_ofParts _ hlt, magnitude_ofParts _ hlt]
  refine ⟨rfl, by omega, ?_⟩
  rw [Format.infinity, Format.exponentMask, Nat.add_comm, Nat.add_mul_mod_self_right,
    Nat.mod_eq_of_lt hmantissa]

/-! ## All encodings -/

theorem isNegative_widen (hf : f.IsNarrow) (x : Scalar f) :
    x.widen.isNegative = x.isNegative := by
  rcases lt_trichotomy x.magnitude f.infinity with hx | hx | hx
  · obtain ⟨k, hk, hwiden, -⟩ := widen_of_finite hf hx
    rw [hwiden, isNegative_ofParts _ (hk.trans Format.single.infinity_lt_signMask)]
  · rw [widen_of_infinite hx, infinity, isNegative_ofParts _ Format.single.infinity_lt_signMask]
  · exact (widen_of_isNaN hf ((isNaN_iff x).2 hx)).1

/-- Widening keeps the value of every encoding. -/
theorem value?_widen (hf : f.IsNarrow) (x : Scalar f) : x.widen.value? = x.value? := by
  rcases lt_trichotomy x.magnitude f.infinity with hx | hx | hx
  · obtain ⟨k, hk, hwiden, hv⟩ := widen_of_finite hf hx
    rw [hwiden, value?_ofParts_eq hx hk hv]
  · rw [widen_of_infinite hx, value?_infinity_eq hx]
  · have hnan := (isNaN_iff x).2 hx
    rw [value?_of_isNaN hnan, value?_of_isNaN (widen_of_isNaN hf hnan).2.1]

theorem isNaN_widen (hf : f.IsNarrow) (x : Scalar f) : x.widen.isNaN = x.isNaN :=
  isNaN_eq_of_value?_eq Format.single_isNarrow.toIsBinary hf.toIsBinary (value?_widen hf x)

/-! ## On to double precision -/

/-- A payload that is extended stays one and stays inside the mantissa. -/
theorem extendPayload_bounds (source target : Format) (htarget : target.IsBinary)
    (hbits : source.mantissaBits < target.mantissaBits) {payload : ℕ}
    (hlt : payload < source.mantissaSpan) :
    0 < convertPayload source target payload ∧
      convertPayload source target payload < target.mantissaSpan := by
  have hextended :
      payload * 2 ^ (target.mantissaBits - source.mantissaBits) < 2 ^ target.mantissaBits := by
    calc payload * 2 ^ (target.mantissaBits - source.mantissaBits)
        < source.mantissaSpan * 2 ^ (target.mantissaBits - source.mantissaBits) :=
          Nat.mul_lt_mul_of_pos_right hlt (Nat.two_pow_pos _)
      _ = 2 ^ target.mantissaBits := by
          rw [Format.mantissaSpan, ← pow_add, Nat.add_sub_cancel' hbits.le]
  rw [convertPayload, if_pos hbits]
  exact ⟨(Nat.two_pow_pos _).trans_le Nat.right_le_or,
    Nat.or_lt_two_pow hextended htarget.quietBit_lt⟩

theorem singleToDouble_of_isNaN {x : Single} (hx : x.isNaN = true) :
    x.singleToDouble.isNegative = x.isNegative ∧ x.singleToDouble.isNaN = true := by
  obtain ⟨hpos, hlt⟩ := extendPayload_bounds .single .double Format.double_isBinary (by decide)
    x.mantissaField_lt
  have hmask := Format.double.infinity_add_mantissaSpan
  rw [isNaN_iff, singleToDouble, convert_of_isNaN hx, isNegative_ofParts _ (by omega),
    magnitude_ofParts _ (by omega)]
  exact ⟨rfl, by omega⟩

theorem isNegative_singleToDouble (x : Single) : x.singleToDouble.isNegative = x.isNegative := by
  cases hx : x.isNaN with
  | false =>
    exact (convert_of_embeds Format.single_embeds_double Format.single_isNarrow.toIsBinary
      Format.double_isBinary hx .nearestEven).1
  | true => exact (singleToDouble_of_isNaN hx).1

theorem value?_singleToDouble (x : Single) : x.singleToDouble.value? = x.value? := by
  cases hx : x.isNaN with
  | false =>
    exact (convert_of_embeds Format.single_embeds_double Format.single_isNarrow.toIsBinary
      Format.double_isBinary hx .nearestEven).2
  | true => rw [value?_of_isNaN hx, value?_of_isNaN (singleToDouble_of_isNaN hx).2]

/-! ## Denormals as products -/

/-- A power of two as single precision stores it: in the exponent field, or below the normal numbers
as one bit of the mantissa. -/
def powerOfTwo (n : ℤ) : Single :=
  if Format.single.minExponent ≤ n then
    ofParts .single false ((n + Format.single.bias).toNat * Format.single.mantissaSpan)
  else
    ofParts .single false (2 ^ (n + Format.single.bias - 1 + Format.single.mantissaBits).toNat)

theorem powerOfTwo_eq {n : ℤ} (hlow : Format.single.minExponent - Format.single.mantissaBits ≤ n)
    (hhigh : n ≤ 0) :
    ∃ k < Format.single.infinity,
      powerOfTwo n = ofParts .single false k ∧ Format.single.magnitudeValue k = 2 ^ n := by
  have hleast : Format.single.minExponent = -126 := rfl
  have hbias : Format.single.bias = 127 := rfl
  have hbits : Format.single.mantissaBits = 23 := rfl
  have hspan : Format.single.mantissaSpan = 2 ^ 23 := rfl
  have hinf : Format.single.infinity = 255 * 2 ^ 23 := rfl
  unfold powerOfTwo
  split
  case isTrue hnormal =>
    -- the implicit bit, in binade `q` above the least one
    obtain ⟨q, hq⟩ := Int.eq_ofNat_of_zero_le (show 0 ≤ n + 126 by omega)
    have hfield : (n + Format.single.bias).toNat = q + 1 := by omega
    refine ⟨_, ?_, rfl, ?_⟩
    · rw [hfield, hspan, hinf]
      omega
    · rw [hfield, Nat.add_one_mul, Format.magnitudeValue,
        Format.single.gridCount_mul_add (.inr le_rfl) (by omega), hspan, hleast, hbits,
        show n = 23 + q + (-126 - 23) by omega, zpow_add₀ (by norm_num : (2 : ℚ) ≠ 0),
        zpow_add₀ (by norm_num : (2 : ℚ) ≠ 0), zpow_natCast]
      push_cast
      rfl
  case isFalse hdenormal =>
    -- one bit of the mantissa, counted in least units
    obtain ⟨i, hi⟩ := Int.eq_ofNat_of_zero_le (show 0 ≤ n + 149 by omega)
    have hplace : (n + Format.single.bias - 1 + Format.single.mantissaBits).toNat = i := by omega
    have hlt : 2 ^ i < 2 ^ 23 := Nat.pow_lt_pow_right (by norm_num) (by omega)
    have hcount := Format.single.gridCount_mul_add (q := 0) (n := 2 ^ i) (.inl rfl) (by omega)
    rw [Nat.zero_mul, Nat.zero_add, pow_zero, Nat.mul_one] at hcount
    refine ⟨_, ?_, rfl, ?_⟩
    · rw [hplace, hinf]
      omega
    · rw [hplace, Format.magnitudeValue, hcount, hleast, hbits, show n = i + (-126 - 23) by omega,
        zpow_add₀ (by norm_num : (2 : ℚ) ≠ 0), zpow_natCast]
      push_cast
      rfl

/-- A short integer is stored exactly. -/
theorem ofInt_eq_ofParts (hf : f.IsBinary) (hbits : (f.mantissaBits : ℤ) < f.maxExponent) {n : ℕ}
    (hn : n ≤ 2 * f.mantissaSpan) :
    ∃ k < f.infinity, ofInt f n = ofParts f false k ∧ f.magnitudeValue k = n := by
  obtain ⟨k, hk, hv⟩ := hf.exists_magnitudeValue_eq_natCast hbits hn
  refine ⟨k, hk, ?_, hv⟩
  have hsign : ¬ (n : ℤ) < 0 := by omega
  rw [ofInt, Exact.round_of_eq_magnitudeValue hf _ _ hk]
  · simp [Exact.ofInt, hsign]
  · simp [Exact.ofInt, hv]

/-- A product that the format has is not rounded. -/
theorem mul_of_magnitudeValue_eq (hf : f.IsBinary) {x y : Scalar f} (hx : x.magnitude < f.infinity)
    (hy : y.magnitude < f.infinity) {k : ℕ} (hk : k < f.infinity)
    (hv : f.magnitudeValue k = f.magnitudeValue x.magnitude * f.magnitudeValue y.magnitude) :
    x.mul y = ofParts f (x.isNegative != y.isNegative) k := by
  rw [mul, datum_of_finite hx, datum_of_finite hy]
  dsimp only
  rw [Exact.round_of_eq_magnitudeValue hf _ _ hk, Exact.mul, exact_negative, exact_negative]
  rw [hv, ← exact_magnitudeValue, ← exact_magnitudeValue, Exact.mul,
    zpow_add₀ (by norm_num : (2 : ℚ) ≠ 0)]
  push_cast
  ring

/-- A widened denormal is the single precision product of its mantissa and its unit. The unit may
itself be a denormal of single precision; nothing is rounded all the same. -/
theorem widen_denormal_eq_mul (hf : f.IsNarrow) {x : Scalar f} (hx : x.exponentField = 0) :
    x.widen = ofParts .single x.isNegative
      ((ofInt .single x.mantissaField).mul (powerOfTwo (f.minExponent - f.mantissaBits))).packed := by
  have hfinite : x.magnitude < f.infinity := by
    have hthree := hf.three_le_exponentFieldMax
    rw [← not_le, ← exponentField_eq_max_iff]
    omega
  obtain ⟨k, hk, hwiden, hv⟩ := widen_of_finite hf hfinite
  have hexact := x.exact_magnitudeValue
  rw [exact, if_pos hx] at hexact
  have hmantissa : x.mantissaField ≤ 2 * Format.single.mantissaSpan := by
    have hlt := x.mantissaField_lt
    have hspan : f.mantissaSpan ≤ Format.single.mantissaSpan :=
      Nat.pow_le_pow_right (by norm_num) hf.mantissaBits_le
    omega
  have hunit : Format.single.minExponent - Format.single.mantissaBits ≤
      f.minExponent - f.mantissaBits := by
    have hbits := hf.embeds.mantissaBits_le
    have hbias := hf.embeds.bias_le
    unfold Format.minExponent
    omega
  have hnonpos : f.minExponent - f.mantissaBits ≤ 0 := by
    have hbias := hf.one_le_bias
    unfold Format.minExponent
    omega
  obtain ⟨i, hi, hint, hiv⟩ := ofInt_eq_ofParts Format.single_isNarrow.toIsBinary (by decide) hmantissa
  obtain ⟨j, hj, hpow, hjv⟩ := powerOfTwo_eq hunit hnonpos
  have hsign := Format.single.infinity_lt_signMask
  have hi' := magnitude_ofParts (f := .single) false (hi.trans hsign)
  have hj' := magnitude_ofParts (f := .single) false (hj.trans hsign)
  rw [hint, hpow, mul_of_magnitudeValue_eq Format.single_isNarrow.toIsBinary
    (hi'.trans_lt hi) (hj'.trans_lt hj) hk, packed_ofParts _ (hk.trans hsign), hwiden]
  · simp [isNegative_ofParts, hi.trans hsign, hj.trans hsign]
  · rw [hi', hj', hv, hiv, hjv, hexact]

end Scalar

end PrecisionAudit
