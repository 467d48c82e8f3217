import PrecisionAudit.Proofs.Scalar.Conversion

/-!
# Narrowing

Narrowing brings a single precision number into a narrow format. It keeps the sign, keeps NaNs,
infinities and zeros what they are, and rounds every other number correctly in all four modes,
denormals, carries and overflows included.

## Main results

- `shortenPayload_bounds`: a payload is never lost altogether and never leaves the mantissa.
- `narrow_correct`: narrowing in full.
-/

namespace PrecisionAudit

namespace Scalar

variable {f : Format}

theorem narrow_eq_convert_of_isNarrow (hf : f.IsNarrow) (x : Single) (mode : RoundingMode) :
    narrow f x mode = x.convert f mode :=
  narrow_eq_convert x mode hf.embeds.bias_le

/-! ## Payloads -/

/-- A nonzero payload stays one: it is never lost altogether and never leaves the mantissa. -/
theorem shortenPayload_bounds (source target : Format) (htarget : target.IsBinary)
    (hbits : target.mantissaBits ≤ source.mantissaBits) {payload : ℕ} (hpos : 0 < payload)
    (hlt : payload < source.mantissaSpan) :
    0 < shortenPayload source target payload ∧
      shortenPayload source target payload < target.mantissaSpan := by
  have hspan : source.mantissaSpan =
      target.mantissaSpan * 2 ^ (source.mantissaBits - target.mantissaBits) := by
    rw [Format.mantissaSpan, Format.mantissaSpan, ← pow_add, Nat.add_sub_cancel' hbits]
  have hkept : payload / 2 ^ (source.mantissaBits - target.mantissaBits) < target.mantissaSpan := by
    rw [Nat.div_lt_iff_lt_mul (Nat.two_pow_pos _), ← hspan]
    exact hlt
  have htwo : 2 ≤ target.mantissaSpan := by
    have heven := htarget.even_mantissaSpan
    have hpos := target.mantissaSpan_pos
    omega
  dsimp only [shortenPayload]
  cases target.nanRule with
  | quiet =>
    -- the quiet bit is the top bit of the mantissa
    exact ⟨(Nat.two_pow_pos _).trans_le Nat.right_le_or,
      Nat.or_lt_two_pow hkept htarget.quietBit_lt⟩
  | saturate =>
    dsimp only
    split
    case isTrue hexact =>
      exact ⟨Nat.div_pos (Nat.le_of_dvd hpos (Nat.dvd_of_mod_eq_zero hexact)) (Nat.two_pow_pos _),
        hkept⟩
    case isFalse =>
      unfold Format.mantissaMask
      omega

/-- A NaN of single precision becomes a NaN with the same sign. -/
theorem narrow_of_isNaN (hf : f.IsNarrow) {x : Single} (hx : x.isNaN = true) (mode : RoundingMode) :
    (narrow f x mode).isNegative = x.isNegative ∧
      (narrow f x mode).magnitude =
        f.infinity + shortenPayload .single f x.mantissaField := by
  have hconvert : convertPayload .single f x.mantissaField =
      shortenPayload .single f x.mantissaField :=
    if_neg (not_lt.2 hf.mantissaBits_le)
  obtain ⟨-, hlt⟩ := shortenPayload_bounds .single f hf.toIsBinary hf.mantissaBits_le
    (mantissaField_pos_of_isNaN hx) x.mantissaField_lt
  have hmask := f.infinity_add_mantissaSpan
  rw [narrow_eq_convert_of_isNarrow hf, convert_of_isNaN hx, hconvert]
  exact ⟨isNegative_ofParts _ (by omega), magnitude_ofParts _ (by omega)⟩

/-! ## Correct rounding -/

theorem narrow_of_isInfinite (hf : f.IsNarrow) {x : Single} (hx : x.isInfinite = true)
    (mode : RoundingMode) : narrow f x mode = infinity f x.isNegative := by
  rw [narrow_eq_convert_of_isNarrow hf, convert_of_infinite ((isInfinite_iff x).1 hx)]

theorem narrow_of_isZero (hf : f.IsNarrow) {x : Single} (hx : x.isZero = true)
    (mode : RoundingMode) : narrow f x mode = ofParts f x.isNegative 0 := by
  have hmag := (isZero_iff x).1 hx
  have hfinite : x.magnitude < Format.single.infinity := by
    rw [hmag]
    exact Format.single_isNarrow.infinity_pos
  rw [narrow_eq_convert_of_isNarrow hf, convert_of_finite hfinite, Exact.round_eq_ofParts,
    (exact_significand_eq_zero_iff x).2 hmag, exact_negative, Format.encodeRatio, if_pos rfl]

/-- A finite number other than zero is rounded correctly. -/
theorem narrow_isRounding (hf : f.IsNarrow) {x : Single} (hx : x.isFinite = true)
    (hne : x.isZero = false) (mode : RoundingMode) :
    (narrow f x mode).IsRounding mode x.exact.value := by
  have hsignificand : x.exact.significand ≠ 0 := by
    rw [Ne, exact_significand_eq_zero_iff, ← isZero_iff, hne]
    simp
  rw [narrow_eq_convert_of_isNarrow hf, convert_of_finite ((isFinite_iff x).1 hx)]
  exact x.exact.isRounding_round hf.toIsBinary hsignificand mode

/-- Narrowing keeps the sign in every case. -/
theorem isNegative_narrow (hf : f.IsNarrow) (x : Single) (mode : RoundingMode) :
    (narrow f x mode).isNegative = x.isNegative := by
  cases hx : x.isNaN with
  | false =>
    rw [narrow_eq_convert_of_isNarrow hf]
    exact isNegative_convert hf.toIsBinary hx mode
  | true => exact (narrow_of_isNaN hf hx mode).1

/-- Narrowing keeps the sign, keeps NaNs, infinities and zeros what they are, and rounds every
other number correctly. -/
theorem narrow_correct (hf : f.IsNarrow) (mode : RoundingMode) (x : Single) :
    (narrow f x mode).isNegative = x.isNegative ∧
      (x.isNaN = true → (narrow f x mode).isNaN = true ∧ (narrow f x mode).isInfinite = false) ∧
      (x.isInfinite = true → (narrow f x mode).isInfinite = true) ∧
      (x.isZero = true → (narrow f x mode).isZero = true) ∧
      (x.isFinite = true → x.isZero = false → ∃ v : ℚ, x.value? = some ((v : ℚ) : Extended) ∧
        v ≠ 0 ∧ (narrow f x mode).IsRounding mode v) := by
  refine ⟨isNegative_narrow hf x mode, ?_, ?_, ?_, ?_⟩
  · intro hx
    obtain ⟨-, hmag⟩ := narrow_of_isNaN hf hx mode
    obtain ⟨hpos, -⟩ := shortenPayload_bounds .single f hf.toIsBinary hf.mantissaBits_le
      (mantissaField_pos_of_isNaN hx) x.mantissaField_lt
    rw [isNaN_iff, ← Bool.not_eq_true, isInfinite_iff, hmag]
    omega
  · intro hx
    rw [narrow_of_isInfinite hf hx, isInfinite_iff]
    exact magnitude_ofParts _ f.infinity_lt_signMask
  · intro hx
    rw [narrow_of_isZero hf hx, isZero_iff]
    exact magnitude_ofParts _ f.signMask_pos
  · intro hx hne
    refine ⟨x.exact.value, ?_, ?_, narrow_isRounding hf hx hne mode⟩
    · rw [value?_of_finite ((isFinite_iff x).1 hx), value_exact]
    · intro h0
      rw [value_exact, ← Format.single.gridValue_zero] at h0
      have hord := Format.single.gridValue_strictMono.injective h0
      rw [ordinal_eq_zero_iff, hne] at hord
      exact absurd hord (by simp)

/-- A signaling NaN, an infinity and a zero, and the tie between the largest half precision number
and infinity. -/
theorem narrow_correct_half :
    (narrow .half (ofNat .single 0xff800001) .upward).isNaN = true ∧
      (narrow .half (ofNat .single 0xff800000) .upward).isInfinite = true ∧
      (narrow .half (ofNat .single 0x80000000) .upward).isZero = true ∧
      ∃ v : ℚ, (ofNat .single 0x477ff000).value? = some ((v : ℚ) : Extended) ∧ v ≠ 0 ∧
        (narrow .half (ofNat .single 0x477ff000) .nearestEven).IsRounding .nearestEven v :=
  ⟨((narrow_correct Format.half_isNarrow _ _).2.1 (by decide)).1,
    (narrow_correct Format.half_isNarrow _ _).2.2.1 (by decide),
    (narrow_correct Format.half_isNarrow _ _).2.2.2.1 (by decide),
    (narrow_correct Format.half_isNarrow _ _).2.2.2.2 (by decide) (by decide)⟩

end Scalar

end PrecisionAudit
