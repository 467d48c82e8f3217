import PrecisionAudit.Proofs.Rounding.Correct
import PrecisionAudit.Scalar.Convert

/-!
# Conversion between formats

A conversion rounds the value of a scalar into another format. If the other format has the value,
nothing is rounded in any mode; if all numbers of one format belong to another, conversion keeps
every value.

## Main results

- `Exact.isRounding_round`: bringing an exact number into a format rounds it correctly.
- `Scalar.convert_of_value?_eq`: a value of the target format is converted to its own encoding.
- `Scalar.convert_of_embeds`: into a larger format, conversion keeps sign and value.
-/

namespace PrecisionAudit

namespace Exact

variable {f : Format}

theorem round_eq_ofParts (x : Exact) (mode : RoundingMode) :
    x.round f mode =
      .ofParts f x.negative (f.encodeRatio mode x.negative x.significand 1 x.exponent) := by
  rw [round, Format.encodeDyadic_eq_encodeRatio]

/-- Bringing an exact number into a format rounds it correctly. -/
theorem isRounding_round (hf : f.IsBinary) (x : Exact) (hx : x.significand ≠ 0)
    (mode : RoundingMode) : (x.round f mode).IsRounding mode x.value := by
  have h := Scalar.isRounding_ofParts hf mode x.negative (Nat.pos_of_ne_zero hx) Nat.one_pos
    x.exponent
  rw [Nat.cast_one, div_one] at h
  rwa [round_eq_ofParts]

/-- An exact number of the format is brought to its own magnitude. -/
theorem round_of_eq_magnitudeValue (hf : f.IsBinary) (x : Exact) (mode : RoundingMode) {m : ℕ}
    (hm : m < f.infinity) (hv : (x.significand : ℚ) * 2 ^ x.exponent = f.magnitudeValue m) :
    x.round f mode = .ofParts f x.negative m := by
  rw [round_eq_ofParts, Format.encodeRatio_of_eq_magnitudeValue hf mode _ Nat.one_pos hm]
  rw [Nat.cast_one, div_one, hv]

end Exact

namespace Scalar

variable {f g : Format}

/-! ## The three kinds of operands -/

theorem exact_significand_eq_zero_iff (x : Scalar f) :
    x.exact.significand = 0 ↔ x.magnitude = 0 := by
  have hv := x.exact_magnitudeValue
  constructor
  · intro h0
    rw [h0, Nat.cast_zero, zero_mul, ← f.magnitudeValue_zero] at hv
    exact (f.magnitudeValue_strictMono.injective hv).symm
  · intro h0
    rw [h0, f.magnitudeValue_zero, mul_eq_zero, Nat.cast_eq_zero] at hv
    exact hv.resolve_right (by positivity)

theorem convert_of_isNaN {x : Scalar f} (hx : x.isNaN = true) (g : Format) (mode : RoundingMode) :
    x.convert g mode =
      ofParts g x.isNegative (g.infinity + convertPayload f g x.mantissaField) := by
  rw [convert, datum_of_isNaN hx]

theorem convert_of_infinite {x : Scalar f} (hx : x.magnitude = f.infinity) (g : Format)
    (mode : RoundingMode) : x.convert g mode = infinity g x.isNegative := by
  rw [convert, datum_of_infinite hx]

theorem convert_of_finite {x : Scalar f} (hx : x.magnitude < f.infinity) (g : Format)
    (mode : RoundingMode) : x.convert g mode = x.exact.round g mode := by
  rw [convert, datum_of_finite hx]

/-- Conversion keeps the sign of a number. -/
theorem isNegative_convert (hg : g.IsBinary) {x : Scalar f} (hx : x.isNaN = false)
    (mode : RoundingMode) : (x.convert g mode).isNegative = x.isNegative := by
  rcases ((not_isNaN_iff x).1 hx).lt_or_eq with hx' | hx'
  · have hle := g.encodeRatio_le_infinity hg mode x.exact.negative x.exact.significand Nat.one_pos
      x.exact.exponent
    rw [convert_of_finite hx', Exact.round_eq_ofParts,
      isNegative_ofParts _ (hle.trans_lt g.infinity_lt_signMask), exact_negative]
  · rw [convert_of_infinite hx', infinity, isNegative_ofParts _ g.infinity_lt_signMask]

/-- Conversion never makes a NaN of a number. -/
theorem isNaN_convert (hg : g.IsBinary) {x : Scalar f} (hx : x.isNaN = false) (mode : RoundingMode) :
    (x.convert g mode).isNaN = false := by
  rcases ((not_isNaN_iff x).1 hx).lt_or_eq with hx' | hx'
  · rw [convert_of_finite hx', Exact.round_eq_ofParts]
    exact (ordinal_ofParts _ (g.encodeRatio_le_infinity hg mode _ _ Nat.one_pos _)).1
  · rw [convert_of_infinite hx']
    exact (ordinal_ofParts _ le_rfl).1

/-! ## Conversions that round nothing -/

/-- If the target format has the magnitude, a number is converted to it in every mode. -/
theorem convert_of_magnitudeValue_eq (hg : g.IsBinary) {x : Scalar f} (hx : x.magnitude < f.infinity)
    {m : ℕ} (hm : m < g.infinity) (hv : g.magnitudeValue m = f.magnitudeValue x.magnitude)
    (mode : RoundingMode) : x.convert g mode = ofParts g x.isNegative m := by
  rw [convert_of_finite hx, Exact.round_of_eq_magnitudeValue hg _ mode hm, exact_negative]
  rw [exact_magnitudeValue, hv]

/-- A value of the target format is converted to its own encoding, whatever the mode. -/
theorem convert_of_value?_eq (hf : f.IsBinary) {x : Scalar f} {y : Scalar g}
    (hsign : y.isNegative = x.isNegative) (hvalue : y.value? = x.value?) (hx : x.isNaN = false)
    (mode : RoundingMode) : y.convert f mode = ofParts f x.isNegative x.magnitude := by
  rcases lt_trichotomy y.magnitude g.infinity with hy | hy | hy
  · rcases ((not_isNaN_iff x).1 hx).lt_or_eq with hx' | hx'
    · rw [value?_of_finite hy, value?_of_finite hx', Option.some_inj] at hvalue
      -- equal values have equal magnitudes, so the encoding of `x` is the one that is found
      have hgrid := Extended.coe_strictMono.injective hvalue
      have hmag : f.magnitudeValue x.magnitude = g.magnitudeValue y.magnitude := by
        rw [← natAbs_ordinal, ← natAbs_ordinal, ← f.abs_gridValue, ← g.abs_gridValue, hgrid]
      rw [convert_of_magnitudeValue_eq hf hy hx' hmag, hsign]
    · rw [value?_of_finite hy, value?_of_infinite hx', Option.some_inj] at hvalue
      exact absurd hvalue (Extended.coe_ne_infinite _ _)
  · rcases ((not_isNaN_iff x).1 hx).lt_or_eq with hx' | hx'
    · rw [value?_of_infinite hy, value?_of_finite hx', Option.some_inj] at hvalue
      exact absurd hvalue.symm (Extended.coe_ne_infinite _ _)
    · rw [convert_of_infinite hy, infinity, hsign, hx']
  · rw [value?_of_isNaN ((isNaN_iff y).2 hy), eq_comm, value?_eq_none_iff hf, hx] at hvalue
    simp at hvalue

end Scalar

/-! ## Larger formats -/

namespace Format

variable {f g : Format}

/-- Every number of the first format is a number of the second. -/
structure Embeds (f g : Format) : Prop where
  mantissaBits_le : f.mantissaBits ≤ g.mantissaBits
  bias_le : f.bias ≤ g.bias

/-- Every narrow format is part of single precision. -/
theorem IsNarrow.embeds (hf : f.IsNarrow) : f.Embeds single where
  mantissaBits_le := hf.mantissaBits_le
  bias_le := by
    have hpow : (2 : ℤ) ^ (f.exponentBits - 1) ≤ 2 ^ (8 - 1) :=
      pow_le_pow_right₀ (by norm_num) (Nat.sub_le_sub_right hf.exponentBits_le 1)
    exact Int.sub_le_sub_right hpow 1

theorem single_embeds_double : single.Embeds double := ⟨by decide, by decide⟩

/-- A finite magnitude of a format has its value in every larger format. -/
theorem Embeds.exists_magnitudeValue_eq (h : f.Embeds g) (hf : f.IsBinary) (hg : g.IsBinary) {m : ℕ}
    (hm : m < f.infinity) : ∃ k < g.infinity, g.magnitudeValue k = f.magnitudeValue m := by
  obtain ⟨n, hn, e, he, -, hv, -⟩ := f.exists_magnitudeValue_eq_mul m
  have hspan : f.mantissaSpan ≤ g.mantissaSpan :=
    Nat.pow_le_pow_right (by norm_num) h.mantissaBits_le
  have hunit : g.minExponent - g.mantissaBits ≤ f.minExponent - f.mantissaBits := by
    have hbits := h.mantissaBits_le
    have hbias := h.bias_le
    unfold minExponent
    omega
  -- the value lies below the smaller infinity, and so below the larger one
  have hrange : (n : ℚ) * 2 ^ e < 2 ^ (g.maxExponent + 1) := by
    rw [← hv]
    exact (f.magnitudeValue_strictMono hm).trans_le (hf.magnitudeValue_le_of_bias_le h.bias_le le_rfl)
  rw [hv]
  exact hg.exists_magnitudeValue_eq (by omega) (hunit.trans he) hrange

end Format

namespace Scalar

variable {f g : Format}

/-- A number stored with the sign and magnitude value of another has its value. -/
theorem value?_ofParts_eq {x : Scalar f} (hx : x.magnitude < f.infinity) {k : ℕ}
    (hk : k < g.infinity) (hv : g.magnitudeValue k = f.magnitudeValue x.magnitude) :
    (ofParts g x.isNegative k).value? = x.value? := by
  rw [value?_ofParts _ hk, value?_of_finite hx, gridValue_ordinal, hv]

/-- The infinities of two formats have the same value. -/
theorem value?_infinity_eq {x : Scalar f} (hx : x.magnitude = f.infinity) :
    (infinity g x.isNegative).value? = x.value? := by
  have hlt := g.infinity_lt_signMask
  rw [infinity, value?_of_infinite hx, value?_of_infinite (magnitude_ofParts _ hlt),
    isNegative_ofParts _ hlt]

/-- Into a larger format, conversion keeps sign and value. -/
theorem convert_of_embeds (h : f.Embeds g) (hf : f.IsBinary) (hg : g.IsBinary) {x : Scalar f}
    (hx : x.isNaN = false) (mode : RoundingMode) :
    (x.convert g mode).isNegative = x.isNegative ∧ (x.convert g mode).value? = x.value? := by
  rcases ((not_isNaN_iff x).1 hx).lt_or_eq with hx' | hx'
  · obtain ⟨k, hk, hv⟩ := h.exists_magnitudeValue_eq hf hg hx'
    rw [convert_of_magnitudeValue_eq hg hx' hk hv]
    exact ⟨isNegative_ofParts _ (hk.trans g.infinity_lt_signMask), value?_ofParts_eq hx' hk hv⟩
  · rw [convert_of_infinite hx']
    exact ⟨isNegative_ofParts _ g.infinity_lt_signMask, value?_infinity_eq hx'⟩

end Scalar

end PrecisionAudit
