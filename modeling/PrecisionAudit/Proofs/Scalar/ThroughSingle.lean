import PrecisionAudit.Precision
import PrecisionAudit.Proofs.Rounding.Twice
import PrecisionAudit.Proofs.Scalar.Arithmetic
import PrecisionAudit.Proofs.Scalar.Integers

/-!
# Through single precision

A narrow number is reached from anywhere by way of single precision: the nearest number of single
precision is narrowed to the nearest narrow number. So the result is the nearest narrow number unless
the first rounding misleads the second one.

## Main results

- `Scalar.ofSingle_ofParts`: narrowing finds the nearest magnitude.
- `Scalar.IsNearest.ofSingle`: a number that does not mislead is rounded once.
- `Scalar.IsNearest.roundsTo_ofSingle_iff`: and one that misleads is not.
- `Precision.ofDouble_isNearestEven_iff`: when a number of double precision is brought to the nearest
  one of a working precision.
-/

namespace PrecisionAudit

namespace Format

variable {f g : Format}

/-- The infinity of a format stands above every threshold of a format with a shorter exponent. -/
theorem nearest_magnitudeValue_infinity (hf : f.IsBinary) (hg : g.IsBinary) (hbias : f.bias ≤ g.bias) :
    f.nearest (g.magnitudeValue g.infinity) = f.infinity := by
  rw [nearest_eq_infinity_iff hf, abs_of_nonneg (g.magnitudeValue_nonneg _), ← hf.midpoint_maxFinite]
  calc f.midpoint f.maxFinite ≤ f.magnitudeValue (f.maxFinite + 1) := (f.midpoint_lt _).le
    _ ≤ 2 ^ (g.maxExponent + 1) := hf.magnitudeValue_le_of_bias_le hbias hf.maxFinite_add_one.le
    _ = g.magnitudeValue g.infinity := hg.magnitudeValue_infinity.symm

end Format

namespace Scalar

variable {f g : Format} {v : ℚ}

/-- Conversion finds the magnitude nearest to the one it is given. -/
theorem convert_ofParts (hf : f.IsBinary) (hg : g.IsBinary) (hbias : g.bias ≤ f.bias)
    (negative : Bool) {m : ℕ} (hm : m ≤ f.infinity) :
    (ofParts f negative m).convert g .nearestEven =
      ofParts g negative (g.nearest (f.magnitudeValue m)) := by
  have hlt := hm.trans_lt f.infinity_lt_signMask
  have hmag := magnitude_ofParts (f := f) negative hlt
  have hsign := isNegative_ofParts (f := f) negative hlt
  rcases hm.lt_or_eq with hm' | rfl
  · rw [convert_of_finite (hmag.trans_lt hm'), Exact.round_eq_ofParts, exact_negative, hsign,
      Format.encodeRatio_eq_nearest hg _ Nat.one_pos]
    rw [Nat.cast_one, div_one, exact_magnitudeValue, hmag, abs_of_nonneg (f.magnitudeValue_nonneg m)]
  · -- infinity is a magnitude like the others, above the threshold of the other format
    rw [convert_of_infinite hmag, infinity, hsign, Format.nearest_magnitudeValue_infinity hg hf hbias]

/-- Narrowing finds the magnitude nearest to that of a single precision number. -/
theorem ofSingle_ofParts (hf : f.IsNarrow) (negative : Bool) {m : ℕ} (hm : m ≤ Format.single.infinity) :
    ofSingle f (ofParts .single negative m) =
      ofParts f negative (f.nearest (Format.single.magnitudeValue m)) := by
  rw [ofSingle, narrow_eq_convert_of_isNarrow hf]
  exact convert_ofParts Format.single_isNarrow.toIsBinary hf.toIsBinary hf.embeds.bias_le negative hm

/-- A number that does not mislead is rounded once. -/
theorem IsNearest.ofSingle (hf : f.IsNarrow) (hbits : f.mantissaBits < Format.single.mantissaBits)
    {r : Single} (h : r.IsNearest v) (hnot : ¬ Format.single.Misleads f v) :
    (ofSingle f r).IsNearest v := by
  have hsingle := Format.single_isNarrow.toIsBinary
  obtain ⟨negative, hsign, rfl⟩ := h
  refine ⟨negative, hsign, ?_⟩
  rw [ofSingle_ofParts hf negative (Format.nearest_le_infinity hsingle v),
    (Format.nearest_nearest_iff hf.embeds hbits hf.toIsBinary hsingle).2 hnot]

/-- Narrowed, the nearest single precision number is the nearest narrow one exactly if it does not
mislead. -/
theorem IsNearest.isNearestEven_ofSingle_iff (hf : f.IsNarrow)
    (hbits : f.mantissaBits < Format.single.mantissaBits) {r : Single} (h : r.IsNearest v) :
    (Scalar.ofSingle f r).IsNearestEven v ↔ ¬ Format.single.Misleads f v := by
  have hsingle := Format.single_isNarrow.toIsBinary
  obtain ⟨negative, hsign, rfl⟩ := h
  rw [ofSingle_ofParts hf negative (Format.nearest_le_infinity hsingle v),
    isNearestEven_ofParts_iff hf.toIsBinary (Format.nearest_le_infinity hf.toIsBinary _) hsign,
    eq_comm, Format.nearest_nearest_iff hf.embeds hbits hf.toIsBinary hsingle]

theorem IsNearest.roundsTo_ofSingle_iff (hf : f.IsNarrow)
    (hbits : f.mantissaBits < Format.single.mantissaBits) {r : Single} (h : r.IsNearest v) :
    (Scalar.ofSingle f r).RoundsTo v ↔ ¬ Format.single.Misleads f v := by
  refine ⟨fun hround => ?_, fun hnot => (h.ofSingle hf hbits hnot).roundsTo hf.toIsBinary⟩
  rcases eq_or_ne v 0 with rfl | hv
  · exact Format.not_misleads_of_magnitudeValue Format.single_isNarrow.toIsBinary (Nat.zero_le _)
      (by rw [abs_zero, Format.magnitudeValue_zero])
  · exact (h.isNearestEven_ofSingle_iff hf hbits).1 (hround.2 hv).value_spec

end Scalar

/-! ## From double precision -/

namespace Narrow

variable {f : Format} {x : Double}

theorem isNegative_ofDouble (hf : f.IsNarrow) (hx : x.isNaN = false) :
    (ofDouble f x).isNegative = x.isNegative := by
  rw [ofDouble, Scalar.ofSingle, Scalar.isNegative_narrow hf]
  exact Scalar.isNegative_convert Format.single_isNarrow.toIsBinary hx .nearestEven

theorem isInfinite_ofDouble (hf : f.IsNarrow) (hx : x.isInfinite = true) :
    (ofDouble f x).isInfinite = true := by
  have hsingle : x.doubleToSingle.isInfinite = true := by
    rw [Scalar.doubleToSingle, Scalar.convert_of_infinite ((Scalar.isInfinite_iff x).1 hx)]
    exact (Scalar.isInfinite_ofParts_iff _ le_rfl).2 rfl
  rw [ofDouble, Scalar.ofSingle, Scalar.narrow_of_isInfinite hf hsingle]
  exact (Scalar.isInfinite_ofParts_iff _ le_rfl).2 rfl

/-- A double precision number is brought to the nearest narrow number, unless single precision misleads. -/
theorem isNearestEven_ofDouble_iff (hf : f.IsNarrow)
    (hbits : f.mantissaBits < Format.single.mantissaBits) {v : ℚ}
    (hx : x.value? = some ((v : ℚ) : Extended)) :
    (ofDouble f x).IsNearestEven v ↔ ¬ Format.single.Misleads f v :=
  (Scalar.convert_isNearest Format.single_isNarrow.toIsBinary hx).isNearestEven_ofSingle_iff hf hbits

end Narrow

namespace Precision

/-- What a working precision makes of a double precision number other than a NaN: it keeps the sign and
an infinity, and finds the nearest number, ties to even and overflow to infinity included, unless single
precision lies on the way and misleads. -/
theorem ofDouble_isNearestEven_iff (p : Precision) {x : Double} (hx : x.isNaN = false) :
    (p.ofDouble x).isNaN = false ∧ (p.ofDouble x).isNegative = x.isNegative ∧
      (x.isInfinite = true → (p.ofDouble x).isInfinite = true) ∧
      ∀ v : ℚ, x.value? = some ((v : ℚ) : Extended) →
        ((p.ofDouble x).IsNearestEven v ↔
          ¬ (p.isCustom = true ∧ Format.single.Misleads p.format v)) := by
  have hsingle := Format.single_isNarrow.toIsBinary
  refine ⟨isNaN_ofDouble hx, ?_⟩
  -- only the custom formats are narrowed from single precision
  cases p with
  | half | bfloat | tfloat =>
    refine ⟨Narrow.isNegative_ofDouble (by decide) hx, Narrow.isInfinite_ofDouble (by decide),
      fun v hv => ?_⟩
    refine Iff.trans (Narrow.isNearestEven_ofDouble_iff (by decide) (by decide) hv) ?_
    simp [isCustom]
  | single =>
    refine ⟨Scalar.isNegative_convert hsingle hx .nearestEven, fun hinf => ?_, fun v hv => ?_⟩
    · rw [ofDouble, Scalar.doubleToSingle, Scalar.convert_of_infinite ((Scalar.isInfinite_iff x).1 hinf)]
      exact (Scalar.isInfinite_ofParts_iff _ le_rfl).2 rfl
    · exact iff_of_true ((Scalar.convert_isNearest hsingle hv).isNearestEven hsingle) (by simp [isCustom])
  | double =>
    refine ⟨rfl, id, fun v hv => ?_⟩
    exact iff_of_true (Scalar.isNearestEven_self Format.double_isBinary hv) (by simp [isCustom])

/-- The midpoint between one and the next half precision number is a number of single precision, and
goes to the even one. -/
theorem ofDouble_isNearestEven_midpoint :
    (Scalar.ofNat .double 0x3ff0020000000000).value? = some (((2049 * 2 ^ (-11 : ℤ) : ℚ)) : Extended) ∧
      (Precision.half.ofDouble (Scalar.ofNat .double 0x3ff0020000000000)).IsNearestEven
        (2049 * 2 ^ (-11 : ℤ)) := by
  have hvalue : (Scalar.ofNat .double 0x3ff0020000000000).value? =
      some (((2049 * 2 ^ (-11 : ℤ) : ℚ)) : Extended) := by
    have hdatum : (Scalar.ofNat .double 0x3ff0020000000000).datum =
        .finite ⟨false, 2 ^ 52 + 2 ^ 41, -52⟩ := by decide +kernel
    rw [Scalar.value?_of_datum hdatum, Exact.value]
    norm_num
  have hsingle : ¬ Format.single.Misleads Precision.half.format (2049 * 2 ^ (-11 : ℤ)) := by
    have hrange : ((2049 : ℕ) : ℚ) * 2 ^ (-11 : ℤ) < 2 ^ (Format.single.maxExponent + 1) :=
      lt_of_lt_of_le (by norm_num : _ < (2 : ℚ) ^ (2 : ℤ))
        (zpow_le_zpow_right₀ (by norm_num) (by decide))
    obtain ⟨k, hk, hv⟩ := Format.single_isNarrow.exists_magnitudeValue_eq (n := 2049) (by decide)
      (e := -11) (by decide) hrange
    refine Format.not_misleads_of_magnitudeValue Format.single_isNarrow.toIsBinary hk.le ?_
    rw [hv, abs_of_pos (by positivity)]
    norm_num
  exact ⟨hvalue, ((ofDouble_isNearestEven_iff .half (by decide +kernel)).2.2.2 _ hvalue).2
    fun h => hsingle h.2⟩

/-- Just above that midpoint single precision misleads: the number is brought to one, although the next
half precision number is nearer. -/
theorem ofDouble_not_isNearestEven :
    (Scalar.ofNat .double 0x3ff0020000001000).value? =
        some (((1 + 2 ^ (-11 : ℤ) + 2 ^ (-40 : ℤ) : ℚ)) : Extended) ∧
      Precision.half.ofDouble (Scalar.ofNat .double 0x3ff0020000001000) = Scalar.ofNat .half 0x3c00 ∧
      ¬ (Precision.half.ofDouble (Scalar.ofNat .double 0x3ff0020000001000)).IsNearestEven
        (1 + 2 ^ (-11 : ℤ) + 2 ^ (-40 : ℤ)) := by
  have hx : (Scalar.ofNat .double 0x3ff0020000001000).datum =
      .finite ⟨false, 2 ^ 52 + 2 ^ 41 + 2 ^ 12, -52⟩ := by decide +kernel
  have hone : (Scalar.ofNat .half 0x3c00).datum = .finite ⟨false, 2 ^ 10, -10⟩ := by decide +kernel
  have hnext : (Scalar.ofNat .half 0x3c01).datum = .finite ⟨false, 2 ^ 10 + 1, -10⟩ := by decide +kernel
  have hresult : Precision.half.ofDouble (Scalar.ofNat .double 0x3ff0020000001000) =
      Scalar.ofNat .half 0x3c00 := by decide +kernel
  refine ⟨?_, hresult, ?_⟩
  · rw [Scalar.value?_of_datum hx, Exact.value]
    norm_num
  · rw [hresult]
    rintro ⟨-, hfinite⟩
    -- the claim to be the closest fails against the next number
    obtain ⟨q, hq, hclosest⟩ := hfinite (by decide +kernel)
    rw [Scalar.value?_of_datum hone, Option.some_inj] at hq
    obtain rfl := Extended.coe_strictMono.injective hq
    have hnear := (hclosest _ ⟨_, Scalar.value?_of_datum hnext⟩).1
    norm_num [Exact.value, abs_of_pos, abs_of_neg] at hnear

end Precision

end PrecisionAudit
