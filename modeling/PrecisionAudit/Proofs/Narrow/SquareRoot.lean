import PrecisionAudit.Proofs.Narrow.Exactness
import PrecisionAudit.Proofs.Scalar.SquareRoot

/-!
# Narrow square roots

The square root of a narrow number is rounded to single precision and from there to the narrow format. No
root is so near a midpoint of the narrow format that single precision would mislead, so that the result is
the narrow number nearest to the root itself.

## Main results

- `Narrow.map_sqrt_isNearestRoot`: the root of a positive number in every format it holds for.
- `Narrow.sqrt_isNearestRoot`: the three narrow formats, zeros included.
-/

namespace PrecisionAudit

namespace Format

variable {f : Format} {i : ℕ}

/-- A root does not overflow, since the threshold is larger than one. -/
theorem magnitudeValue_lt_sq_overflowThreshold (hf : f.IsBinary) (hi : i < f.infinity) :
    f.magnitudeValue i < f.overflowThreshold ^ 2 := by
  have hsucc := hf.maxFinite_add_one
  have hbelow : f.magnitudeValue i < f.overflowThreshold := by
    rw [← hf.midpoint_maxFinite]
    exact (f.magnitudeValue_strictMono.monotone (by omega)).trans_lt (f.lt_midpoint f.maxFinite)
  have hone : 1 ≤ f.overflowThreshold := by
    have hfactor : (2 : ℚ) ^ (-(f.mantissaBits + 1 : ℤ)) ≤ 1 :=
      zpow_le_one_of_nonpos₀ (by norm_num) (by omega)
    have hpow : (1 : ℚ) ≤ 2 ^ f.maxExponent := one_le_zpow₀ (by norm_num) f.bias_nonneg
    exact one_le_mul_of_one_le_of_one_le (by linarith) hpow
  exact hbelow.trans_le (le_self_pow₀ hone two_ne_zero)

end Format

namespace Narrow

variable {f : Format} {x : Scalar f} {a : ℚ}

/-- The square root of a positive number is the nearest one, if the square of the least normal number is
below all the numbers. -/
theorem map_sqrt_isNearestRoot (hf : f.IsNarrow) (hfit : f.FitsTwice .single)
    (hdeep : f.minExponent + f.mantissaBits < 0) (hx : x.value? = some ((a : ℚ) : Extended)) (ha : 0 < a) :
    (map Scalar.sqrt x).isNegative = false ∧ (map Scalar.sqrt x).IsNearestRoot a := by
  have hsingle := Format.single_isNarrow.toIsBinary
  obtain ⟨hfinite, -, hmag⟩ := Scalar.exact_of_value?_eq hx
  rw [abs_of_pos ha] at hmag
  obtain ⟨w, hw, hnearest, hroot⟩ := Scalar.sqrt_isNearest hsingle ((x.value?_widen hf).trans hx) ha
  have hfw := hroot f hf.mantissaBits_le
  -- single precision rounds a number that stands for the root, in the narrow format too
  have hnarrow : (map Scalar.sqrt x).IsNearest w :=
    hnearest.ofSingle hf hfit.mantissaBits_lt
      (hfit.not_misleads_root hf.toIsBinary hsingle hdeep hmag hw.le hfw (hroot .single le_rfl))
  refine ⟨?_, hnarrow.isNearestRoot hf.toIsBinary hw hfw ?_⟩
  · obtain ⟨negative, hsign, h⟩ := hnarrow
    rw [h, Scalar.isNegative_ofParts, hsign hw.ne', decide_eq_false hw.not_gt]
    exact (Format.nearest_le_infinity hf.toIsBinary w).trans_lt f.infinity_lt_signMask
  · rw [hmag]
    exact Format.magnitudeValue_lt_sq_overflowThreshold hf.toIsBinary hfinite

/-- The square root of a zero is the zero. -/
theorem map_sqrt_of_zero (hf : f.IsNarrow) (hx : x.value? = some ((0 : ℚ) : Extended)) :
    (map Scalar.sqrt x).isNegative = x.isNegative ∧ (map Scalar.sqrt x).IsNearestRoot 0 := by
  have hwiden := (x.value?_widen hf).trans hx
  have hpos := hf.toIsBinary.infinity_pos
  have hexact : IsExactNarrowing x.widen (map Scalar.sqrt x) := by
    rw [map, Scalar.sqrt_of_zero hwiden]
    exact isExactNarrowing_ofSingle hf hwiden hpos (by rw [abs_zero, Format.magnitudeValue_zero])
  refine ⟨hexact.isNegative_eq.trans (x.isNegative_widen hf), ?_, 0, le_rfl, hexact.value?_eq.trans hwiden,
    fun p hp _ => ⟨fun h => absurd h hp.not_gt, fun _ => sq_nonneg _, fun hne htie => ?_⟩⟩
  · rw [← f.magnitudeValue_zero]
    exact Format.magnitudeValue_lt_sq_overflowThreshold hf.toIsBinary hpos
  · -- only zero itself is half-way to zero
    rw [add_zero, sq_eq_zero_iff] at htie
    exact absurd (by linarith) hne

/-- In the narrow formats the square root of a finite number that is not negative, minus zero included, is
the number nearest to the exact root, ties to even, and keeps the sign. -/
theorem sqrt_isNearestRoot (hf : f = .half ∨ f = .bfloat ∨ f = .tfloat)
    (hx : x.value? = some ((a : ℚ) : Extended)) (ha : 0 ≤ a) :
    (∀ library : MathLibrary, library.unary? "sqrt" = some (map Scalar.sqrt : Scalar f → Scalar f)) ∧
      (map Scalar.sqrt x).isNegative = x.isNegative ∧ (map Scalar.sqrt x).IsNearestRoot a ∧
      ∃ q : ℚ, (map Scalar.sqrt x).value? = some ((q : ℚ) : Extended) ∧
        ∀ p : ℚ, ((p : ℚ) : Extended) ∈ f.values → |√(a : ℝ) - q| ≤ |√(a : ℝ) - p| ∧
          (|√(a : ℝ) - p| = |√(a : ℝ) - q| → p ≠ q → (map Scalar.sqrt x).packed % 2 = 0) := by
  obtain ⟨hnarrow, hfit, hdeep⟩ :
      f.IsNarrow ∧ f.FitsTwice .single ∧ f.minExponent + f.mantissaBits < 0 := by
    rcases hf with rfl | rfl | rfl
    · exact ⟨Format.half_isNarrow, Format.half_fitsTwice, by decide⟩
    · exact ⟨Format.bfloat_isNarrow, Format.bfloat_fitsTwice, by decide⟩
    · exact ⟨Format.tfloat_isNarrow, Format.tfloat_fitsTwice, by decide⟩
  suffices hroot : (map Scalar.sqrt x).isNegative = x.isNegative ∧ (map Scalar.sqrt x).IsNearestRoot a from
    ⟨fun _ => rfl, hroot.1, hroot.2, hroot.2.abs_sqrt_sub_le hnarrow.toIsBinary ha⟩
  -- the function leaves zeros as they are, with their signs
  rcases ha.eq_or_lt with rfl | hpos
  · exact map_sqrt_of_zero hnarrow hx
  · obtain ⟨hsign, hroot⟩ := map_sqrt_isNearestRoot hnarrow hfit hdeep hx hpos
    obtain ⟨-, rfl, -⟩ := Scalar.exact_of_value?_eq hx
    have hneg := x.exact.negative_eq_false_of_pos hpos
    rw [x.exact_negative] at hneg
    exact ⟨hsign.trans hneg.symm, hroot⟩

/-- The root of two in half precision. -/
theorem sqrt_isNearestRoot_two :
    let x := Scalar.ofNat .half 0x4000
    x.value? = some ((2 : ℚ) : Extended) ∧ map Scalar.sqrt x = Scalar.ofNat .half 0x3da8 ∧
      (Scalar.ofNat .half 0x3da8).IsNearestRoot 2 := by
  intro x
  have hx : x.value? = some ((2 : ℚ) : Extended) := by
    have hdatum : x.datum = .finite ⟨false, 2 ^ 10, -9⟩ := by decide +kernel
    rw [Scalar.value?_of_datum hdatum, Exact.value]
    norm_num
  have hresult : map Scalar.sqrt x = Scalar.ofNat .half 0x3da8 := by decide +kernel
  obtain ⟨-, -, hroot, -⟩ := sqrt_isNearestRoot (.inl rfl) hx (by norm_num)
  exact ⟨hx, hresult, hresult ▸ hroot⟩

end Narrow

end PrecisionAudit
