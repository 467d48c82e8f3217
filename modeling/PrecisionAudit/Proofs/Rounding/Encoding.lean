import PrecisionAudit.Proofs.Format.Grid
import PrecisionAudit.Proofs.Rounding.Selection

/-!
# Encoding selects on the grid of the format

`Format.encodeRatio` and `Format.encodeDyadic` find the binade of a number, round it to an integer
number of units there, and put the integer above the exponent. This is the choice of a neighbour
on the grid of the format, for every number below the first power of two that is too large.

## Main results

- `encodeDyadic_eq_encodeRatio`: a dyadic number is a ratio with denominator one.
- `encodeRatio_selects`: in range, the encoding is a choice on the grid.
- `encodeRatio_of_ge`: out of range, it is the overflow of the mode.
- `encodeRatio_of_eq_magnitudeValue`: a number of the format is encoded as itself.
-/

namespace PrecisionAudit

namespace Format

variable {f : Format} {mode : RoundingMode} {negative : Bool}

/-! ## Finding the binade -/

private theorem zpow_log2_bounds {n : ℕ} (hn : 0 < n) :
    (2 : ℚ) ^ (n.log2 : ℤ) ≤ n ∧ (n : ℚ) < 2 ^ ((n.log2 : ℤ) + 1) := by
  constructor
  · rw [zpow_natCast]
    exact_mod_cast Nat.log2_self_le hn.ne'
  · rw [← Nat.cast_succ, zpow_natCast]
    exact_mod_cast @Nat.lt_log2_self n

/-- The comparison made by `ratioExponent` decides whether the guess is reached. -/
private theorem zpow_le_div_iff {num den : ℕ} (hden : 0 < den) (guess : ℤ) :
    (if guess < 0 then den ≤ num * 2 ^ (-guess).toNat else den * 2 ^ guess.toNat ≤ num) ↔
      (2 : ℚ) ^ guess ≤ (num : ℚ) / den := by
  have hden' : (0 : ℚ) < den := Nat.cast_pos.2 hden
  rw [le_div_iff₀ hden']
  split
  case isTrue h =>
    obtain ⟨k, hk⟩ := Int.exists_eq_neg_ofNat h.le
    rw [hk, neg_neg, Int.toNat_natCast, zpow_neg, zpow_natCast, inv_mul_le_iff₀ (by positivity),
      mul_comm ((2 : ℚ) ^ k)]
    norm_cast
  case isFalse h =>
    obtain ⟨k, hk⟩ := Int.eq_ofNat_of_zero_le (not_lt.1 h)
    rw [hk, Int.toNat_natCast, zpow_natCast, mul_comm ((2 : ℚ) ^ k)]
    norm_cast

private theorem ratioExponent_eq {num den : ℕ} (hden : 0 < den) :
    ratioExponent num den =
      if (2 : ℚ) ^ ((num.log2 : ℤ) - den.log2) ≤ (num : ℚ) / den then
        (num.log2 : ℤ) - den.log2
      else
        (num.log2 : ℤ) - den.log2 - 1 :=
  if_congr (zpow_le_div_iff hden _) rfl rfl

/-- `ratioExponent` finds the binade of a positive ratio. -/
theorem ratioExponent_bounds {num den : ℕ} (hnum : 0 < num) (hden : 0 < den) :
    (2 : ℚ) ^ ratioExponent num den ≤ (num : ℚ) / den ∧
      (num : ℚ) / den < 2 ^ (ratioExponent num den + 1) := by
  have hden' : (0 : ℚ) < den := Nat.cast_pos.2 hden
  obtain ⟨hnlow, hnhigh⟩ := zpow_log2_bounds hnum
  obtain ⟨hdlow, hdhigh⟩ := zpow_log2_bounds hden
  have htwo : (2 : ℚ) ≠ 0 := by norm_num
  -- the guess is at most one too large
  have hbelow : (2 : ℚ) ^ ((num.log2 : ℤ) - den.log2 - 1) ≤ (num : ℚ) / den := by
    rw [le_div_iff₀ hden']
    calc (2 : ℚ) ^ ((num.log2 : ℤ) - den.log2 - 1) * den
        ≤ 2 ^ ((num.log2 : ℤ) - den.log2 - 1) * 2 ^ ((den.log2 : ℤ) + 1) := by gcongr
      _ = 2 ^ (num.log2 : ℤ) := by rw [← zpow_add₀ htwo]; congr 1; ring
      _ ≤ num := hnlow
  have habove : (num : ℚ) / den < 2 ^ ((num.log2 : ℤ) - den.log2 + 1) := by
    rw [div_lt_iff₀ hden']
    calc (num : ℚ) < 2 ^ ((num.log2 : ℤ) + 1) := hnhigh
      _ = 2 ^ ((num.log2 : ℤ) - den.log2 + 1) * 2 ^ (den.log2 : ℤ) := by
        rw [← zpow_add₀ htwo]; congr 1; ring
      _ ≤ 2 ^ ((num.log2 : ℤ) - den.log2 + 1) * den := by gcongr
  rw [ratioExponent_eq hden]
  split
  case isTrue hreached => exact ⟨hreached, habove⟩
  case isFalse hreached =>
    rw [sub_add_cancel]
    exact ⟨hbelow, not_le.1 hreached⟩

private theorem ratioExponent_one {n : ℕ} (hn : 0 < n) : ratioExponent n 1 = n.log2 := by
  have hreached : (2 : ℚ) ^ ((n.log2 : ℤ) - (1 : ℕ).log2) ≤ (n : ℚ) / (1 : ℕ) := by
    simpa [show Nat.log2 1 = 0 from rfl] using (zpow_log2_bounds hn).1
  rw [ratioExponent_eq Nat.one_pos, if_pos hreached]
  exact sub_zero _

/-! ## Ratios and dyadic numbers -/

/-- A dyadic number is a ratio with denominator one. -/
theorem encodeDyadic_eq_encodeRatio (f : Format) (mode : RoundingMode) (negative : Bool)
    (significand : ℕ) (exponent : ℤ) :
    f.encodeDyadic mode negative significand exponent =
      f.encodeRatio mode negative significand 1 exponent := by
  unfold encodeDyadic encodeRatio
  split
  case isTrue => rfl
  case isFalse h0 =>
    have hround : roundAtUnit mode negative significand exponent = fun unit =>
        if unit ≤ exponent then
          mode.roundQuotient negative (significand * 2 ^ (exponent - unit).toNat) 1
        else
          mode.roundQuotient negative significand (1 * 2 ^ (unit - exponent).toNat) := by
      funext unit
      unfold roundAtUnit
      split
      case isTrue =>
        have h := mode.roundShift_eq_roundQuotient negative
          (significand * 2 ^ (exponent - unit).toNat) 0
        simpa [RoundingMode.roundShift] using h
      case isFalse => rw [Nat.one_mul, RoundingMode.roundShift_eq_roundQuotient]
    rw [ratioExponent_one (Nat.pos_of_ne_zero h0), hround]

/-! ## The choice made by an encoding -/

/-- Rounding at a unit selects on the integers, whichever side the power of two is put on. -/
private theorem roundAt_selects (mode : RoundingMode) (negative : Bool) (num : ℕ) {den : ℕ}
    (hden : 0 < den) (exponent unit : ℤ) :
    mode.Selects negative Nat.cast ((num : ℚ) / den * 2 ^ exponent / 2 ^ unit)
      (if unit ≤ exponent then
        mode.roundQuotient negative (num * 2 ^ (exponent - unit).toNat) den
      else
        mode.roundQuotient negative num (den * 2 ^ (unit - exponent).toNat)) := by
  have hden' : (den : ℚ) ≠ 0 := Nat.cast_ne_zero.2 hden.ne'
  rw [mul_div_assoc, ← zpow_sub₀ (by norm_num : (2 : ℚ) ≠ 0)]
  split
  case isTrue h =>
    -- the power of two goes to the numerator
    obtain ⟨k, hk⟩ := Int.eq_ofNat_of_zero_le (sub_nonneg.2 h)
    have hsel := mode.roundQuotient_selects negative (num * 2 ^ k) hden
    rw [hk, Int.toNat_natCast, zpow_natCast, div_mul_eq_mul_div]
    exact_mod_cast hsel
  case isFalse h =>
    -- the power of two goes to the denominator
    obtain ⟨k, hk⟩ := Int.eq_ofNat_of_zero_le (sub_nonneg.2 (not_le.1 h).le)
    have hsel := mode.roundQuotient_selects negative num (Nat.mul_pos hden (Nat.two_pow_pos k))
    rw [hk, Int.toNat_natCast, ← neg_sub unit, hk, zpow_neg, zpow_natCast, ← div_eq_mul_inv,
      div_div]
    exact_mod_cast hsel

/-- Around a number of the binade of `top`, the places of the grid are one unit apart. -/
private theorem magnitudeValue_of_mem_binade (f : Format) {top : ℤ} {v : ℚ}
    (hlow : 2 ^ top ≤ v) (hhigh : v < 2 ^ (top + 1)) {j : ℕ}
    (hj : (j : ℚ) ≤ v / 2 ^ f.unitExponent top + 1) (hj' : v / 2 ^ f.unitExponent top < j + 1) :
    f.magnitudeValue (f.binadeBase top + j) = j * 2 ^ f.unitExponent top := by
  have htwo : (2 : ℚ) ≠ 0 := by norm_num
  have hspan : (f.mantissaSpan : ℚ) = 2 ^ (f.mantissaBits : ℤ) := by simp [mantissaSpan]
  apply f.magnitudeValue_binade
  · -- above the least binade the quotient has a leading bit
    intro hnormal
    have hunit : f.unitExponent top = top - f.mantissaBits := by
      rw [unitExponent, max_eq_left hnormal.le]
    have hreach : (f.mantissaSpan : ℚ) ≤ v / 2 ^ f.unitExponent top := by
      rw [le_div_iff₀ (by positivity), hunit, hspan, ← zpow_add₀ htwo]
      exact (by ring_nf : (2 : ℚ) ^ ((f.mantissaBits : ℤ) + (top - f.mantissaBits)) = 2 ^ top) ▸ hlow
    have hlt : (f.mantissaSpan : ℚ) < j + 1 := hreach.trans_lt hj'
    exact Nat.lt_succ_iff.1 (by exact_mod_cast hlt)
  · -- one place past the last significand is the carry into the next binade
    have hbound : v / 2 ^ f.unitExponent top < 2 * f.mantissaSpan := by
      rw [div_lt_iff₀ (by positivity), hspan, ← zpow_one_add₀ htwo, ← zpow_add₀ htwo]
      refine hhigh.trans_le (zpow_le_zpow_right₀ (by norm_num) ?_)
      unfold unitExponent
      omega
    have hlt : (j : ℚ) < 2 * f.mantissaSpan + 1 := by linarith
    exact Nat.lt_succ_iff.1 (by exact_mod_cast hlt)

/-- In range, encoding a positive ratio is a choice on the grid of the format. -/
theorem encodeRatio_selects (hf : f.IsBinary) (mode : RoundingMode) (negative : Bool) {num den : ℕ}
    (hnum : 0 < num) (hden : 0 < den) {exponent : ℤ}
    (hrange : (num : ℚ) / den * 2 ^ exponent < 2 ^ (f.maxExponent + 1)) :
    mode.Selects negative f.magnitudeValue ((num : ℚ) / den * 2 ^ exponent)
      (f.encodeRatio mode negative num den exponent) := by
  have htwo : (2 : ℚ) ≠ 0 := by norm_num
  obtain ⟨hlow, hhigh⟩ := ratioExponent_bounds hnum hden
  -- the binade of the scaled number
  set top := ratioExponent num den + exponent with htop
  have hlow' : (2 : ℚ) ^ top ≤ num / den * 2 ^ exponent := by
    rw [htop, zpow_add₀ htwo]
    gcongr
  have hhigh' : (num : ℚ) / den * 2 ^ exponent < 2 ^ (top + 1) := by
    rw [htop, add_right_comm, zpow_add₀ htwo]
    gcongr
  have hfinite : ¬ f.maxExponent < top := by
    have h := (zpow_lt_zpow_iff_right₀ (by norm_num : (1 : ℚ) < 2)).1 (hlow'.trans_lt hrange)
    omega
  -- every binade starts on an even place, so the integer and its place have the same parity
  have hbase : f.binadeBase top % 2 = 0 := by
    rw [binadeBase, Nat.mul_mod, hf.even_mantissaSpan, Nat.mul_zero, Nat.zero_mod]
  have hsel := (roundAt_selects mode negative num hden exponent (f.unitExponent top)).transfer
    (by positivity) hbase (fun j => f.magnitudeValue_of_mem_binade hlow' hhigh')
  rw [div_mul_cancel₀ _ (by positivity)] at hsel
  -- `assemble` puts the rounded integer above the base of the binade
  rw [encodeRatio, if_neg hnum.ne', assemble, if_neg hfinite]
  exact hsel

/-- Out of range, the encoding is the overflow of the mode. -/
theorem encodeRatio_of_ge (f : Format) (mode : RoundingMode) (negative : Bool) {num den : ℕ}
    (hnum : 0 < num) (hden : 0 < den) {exponent : ℤ}
    (hrange : 2 ^ (f.maxExponent + 1) ≤ (num : ℚ) / den * 2 ^ exponent) :
    f.encodeRatio mode negative num den exponent = f.overflow mode negative := by
  have htwo : (2 : ℚ) ≠ 0 := by norm_num
  have hhigh : (num : ℚ) / den * 2 ^ exponent < 2 ^ (ratioExponent num den + exponent + 1) := by
    rw [add_right_comm, zpow_add₀ htwo]
    have := (ratioExponent_bounds hnum hden).2
    gcongr
  have hover : f.maxExponent < ratioExponent num den + exponent := by
    have h := (zpow_lt_zpow_iff_right₀ (by norm_num : (1 : ℚ) < 2)).1 (hrange.trans_lt hhigh)
    omega
  rw [encodeRatio, if_neg hnum.ne', assemble, if_pos hover]

/-- An encoding is at most the infinity. -/
theorem encodeRatio_le_infinity (hf : f.IsBinary) (mode : RoundingMode) (negative : Bool) (num : ℕ)
    {den : ℕ} (hden : 0 < den) (exponent : ℤ) :
    f.encodeRatio mode negative num den exponent ≤ f.infinity := by
  rcases Nat.eq_zero_or_pos num with rfl | hnum
  · simp [encodeRatio]
  · rcases lt_or_ge ((num : ℚ) / den * 2 ^ exponent) (2 ^ (f.maxExponent + 1)) with h | h
    · have hsel := encodeRatio_selects hf mode negative hnum hden h
      exact hsel.le_of_le f.magnitudeValue_strictMono (hf.magnitudeValue_infinity ▸ h.le)
    · rw [f.encodeRatio_of_ge mode negative hnum hden h]
      unfold overflow maxFinite infinity
      split
      · exact le_rfl
      · omega
      all_goals split <;> omega

/-- A number of the format is encoded as itself in every mode. -/
theorem encodeRatio_of_eq_magnitudeValue (hf : f.IsBinary) (mode : RoundingMode) (negative : Bool)
    {num den : ℕ} (hden : 0 < den) {exponent : ℤ} {m : ℕ} (hm : m < f.infinity)
    (hv : (num : ℚ) / den * 2 ^ exponent = f.magnitudeValue m) :
    f.encodeRatio mode negative num den exponent = m := by
  rcases Nat.eq_zero_or_pos num with rfl | hnum
  · -- only the zero magnitude has the value zero
    have h0 : f.magnitudeValue m = f.magnitudeValue 0 := by simpa using hv.symm
    rw [f.magnitudeValue_strictMono.injective h0]
    simp [encodeRatio]
  · have hrange : (num : ℚ) / den * 2 ^ exponent < 2 ^ (f.maxExponent + 1) := by
      rw [hv, ← hf.magnitudeValue_infinity]
      exact f.magnitudeValue_strictMono hm
    exact (encodeRatio_selects hf mode negative hnum hden hrange).eq_of_eq
      f.magnitudeValue_strictMono hv

end Format

end PrecisionAudit
