import Mathlib
import PrecisionAudit.Format

/-!
# The grid of a format

The magnitudes of a format are natural numbers, counted outward from zero. Read as numbers they
form a grid: `Format.gridCount` says how many least units a magnitude is worth, and
`Format.magnitudeValue` says which rational that is. The grid goes on past the infinity as if the
exponent had no end, so that infinity itself has a place on it.

## Main results

- `gridCount_succ`: one step of the magnitude is one unit of the binade it starts in.
- `magnitudeValue_strictMono`: larger magnitudes are larger numbers.
- `magnitudeValue_infinity`: infinity stands at `2 ^ (maxExponent + 1)`.
- `magnitudeValue_binade`: a significand placed by `binadeBase` is worth itself times its unit.
- `exists_magnitudeValue_eq_mul`, `IsBinary.exists_magnitudeValue_eq`: the grid consists of the short
  significands times powers of two.
-/

namespace PrecisionAudit

namespace Format

/-! ## Well-formed formats -/

/-- A format with room for normal numbers, an infinity and a NaN. -/
structure IsBinary (f : Format) : Prop where
  two_le_exponentBits : 2 ≤ f.exponentBits
  one_le_mantissaBits : 1 ≤ f.mantissaBits

/-- A format whose exponent and mantissa fit into those of single precision. -/
structure IsNarrow (f : Format) : Prop extends f.IsBinary where
  exponentBits_le : f.exponentBits ≤ 8
  mantissaBits_le : f.mantissaBits ≤ 23

instance (f : Format) : Decidable f.IsBinary :=
  decidable_of_iff (2 ≤ f.exponentBits ∧ 1 ≤ f.mantissaBits)
    ⟨fun h => ⟨h.1, h.2⟩, fun h => ⟨h.1, h.2⟩⟩

instance (f : Format) : Decidable f.IsNarrow :=
  decidable_of_iff (f.IsBinary ∧ f.exponentBits ≤ 8 ∧ f.mantissaBits ≤ 23)
    ⟨fun h => ⟨h.1, h.2.1, h.2.2⟩, fun h => ⟨h.1, h.2, h.3⟩⟩

theorem half_isNarrow : half.IsNarrow := by decide

theorem bfloat_isNarrow : bfloat.IsNarrow := by decide

theorem tfloat_isNarrow : tfloat.IsNarrow := by decide

theorem single_isNarrow : single.IsNarrow := by decide

theorem double_isBinary : double.IsBinary := by decide

variable {f : Format}

theorem mantissaSpan_pos (f : Format) : 0 < f.mantissaSpan := Nat.two_pow_pos _

theorem mantissaSpan_eq_zpow (f : Format) : (f.mantissaSpan : ℚ) = 2 ^ (f.mantissaBits : ℤ) := by
  rw [mantissaSpan, Nat.cast_pow, Nat.cast_ofNat, zpow_natCast]

/-- The mantissa span is even, so that a magnitude has the parity of its mantissa field. -/
theorem IsBinary.even_mantissaSpan (hf : f.IsBinary) : f.mantissaSpan % 2 = 0 := by
  obtain ⟨k, hk⟩ := Nat.exists_eq_add_of_le hf.one_le_mantissaBits
  rw [mantissaSpan, hk, pow_add]
  omega

private theorem exponentHalf (hf : f.IsBinary) :
    2 ^ f.exponentBits = 2 * 2 ^ (f.exponentBits - 1) ∧ 2 ≤ 2 ^ (f.exponentBits - 1) := by
  obtain ⟨k, hk⟩ := Nat.exists_eq_add_of_le hf.two_le_exponentBits
  have hpos : 0 < 2 ^ k := Nat.two_pow_pos k
  rw [hk, show 2 + k - 1 = 1 + k by omega, pow_add, pow_add]
  omega

private theorem bias_eq (f : Format) : f.bias = (2 ^ (f.exponentBits - 1) : ℕ) - 1 := by
  simp [bias]

/-- The all-ones exponent field is one above twice the bias. -/
theorem IsBinary.exponentFieldMax_eq (hf : f.IsBinary) :
    (f.exponentFieldMax : ℤ) = 2 * f.bias + 1 := by
  have hspan := exponentHalf hf
  have hbias := f.bias_eq
  unfold exponentFieldMax
  omega

theorem IsBinary.one_le_bias (hf : f.IsBinary) : 1 ≤ f.bias := by
  have hspan := exponentHalf hf
  have hbias := f.bias_eq
  omega

theorem IsBinary.three_le_exponentFieldMax (hf : f.IsBinary) : 3 ≤ f.exponentFieldMax := by
  have hfield := hf.exponentFieldMax_eq
  have hbias := hf.one_le_bias
  omega

/-! ## Magnitudes as numbers -/

/-- The worth of a magnitude in least units. The first two binades share their unit; from there on
each binade doubles it. -/
def gridCount (f : Format) (m : ℕ) : ℕ :=
  if m / f.mantissaSpan = 0 then
    m % f.mantissaSpan
  else
    (f.mantissaSpan + m % f.mantissaSpan) * 2 ^ (m / f.mantissaSpan - 1)

/-- The number that a magnitude denotes, were the range of exponents unlimited. -/
def magnitudeValue (f : Format) (m : ℕ) : ℚ :=
  f.gridCount m * 2 ^ (f.minExponent - f.mantissaBits)

/-- A significand `n` moved up by `q` binades. The bound includes the carry into the next binade. -/
theorem gridCount_mul_add (f : Format) {q n : ℕ} (hlow : q = 0 ∨ f.mantissaSpan ≤ n)
    (hhigh : n ≤ 2 * f.mantissaSpan) : f.gridCount (q * f.mantissaSpan + n) = n * 2 ^ q := by
  have hpos := f.mantissaSpan_pos
  unfold gridCount
  generalize f.mantissaSpan = s at *
  rw [Nat.add_comm, Nat.add_mul_div_right _ _ hpos, Nat.add_mul_mod_self_right]
  rcases Nat.lt_or_ge n s with hn | hn
  · -- a denormal
    obtain rfl : q = 0 := hlow.resolve_right (by omega)
    simp [Nat.div_eq_of_lt hn, Nat.mod_eq_of_lt hn]
  · rcases Nat.lt_or_ge n (2 * s) with hn' | hn'
    · -- a significand with its leading bit
      have hdiv : n / s = 1 := Nat.div_eq_of_lt_le (by omega) (by omega)
      have hmod : s + n % s = n := by rw [Nat.mod_eq_sub_div_mul, hdiv]; omega
      rw [hdiv, if_neg (by omega), hmod, show 1 + q - 1 = q by omega]
    · -- the carry into the next binade
      obtain rfl : n = 2 * s := by omega
      rw [Nat.mul_div_cancel _ hpos, Nat.mul_mod_left, if_neg (by omega),
        show 2 + q - 1 = q + 1 by omega, pow_succ]
      ring

/-- A magnitude is a significand moved up by as many binades as keep its leading bit. -/
theorem exists_significand (f : Format) (m : ℕ) :
    ∃ q n, m = q * f.mantissaSpan + n ∧ (q = 0 ∨ f.mantissaSpan ≤ n) ∧
      n < 2 * f.mantissaSpan ∧ m / f.mantissaSpan - 1 = q := by
  have hdiv := Nat.div_add_mod' m f.mantissaSpan
  have hmod := Nat.mod_lt m f.mantissaSpan_pos
  rcases Nat.eq_zero_or_pos (m / f.mantissaSpan) with h0 | h0
  · rw [h0] at hdiv
    exact ⟨0, m, by omega, .inl rfl, by omega, by omega⟩
  · obtain ⟨q, hq⟩ := Nat.exists_eq_add_of_lt h0
    rw [hq, Nat.zero_add, Nat.add_mul, Nat.one_mul] at hdiv
    exact ⟨q, f.mantissaSpan + m % f.mantissaSpan, by omega, .inr (by omega), by omega, by omega⟩

/-- One step of the magnitude is one unit of the binade it starts in. -/
theorem gridCount_succ (f : Format) (m : ℕ) :
    f.gridCount (m + 1) = f.gridCount m + 2 ^ (m / f.mantissaSpan - 1) := by
  obtain ⟨q, n, hm, hlow, hhigh, hq⟩ := f.exists_significand m
  rw [hq, hm, Nat.add_assoc, f.gridCount_mul_add hlow (by omega),
    f.gridCount_mul_add (hlow.imp_right (by omega)) (by omega)]
  ring

/-- Every short significand has a magnitude in every binade. -/
theorem exists_gridCount_eq (f : Format) {n : ℕ} (hn : n < 2 * f.mantissaSpan) (q : ℕ) :
    ∃ m, f.gridCount m = n * 2 ^ q := by
  induction q generalizing n with
  | zero => exact ⟨0 * f.mantissaSpan + n, f.gridCount_mul_add (.inl rfl) hn.le⟩
  | succ q ih =>
    rcases Nat.lt_or_ge n f.mantissaSpan with hshort | hfull
    · -- a missing leading bit is made up for by one binade less
      obtain ⟨m, hm⟩ := ih (show 2 * n < 2 * f.mantissaSpan by omega)
      exact ⟨m, by rw [hm, pow_succ]; ring⟩
    · exact ⟨(q + 1) * f.mantissaSpan + n, f.gridCount_mul_add (.inr hfull) hn.le⟩

@[simp]
theorem gridCount_zero (f : Format) : f.gridCount 0 = 0 := by simp [gridCount]

theorem gridCount_strictMono (f : Format) : StrictMono f.gridCount :=
  strictMono_nat_of_lt_succ fun m => by
    rw [f.gridCount_succ]
    exact Nat.lt_add_of_pos_right (Nat.two_pow_pos _)

@[simp]
theorem magnitudeValue_zero (f : Format) : f.magnitudeValue 0 = 0 := by simp [magnitudeValue]

/-- Larger magnitudes are larger numbers. -/
theorem magnitudeValue_strictMono (f : Format) : StrictMono f.magnitudeValue := fun _ _ h =>
  mul_lt_mul_of_pos_right (Nat.cast_lt.2 (f.gridCount_strictMono h)) (by positivity)

theorem magnitudeValue_nonneg (f : Format) (m : ℕ) : 0 ≤ f.magnitudeValue m := by
  unfold magnitudeValue
  positivity

/-! ## Binades -/

/-- A significand placed by `binadeBase` is worth itself times the unit of its binade. -/
theorem magnitudeValue_binade (f : Format) {top : ℤ} {n : ℕ}
    (hlow : f.minExponent < top → f.mantissaSpan ≤ n) (hhigh : n ≤ 2 * f.mantissaSpan) :
    f.magnitudeValue (f.binadeBase top + n) = n * 2 ^ f.unitExponent top := by
  have hq : (top - f.minExponent).toNat = 0 ∨ f.mantissaSpan ≤ n := by
    rcases Int.lt_or_le f.minExponent top with h | h
    · exact .inr (hlow h)
    · exact .inl (by omega)
  have hunit : f.unitExponent top =
      ((top - f.minExponent).toNat : ℤ) + (f.minExponent - f.mantissaBits) := by
    unfold unitExponent
    omega
  rw [magnitudeValue, binadeBase, f.gridCount_mul_add hq hhigh, hunit,
    zpow_add₀ (by norm_num : (2 : ℚ) ≠ 0), zpow_natCast]
  push_cast
  ring

/-- Infinity stands at the first power of two that is too large. -/
theorem IsBinary.magnitudeValue_infinity (hf : f.IsBinary) :
    f.magnitudeValue f.infinity = 2 ^ (f.maxExponent + 1) := by
  have hthree := hf.three_le_exponentFieldMax
  have hfield := hf.exponentFieldMax_eq
  have hinf : f.infinity = (f.exponentFieldMax - 1) * f.mantissaSpan + f.mantissaSpan := by
    rw [infinity, exponentMask, ← Nat.succ_mul, Nat.succ_eq_add_one, Nat.sub_add_cancel (by omega)]
  rw [magnitudeValue, hinf, f.gridCount_mul_add (.inr le_rfl) (by omega), mantissaSpan]
  push_cast
  rw [← zpow_natCast, ← zpow_natCast, ← zpow_add₀ (by norm_num : (2 : ℚ) ≠ 0),
    ← zpow_add₀ (by norm_num : (2 : ℚ) ≠ 0)]
  congr 1
  unfold minExponent maxExponent
  omega

/-- Up to its infinity a format stays within the range of every format whose exponents go as far. -/
theorem IsBinary.magnitudeValue_le_of_bias_le {g : Format} (hf : f.IsBinary) (hbias : f.bias ≤ g.bias) {m : ℕ}
    (hm : m ≤ f.infinity) : f.magnitudeValue m ≤ 2 ^ (g.maxExponent + 1) :=
  calc f.magnitudeValue m ≤ f.magnitudeValue f.infinity := f.magnitudeValue_strictMono.monotone hm
    _ = 2 ^ (f.maxExponent + 1) := hf.magnitudeValue_infinity
    _ ≤ 2 ^ (g.maxExponent + 1) := zpow_le_zpow_right₀ (by norm_num) (Int.add_le_add_right hbias 1)

/-- A magnitude is worth a significand times a power of two, and one step of it is that power. A
significand without its leading bit has the least power. -/
theorem exists_magnitudeValue_eq_mul (f : Format) (m : ℕ) :
    ∃ n < 2 * f.mantissaSpan, ∃ e : ℤ, f.minExponent - f.mantissaBits ≤ e ∧
      (e = f.minExponent - f.mantissaBits ∨ f.mantissaSpan ≤ n) ∧
      f.magnitudeValue m = n * 2 ^ e ∧ f.magnitudeValue (m + 1) = (n + 1) * 2 ^ e := by
  obtain ⟨q, n, hm, hlow, hhigh, hq⟩ := f.exists_significand m
  refine ⟨n, hhigh, q + (f.minExponent - f.mantissaBits), by omega, by omega, ?_, ?_⟩
  · rw [magnitudeValue, hm, f.gridCount_mul_add hlow hhigh.le, zpow_add₀ (by norm_num : (2 : ℚ) ≠ 0),
      zpow_natCast]
    push_cast
    ring
  · rw [magnitudeValue, f.gridCount_succ, hq, hm, f.gridCount_mul_add hlow hhigh.le,
      zpow_add₀ (by norm_num : (2 : ℚ) ≠ 0), zpow_natCast]
    push_cast
    ring

/-- Steps do not get shorter with larger magnitudes. -/
theorem magnitudeValue_step_le (f : Format) (m : ℕ) :
    f.magnitudeValue (m + 1) - f.magnitudeValue m ≤
      f.magnitudeValue (m + 2) - f.magnitudeValue (m + 1) := by
  have hdiv : m / f.mantissaSpan - 1 ≤ (m + 1) / f.mantissaSpan - 1 :=
    Nat.sub_le_sub_right (Nat.div_le_div_right (Nat.le_succ m)) 1
  have hpow : (2 : ℚ) ^ (m / f.mantissaSpan - 1) ≤ 2 ^ ((m + 1) / f.mantissaSpan - 1) :=
    pow_le_pow_right₀ (by norm_num) hdiv
  have hcount : (f.gridCount (m + 1) : ℚ) - f.gridCount m ≤
      f.gridCount (m + 2) - f.gridCount (m + 1) := by
    rw [f.gridCount_succ (m + 1), f.gridCount_succ m]
    push_cast
    linarith
  unfold magnitudeValue
  rw [← sub_mul, ← sub_mul]
  exact mul_le_mul_of_nonneg_right hcount (by positivity)

/-- A significand times a power of two is on the grid, if it is neither too fine nor too large. -/
theorem IsBinary.exists_magnitudeValue_eq (hf : f.IsBinary) {n : ℕ} (hn : n < 2 * f.mantissaSpan)
    {e : ℤ} (he : f.minExponent - f.mantissaBits ≤ e)
    (hrange : (n : ℚ) * 2 ^ e < 2 ^ (f.maxExponent + 1)) :
    ∃ m < f.infinity, f.magnitudeValue m = n * 2 ^ e := by
  obtain ⟨q, hq⟩ := Int.eq_ofNat_of_zero_le (sub_nonneg.2 he)
  obtain ⟨m, hm⟩ := f.exists_gridCount_eq hn q
  have hv : f.magnitudeValue m = n * 2 ^ e := by
    rw [magnitudeValue, hm, ← sub_add_cancel e (f.minExponent - f.mantissaBits), hq,
      zpow_add₀ (by norm_num : (2 : ℚ) ≠ 0), zpow_natCast]
    push_cast
    ring
  refine ⟨m, f.magnitudeValue_strictMono.lt_iff_lt.1 ?_, hv⟩
  rwa [hv, hf.magnitudeValue_infinity]

/-- Every short integer is on the grid, if there are more binades above one than bits in a mantissa. -/
theorem IsBinary.exists_magnitudeValue_eq_natCast (hf : f.IsBinary)
    (hbits : (f.mantissaBits : ℤ) < f.maxExponent) {n : ℕ} (hn : n ≤ 2 * f.mantissaSpan) :
    ∃ m < f.infinity, f.magnitudeValue m = n := by
  have hbias := hf.one_le_bias
  have hpos := f.mantissaSpan_pos
  have hrange : ((2 * f.mantissaSpan : ℕ) : ℚ) < 2 ^ (f.maxExponent + 1) := by
    rw [mantissaSpan, ← pow_succ', Nat.cast_pow, Nat.cast_ofNat, ← zpow_natCast]
    exact zpow_lt_zpow_right₀ (by norm_num) (by omega)
  rcases hn.lt_or_eq with hlt | rfl
  · obtain ⟨m, hm, hv⟩ := hf.exists_magnitudeValue_eq hlt (e := 0) (by unfold minExponent; omega)
      (by rw [zpow_zero, mul_one]; exact (Nat.cast_le.2 hn).trans_lt hrange)
    exact ⟨m, hm, by rw [hv, zpow_zero, mul_one]⟩
  · -- twice the span is the span itself in the next binade
    have htwo : ((f.mantissaSpan : ℕ) : ℚ) * 2 ^ (1 : ℤ) = (2 * f.mantissaSpan : ℕ) := by
      push_cast
      ring
    obtain ⟨m, hm, hv⟩ := hf.exists_magnitudeValue_eq (n := f.mantissaSpan) (by omega) (e := 1)
      (by unfold minExponent; omega) (htwo ▸ hrange)
    exact ⟨m, hm, hv.trans htwo⟩

end Format

end PrecisionAudit
