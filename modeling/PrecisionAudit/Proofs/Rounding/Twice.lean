import PrecisionAudit.Proofs.Rounding.Nearest
import PrecisionAudit.Proofs.Scalar.Conversion

/-!
# Rounding twice

A number that is rounded into a format and from there into a coarser one may end up elsewhere than if it
had been rounded once. This happens in one way only: the first rounding puts the number on a midpoint of
the coarser format, and the tie there is then resolved away from the side the number came from.

If the finer format has room for two significands of the coarser one and two bits more, a number has to
be very near a midpoint for that.

## Main results

- `Format.nearest_nearest_iff`: when rounding twice is rounding once.
- `Format.FitsTwice.exists_nearMidpoint`: how near a midpoint a number is that misleads.
-/

namespace PrecisionAudit

namespace Format

variable {f g : Format} {v : ℚ} {j k : ℕ}

/-! ## Ties of the coarser format -/

/-- A longer significand has room for the midpoints. -/
theorem Embeds.exists_magnitudeValue_eq_midpoint (h : f.Embeds g)
    (hbits : f.mantissaBits < g.mantissaBits) (hf : f.IsBinary) (hg : g.IsBinary)
    (hj : j < f.infinity) : ∃ k < g.infinity, g.magnitudeValue k = f.midpoint j := by
  obtain ⟨n, hn, e, he, -, -, hmid, -⟩ := f.exists_midpoint_eq j
  have hspan : 2 * f.mantissaSpan ≤ g.mantissaSpan := by
    rw [mantissaSpan, mantissaSpan, ← pow_succ']
    exact Nat.pow_le_pow_right (by norm_num) hbits
  have hunit : g.minExponent - g.mantissaBits ≤ e := by
    have hbias := h.bias_le
    unfold minExponent at *
    omega
  have hcast : (2 * n + 1 : ℚ) = (2 * n + 1 : ℕ) := by push_cast; rfl
  have hrange : f.midpoint j < 2 ^ (g.maxExponent + 1) :=
    (f.midpoint_lt j).trans_le (hf.magnitudeValue_le_of_bias_le h.bias_le hj)
  rw [hmid, hcast] at hrange ⊢
  exact hg.exists_magnitudeValue_eq (by omega) hunit hrange

/-- Rounded into `g`, the number lands on a midpoint of `f`, coming from the side to which the tie is not
resolved. -/
def Misleads (g f : Format) (v : ℚ) : Prop :=
  ∃ j < f.infinity, g.magnitudeValue (g.nearest v) = f.midpoint j ∧
    if j % 2 = 0 then f.midpoint j < |v| else |v| < f.midpoint j

/-- A number does not cross a value of the format that it is rounded into. -/
theorem magnitudeValue_le_nearest (hg : g.IsBinary) (hk : k ≤ g.infinity)
    (hv : g.magnitudeValue k ≤ |v|) : g.magnitudeValue k ≤ g.magnitudeValue (g.nearest v) := by
  refine g.magnitudeValue_strictMono.monotone ?_
  rw [← nearest_magnitudeValue hg hk]
  exact nearest_mono hg (by rwa [abs_of_nonneg (g.magnitudeValue_nonneg k)])

theorem nearest_le_magnitudeValue (hg : g.IsBinary) (hk : k ≤ g.infinity)
    (hv : |v| ≤ g.magnitudeValue k) : g.magnitudeValue (g.nearest v) ≤ g.magnitudeValue k := by
  refine g.magnitudeValue_strictMono.monotone ?_
  rw [← nearest_magnitudeValue hg hk]
  exact nearest_mono hg (by rwa [abs_of_nonneg (g.magnitudeValue_nonneg k)])

/-- Rounding twice is rounding once, unless the first rounding misleads the second. -/
theorem nearest_nearest_iff (h : f.Embeds g) (hbits : f.mantissaBits < g.mantissaBits)
    (hf : f.IsBinary) (hg : g.IsBinary) :
    f.nearest (g.magnitudeValue (g.nearest v)) = f.nearest v ↔ ¬ g.Misleads f v := by
  have htwice (j : ℕ) (hj : j < f.infinity) :=
    lt_nearest_iff hf (g.magnitudeValue (g.nearest v)) hj
  rw [abs_of_nonneg (g.magnitudeValue_nonneg _)] at htwice
  constructor
  · rintro heq ⟨j, hj, hmid, hside⟩
    have hiff := (htwice j hj).symm.trans (heq ▸ lt_nearest_iff hf v hj)
    rw [hmid] at hiff
    split at hside
    case isTrue heven =>
      exact absurd (hiff.2 (.inl hside)) (by simp [heven])
    case isFalse hodd =>
      rcases hiff.1 (.inr ⟨rfl, by omega⟩) with hlt | ⟨htie, -⟩
      · exact hside.not_gt hlt
      · exact hside.ne' htie
  · intro hnot
    refine nearest_eq_of_forall hf (nearest_le_infinity hf v) fun j hj => ?_
    rw [abs_of_nonneg (g.magnitudeValue_nonneg _), lt_nearest_iff hf v hj]
    -- the midpoint belongs to the finer format, so the first rounding does not cross it
    obtain ⟨k, hk, hmid⟩ := h.exists_magnitudeValue_eq_midpoint hbits hf hg hj
    have hlow := magnitudeValue_le_nearest hg (v := v) hk.le
    have hhigh := nearest_le_magnitudeValue hg (v := v) hk.le
    have hside : ¬ (g.magnitudeValue (g.nearest v) = f.midpoint j ∧
        if j % 2 = 0 then f.midpoint j < |v| else |v| < f.midpoint j) :=
      fun hmislead => hnot ⟨j, hj, hmislead⟩
    rw [hmid] at hlow hhigh
    grind

/-- A number of the finer format is not moved by the first rounding. -/
theorem not_misleads_of_magnitudeValue (hg : g.IsBinary) (hk : k ≤ g.infinity)
    (hv : |v| = g.magnitudeValue k) : ¬ g.Misleads f v := by
  rintro ⟨j, -, hmid, hside⟩
  have hnearest : g.magnitudeValue (g.nearest v) = |v| := by
    refine le_antisymm ?_ ?_
    · exact (nearest_le_magnitudeValue hg hk hv.le).trans hv.ge
    · exact hv.le.trans (magnitudeValue_le_nearest hg hk hv.ge)
  rw [← hmid, hnearest] at hside
  grind

/-! ## Formats of more than twice the length -/

/-- The finer format has room for two significands of the coarser one and two bits more. -/
structure FitsTwice (f g : Format) : Prop where
  two_mul_le : 2 * f.mantissaBits + 3 ≤ g.mantissaBits
  bias_le : f.bias ≤ g.bias

theorem FitsTwice.embeds (h : f.FitsTwice g) : f.Embeds g where
  mantissaBits_le := by have := h.two_mul_le; omega
  bias_le := h.bias_le

theorem FitsTwice.mantissaBits_lt (h : f.FitsTwice g) : f.mantissaBits < g.mantissaBits := by
  have := h.two_mul_le
  omega

theorem half_fitsTwice : half.FitsTwice single := ⟨by decide, by decide⟩

theorem bfloat_fitsTwice : bfloat.FitsTwice single := ⟨by decide, by decide⟩

theorem tfloat_fitsTwice : tfloat.FitsTwice single := ⟨by decide, by decide⟩

theorem FitsTwice.mantissaSpan_le (h : f.FitsTwice g) :
    8 * (f.mantissaSpan * f.mantissaSpan) ≤ g.mantissaSpan := by
  rw [mantissaSpan, mantissaSpan, ← pow_add, show 8 = 2 ^ 3 from rfl, ← pow_add]
  exact Nat.pow_le_pow_right (by norm_num) (by have := h.two_mul_le; omega)

/-- Half a step of the finer format is short, both at a midpoint of the coarser one and where it is
least. -/
theorem FitsTwice.half_step_le (h : f.FitsTwice g) {n : ℕ} (hn : n < 2 * f.mantissaSpan) {e : ℤ}
    (he : f.minExponent - f.mantissaBits - 1 ≤ e) :
    max ((2 * n + 1) * 2 ^ e / (g.mantissaSpan : ℚ)) (2 ^ (g.minExponent - g.mantissaBits)) / 2 *
      (4 * f.mantissaSpan) ≤ 2 ^ e := by
  have hspan : (8 : ℚ) * (f.mantissaSpan * f.mantissaSpan) ≤ g.mantissaSpan := by
    exact_mod_cast h.mantissaSpan_le
  have hcount : (n + 1 : ℚ) ≤ 2 * f.mantissaSpan := by exact_mod_cast hn
  have hrelative : (2 * n + 1) * 2 ^ e / (g.mantissaSpan : ℚ) * (2 * f.mantissaSpan) ≤ 2 ^ e := by
    have hsignificand : (2 * n + 1) * (2 * f.mantissaSpan) ≤ (g.mantissaSpan : ℚ) :=
      calc (2 * n + 1) * (2 * f.mantissaSpan : ℚ)
          ≤ (4 * f.mantissaSpan) * (2 * f.mantissaSpan) := by gcongr; linarith
        _ = 8 * (f.mantissaSpan * f.mantissaSpan) := by ring
        _ ≤ g.mantissaSpan := hspan
    rw [div_mul_eq_mul_div, div_le_iff₀ (Nat.cast_pos.2 g.mantissaSpan_pos), mul_right_comm, mul_comm]
    gcongr
  have hleast : (2 : ℚ) ^ (g.minExponent - g.mantissaBits) * (2 * f.mantissaSpan) ≤ 2 ^ e := by
    rw [mantissaSpan_eq_zpow, ← zpow_one_add₀ (by norm_num),
      ← zpow_add₀ (by norm_num)]
    refine zpow_le_zpow_right₀ (by norm_num) ?_
    have hbias := h.bias_le
    have hbits := h.two_mul_le
    unfold minExponent at *
    omega
  calc max ((2 * n + 1) * 2 ^ e / (g.mantissaSpan : ℚ)) (2 ^ (g.minExponent - g.mantissaBits)) / 2 *
        (4 * f.mantissaSpan)
      = max ((2 * n + 1) * 2 ^ e / (g.mantissaSpan : ℚ) * (2 * f.mantissaSpan))
          (2 ^ (g.minExponent - g.mantissaBits) * (2 * f.mantissaSpan)) := by
        rw [← max_mul_of_nonneg _ _ (by positivity)]
        ring
    _ ≤ 2 ^ e := max_le hrelative hleast

/-- A number is no midpoint of the format, but is so close to the midpoint `(2 * n + 1) * 2 ^ e` that the
distance, times twice the longest significand, is within half a step. -/
structure NearMidpoint (f : Format) (v : ℚ) (n : ℕ) (e : ℤ) : Prop where
  count_lt : n < 2 * f.mantissaSpan
  le_exponent : f.minExponent - f.mantissaBits - 1 ≤ e
  /-- The magnitudes of the format keep half a step away from the midpoint. -/
  step_le (i : ℕ) : (2 : ℚ) ^ e ≤ |f.magnitudeValue i - (2 * n + 1) * 2 ^ e|
  ne_midpoint : |v| ≠ (2 * n + 1) * 2 ^ e
  near : |(|v| - (2 * n + 1) * 2 ^ e)| * (4 * f.mantissaSpan) ≤ 2 ^ e

section

variable (h : f.FitsTwice g) (hf : f.IsBinary) (hg : g.IsBinary)

include h hf hg

/-- What misleads does not overflow. -/
theorem FitsTwice.nearest_lt_infinity (hv : g.Misleads f v) : g.nearest v < g.infinity := by
  obtain ⟨j, hj, hmid, -⟩ := hv
  obtain ⟨k, hk, hkmid⟩ := h.embeds.exists_magnitudeValue_eq_midpoint h.mantissaBits_lt hf hg hj
  rwa [g.magnitudeValue_strictMono.injective (hmid.trans hkmid.symm)]

theorem FitsTwice.abs_lt_of_misleads (hv : g.Misleads f v) : |v| < 2 ^ (g.maxExponent + 1) := by
  have hfinite := h.nearest_lt_infinity hf hg hv
  have hlast := g.midpoint_lt g.maxFinite
  rw [hg.maxFinite_add_one, hg.magnitudeValue_infinity, hg.midpoint_maxFinite] at hlast
  exact (not_le.1 (mt (nearest_eq_infinity_iff hg).2 hfinite.ne)).trans hlast

/-- What misleads is near a midpoint of the coarser format. -/
theorem FitsTwice.exists_nearMidpoint (hv : g.Misleads f v) : ∃ n e, f.NearMidpoint v n e := by
  have herror := abs_sub_nearest_le hg (h.nearest_lt_infinity hf hg hv)
  obtain ⟨j, hj, hmid, hside⟩ := hv
  obtain ⟨n, hn, e, he, -, hlow, heq, hhigh⟩ := f.exists_midpoint_eq j
  rw [hmid, heq] at herror
  rw [heq] at hside
  refine ⟨n, e, hn, he, fun i => ?_, ?_, ?_⟩
  · -- the two magnitudes around the midpoint are the nearest ones
    rcases le_or_gt i j with hij | hij
    · have hle := f.magnitudeValue_strictMono.monotone hij
      exact le_abs.2 (.inr (by linarith))
    · have hle := f.magnitudeValue_strictMono.monotone (Nat.succ_le_of_lt hij)
      rw [Nat.succ_eq_add_one, hhigh] at hle
      exact le_abs.2 (.inl (by linarith))
  · split at hside
    · exact hside.ne'
    · exact hside.ne
  · calc |(|v| - (2 * n + 1) * 2 ^ e)| * (4 * f.mantissaSpan)
        ≤ max ((2 * n + 1) * 2 ^ e / (g.mantissaSpan : ℚ)) (2 ^ (g.minExponent - g.mantissaBits)) / 2 *
            (4 * f.mantissaSpan) := by gcongr
      _ ≤ 2 ^ e := h.half_step_le hn he

end

namespace NearMidpoint

variable {n : ℕ} {e : ℤ}

theorem one_le_mantissaSpan (f : Format) : (1 : ℚ) ≤ f.mantissaSpan := by
  exact_mod_cast f.mantissaSpan_pos

/-- The number is larger than half a step, or smaller by little. -/
theorem le_abs (h : f.NearMidpoint v n e) :
    (4 * f.mantissaSpan - 1) * 2 ^ e ≤ |v| * (4 * f.mantissaSpan) := by
  have hgap : ((2 * n + 1) * 2 ^ e - |v|) * (4 * f.mantissaSpan) ≤ 2 ^ e := by
    have hnear := h.near
    rw [abs_sub_comm] at hnear
    exact (mul_le_mul_of_nonneg_right (le_abs_self _) (by positivity)).trans hnear
  have hmid : 2 ^ e * (4 * f.mantissaSpan) ≤ (2 * n + 1) * 2 ^ e * (4 * f.mantissaSpan : ℚ) := by
    gcongr
    exact le_mul_of_one_le_left (by positivity) (by linarith [n.cast_nonneg (α := ℚ)])
  linarith

/-- The distance is at most a quarter of half a step. -/
theorem abs_sub_mul_four_le (h : f.NearMidpoint v n e) :
    |(|v| - (2 * n + 1) * 2 ^ e)| * 4 ≤ 2 ^ e := by
  refine le_trans (mul_le_mul_of_nonneg_left ?_ (abs_nonneg _)) h.near
  linarith [one_le_mantissaSpan f]

/-- The number is at most as many half steps as twice the longest significand. -/
theorem abs_le (h : f.NearMidpoint v n e) : |v| ≤ 4 * f.mantissaSpan * 2 ^ e := by
  have hcount : (n + 1 : ℚ) ≤ 2 * f.mantissaSpan := by exact_mod_cast h.count_lt
  have hmid : (2 * n + 1 + 1) * (2 : ℚ) ^ e ≤ 4 * f.mantissaSpan * 2 ^ e := by
    gcongr
    linarith
  have hstep : (0 : ℚ) < 2 ^ e := by positivity
  linarith [h.abs_sub_mul_four_le, le_abs_self (|v| - (2 * n + 1) * 2 ^ e)]

end NearMidpoint

end Format

end PrecisionAudit
