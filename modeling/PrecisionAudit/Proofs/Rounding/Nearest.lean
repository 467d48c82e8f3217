import PrecisionAudit.Proofs.Rounding.Correct

/-!
# Rounding to nearest by midpoints

Which magnitude is nearest to a number is decided by the midpoints between neighbouring magnitudes:
the nearest magnitude lies above exactly those midpoints that the number exceeds, and above the one it
stands on if the magnitude below that is odd. The midpoint above the largest finite magnitude is the
threshold of overflow, so that infinity is one of the magnitudes.

## Main results

- `Format.lt_nearest_iff`: the nearest magnitude by midpoints.
- `Format.encodeRatio_eq_nearest`: every encoding that rounds to nearest finds the nearest magnitude.
- `Format.abs_sub_nearest_le`: rounding errs by half a unit at most.
- `Scalar.isNearestEven_ofParts_iff`: only the nearest magnitude satisfies the definition of rounding
  to nearest even.
-/

namespace PrecisionAudit

namespace Format

variable {f : Format} {v w : ℚ} {j m : ℕ}

/-! ## Midpoints -/

/-- The number halfway between a magnitude and the next one. -/
def midpoint (f : Format) (j : ℕ) : ℚ := (f.magnitudeValue j + f.magnitudeValue (j + 1)) / 2

/-- The magnitude nearest to a number, whatever its sign; of two that are as near, the even one. -/
def nearest (f : Format) (v : ℚ) : ℕ := f.encodeRatio .nearestEven false v.num.natAbs v.den 0

theorem midpoint_lt (f : Format) (j : ℕ) : f.midpoint j < f.magnitudeValue (j + 1) := by
  have hgap := f.magnitudeValue_strictMono (Nat.lt_succ_self j)
  unfold midpoint
  linarith

theorem lt_midpoint (f : Format) (j : ℕ) : f.magnitudeValue j < f.midpoint j := by
  have hgap := f.magnitudeValue_strictMono (Nat.lt_succ_self j)
  unfold midpoint
  linarith

/-- The middle between magnitudes is not beyond the midpoint next to one of them on the other side. -/
theorem middle_le_midpoint (h : m ≤ j) :
    (f.magnitudeValue m + f.magnitudeValue (j + 1)) / 2 ≤ f.midpoint j := by
  have hle := f.magnitudeValue_strictMono.monotone h
  unfold midpoint
  linarith

theorem midpoint_le_middle (h : j < m) :
    f.midpoint j ≤ (f.magnitudeValue m + f.magnitudeValue j) / 2 := by
  have hle := f.magnitudeValue_strictMono.monotone (Nat.succ_le_of_lt h)
  rw [Nat.succ_eq_add_one] at hle
  unfold midpoint
  linarith

theorem midpoint_pos (f : Format) (j : ℕ) : 0 < f.midpoint j :=
  (f.magnitudeValue_nonneg j).trans_lt (f.lt_midpoint j)

/-- A midpoint is an odd number of half steps. Of a significand without its leading bit they are the
least ones. -/
theorem exists_midpoint_eq (f : Format) (j : ℕ) :
    ∃ n < 2 * f.mantissaSpan, ∃ e : ℤ, f.minExponent - f.mantissaBits - 1 ≤ e ∧
      (e = f.minExponent - f.mantissaBits - 1 ∨ f.mantissaSpan ≤ n) ∧
      f.magnitudeValue j = 2 * n * 2 ^ e ∧ f.midpoint j = (2 * n + 1) * 2 ^ e ∧
      f.magnitudeValue (j + 1) = (2 * n + 2) * 2 ^ e := by
  obtain ⟨n, hn, e, he, hshort, hlow, hhigh⟩ := f.exists_magnitudeValue_eq_mul j
  have hhalf : (2 : ℚ) ^ e = 2 * 2 ^ (e - 1) := by
    rw [← zpow_one_add₀ (by norm_num)]
    congr 1
    ring
  refine ⟨n, hn, e - 1, by omega, by omega, ?_, ?_, ?_⟩
  · rw [hlow, hhalf]
    ring
  · rw [midpoint, hlow, hhigh, hhalf]
    ring
  · rw [hhigh, hhalf]
    ring

/-- The midpoint below infinity is the threshold of overflow. -/
theorem IsBinary.midpoint_maxFinite (hf : f.IsBinary) : f.midpoint f.maxFinite = f.overflowThreshold := by
  rw [midpoint, hf.maxFinite_add_one, hf.overflowThreshold_eq]

/-- The midpoints decide on the encoding of a ratio. -/
theorem lt_encodeRatio_iff (hf : f.IsBinary) (negative : Bool) {num den : ℕ} (hden : 0 < den)
    (exponent : ℤ) (hj : j < f.infinity) :
    j < f.encodeRatio .nearestEven negative num den exponent ↔
      f.midpoint j < (num : ℚ) / den * 2 ^ exponent ∨
        (f.midpoint j = (num : ℚ) / den * 2 ^ exponent ∧ j % 2 = 1) := by
  rcases Nat.eq_zero_or_pos num with rfl | hnum
  · have hpos := f.midpoint_pos j
    simp [encodeRatio, hpos.le, hpos.ne']
  · rcases lt_or_ge ((num : ℚ) / den * 2 ^ exponent) (2 ^ (f.maxExponent + 1)) with hrange | hover
    · exact (encodeRatio_selects hf .nearestEven negative hnum hden hrange).lt_iff
        f.magnitudeValue_strictMono j
    · -- beyond the range every midpoint is exceeded
      have hle := f.magnitudeValue_strictMono.monotone (Nat.succ_le_of_lt hj)
      rw [f.encodeRatio_of_ge .nearestEven negative hnum hden hover]
      rw [← hf.magnitudeValue_infinity] at hover
      exact iff_of_true hj (.inl ((f.midpoint_lt j).trans_le (hle.trans hover)))

/-! ## The nearest magnitude -/

theorem natAbs_num_div_den (v : ℚ) : (v.num.natAbs : ℚ) / v.den = |v| := by
  rw [Nat.cast_natAbs, Int.cast_abs, ← Nat.abs_cast v.den, ← abs_div, Rat.num_div_den]

theorem nearest_le_infinity (hf : f.IsBinary) (v : ℚ) : f.nearest v ≤ f.infinity :=
  f.encodeRatio_le_infinity hf .nearestEven false _ v.den_pos 0

/-- The midpoints decide on the nearest magnitude. -/
theorem lt_nearest_iff (hf : f.IsBinary) (v : ℚ) (hj : j < f.infinity) :
    j < f.nearest v ↔ f.midpoint j < |v| ∨ (f.midpoint j = |v| ∧ j % 2 = 1) := by
  rw [nearest, lt_encodeRatio_iff hf false v.den_pos 0 hj, zpow_zero, mul_one, natAbs_num_div_den]

/-- A number lies between the midpoints around the nearest magnitude. -/
theorem midpoint_le_of_lt_nearest (hf : f.IsBinary) (hj : j < f.nearest v) : f.midpoint j ≤ |v| := by
  rcases (lt_nearest_iff hf v (hj.trans_le (nearest_le_infinity hf v))).1 hj with h | h
  · exact h.le
  · exact h.1.le

theorem le_midpoint_nearest (hf : f.IsBinary) (hv : f.nearest v < f.infinity) :
    |v| ≤ f.midpoint (f.nearest v) := by
  by_contra! hlt
  exact lt_irrefl _ ((lt_nearest_iff hf v hv).2 (.inl hlt))

/-- A magnitude that is above the same midpoints is the nearest one. -/
theorem nearest_eq_of_forall (hf : f.IsBinary) (hm : m ≤ f.infinity)
    (h : ∀ j < f.infinity, j < m ↔ f.midpoint j < |v| ∨ (f.midpoint j = |v| ∧ j % 2 = 1)) :
    f.nearest v = m := by
  have hiff : ∀ j < f.infinity, j < f.nearest v ↔ j < m := fun j hj =>
    (lt_nearest_iff hf v hj).trans (h j hj).symm
  have hle := nearest_le_infinity hf v
  rcases Nat.lt_trichotomy (f.nearest v) m with hlt | heq | hgt
  · exact absurd ((hiff _ (hlt.trans_le hm)).2 hlt) (lt_irrefl _)
  · exact heq
  · exact absurd ((hiff _ (hgt.trans_le hle)).1 hgt) (lt_irrefl _)

/-- Every encoding that rounds to nearest finds the nearest magnitude. -/
theorem encodeRatio_eq_nearest (hf : f.IsBinary) (negative : Bool) {num den : ℕ} (hden : 0 < den)
    {exponent : ℤ} (hv : (num : ℚ) / den * 2 ^ exponent = |v|) :
    f.encodeRatio .nearestEven negative num den exponent = f.nearest v := by
  refine (nearest_eq_of_forall hf (f.encodeRatio_le_infinity hf _ _ _ hden _) fun j hj => ?_).symm
  rw [lt_encodeRatio_iff hf negative hden exponent hj, hv]

theorem nearest_mono (hf : f.IsBinary) (h : |v| ≤ |w|) : f.nearest v ≤ f.nearest w := by
  by_contra! hlt
  have hj := hlt.trans_le (nearest_le_infinity hf v)
  have hw := mt (lt_nearest_iff hf w hj).2 (lt_irrefl _)
  rcases (lt_nearest_iff hf v hj).1 hlt with hv | ⟨hv, hodd⟩
  · exact hw (.inl (hv.trans_le h))
  · rcases h.lt_or_eq with h | h
    · exact hw (.inl (hv.trans_lt h))
    · exact hw (.inr ⟨hv.trans h, hodd⟩)

theorem nearest_congr (hf : f.IsBinary) (h : |v| = |w|) : f.nearest v = f.nearest w :=
  le_antisymm (nearest_mono hf h.le) (nearest_mono hf h.ge)

/-- A magnitude is nearest to its own number. -/
theorem nearest_magnitudeValue (hf : f.IsBinary) (hm : m ≤ f.infinity) :
    f.nearest (f.magnitudeValue m) = m := by
  refine nearest_eq_of_forall hf hm fun j _ => ?_
  rw [abs_of_nonneg (f.magnitudeValue_nonneg m)]
  rcases Nat.lt_or_ge j m with h | h
  · have hle := f.magnitudeValue_strictMono.monotone (Nat.succ_le_of_lt h)
    exact iff_of_true h (.inl ((f.midpoint_lt j).trans_le hle))
  · have hlt := (f.magnitudeValue_strictMono.monotone h).trans_lt (f.lt_midpoint j)
    refine iff_of_false (not_lt.2 h) ?_
    rintro (h' | ⟨h', -⟩)
    · exact hlt.not_gt h'
    · exact hlt.ne' h'

theorem nearest_zero (hf : f.IsBinary) : f.nearest 0 = 0 := by
  rw [← f.magnitudeValue_zero, nearest_magnitudeValue hf (Nat.zero_le _)]

/-- Exactly from the threshold on, infinity is nearest. -/
theorem nearest_eq_infinity_iff (hf : f.IsBinary) :
    f.nearest v = f.infinity ↔ f.overflowThreshold ≤ |v| := by
  have hsucc := hf.maxFinite_add_one
  have hle := nearest_le_infinity hf v
  have hlast := lt_nearest_iff hf v (j := f.maxFinite) (by omega)
  simp only [hf.midpoint_maxFinite, hf.maxFinite_odd, and_true, ← le_iff_lt_or_eq] at hlast
  rw [← hlast]
  omega

/-- Rounding errs by half a step at most: little of the number, or of the least one. -/
theorem abs_sub_nearest_le (hf : f.IsBinary) (hv : f.nearest v < f.infinity) :
    |(|v| - f.magnitudeValue (f.nearest v))| ≤
      max (f.magnitudeValue (f.nearest v) / f.mantissaSpan) (2 ^ (f.minExponent - f.mantissaBits)) / 2 := by
  have habove := le_midpoint_nearest hf hv
  have hbelow (k : ℕ) (hk : k + 1 = f.nearest v) : f.midpoint k ≤ |v| :=
    midpoint_le_of_lt_nearest hf (hk ▸ Nat.lt_succ_self k)
  generalize f.nearest v = m at *
  obtain ⟨n, -, e, -, hshort, hlow, hhigh⟩ := f.exists_magnitudeValue_eq_mul m
  have hupper : |v| - f.magnitudeValue m ≤ 2 ^ e / 2 := by
    rw [midpoint] at habove
    linarith
  have hlower : f.magnitudeValue m - |v| ≤ 2 ^ e / 2 := by
    cases m with
    | zero =>
      have hpos : (0 : ℚ) < 2 ^ e := by positivity
      rw [magnitudeValue_zero]
      linarith [abs_nonneg v]
    | succ k =>
      have hle := hbelow k rfl
      have hstep := f.magnitudeValue_step_le k
      rw [midpoint] at hle
      linarith
  have hstep : (2 : ℚ) ^ e ≤
      max (f.magnitudeValue m / f.mantissaSpan) (2 ^ (f.minExponent - f.mantissaBits)) := by
    rcases hshort with rfl | hlong
    · exact le_max_right _ _
    · refine le_max_of_le_left ?_
      rw [le_div_iff₀ (Nat.cast_pos.2 f.mantissaSpan_pos), hlow, mul_comm]
      gcongr
  rw [abs_le]
  constructor <;> linarith

section

variable {K : Type*} [Field K] [LinearOrder K] [IsStrictOrderedRing K] {u a b : K}

/-- From the midpoint of two numbers on, the larger one is not farther away than the smaller. -/
theorem abs_sub_le_abs_sub_iff (hab : a < b) : |u - b| ≤ |u - a| ↔ (a + b) / 2 ≤ u := by
  have hfactor : (u - a) ^ 2 - (u - b) ^ 2 = (u - (a + b) / 2) * (2 * (b - a)) := by ring
  rw [← sq_le_sq, ← sub_nonneg, hfactor, mul_nonneg_iff_of_pos_right (by linarith), sub_nonneg]

theorem abs_sub_lt_abs_sub_iff (hab : a < b) : |u - b| < |u - a| ↔ (a + b) / 2 < u := by
  have hfactor : (u - a) ^ 2 - (u - b) ^ 2 = (u - (a + b) / 2) * (2 * (b - a)) := by ring
  rw [← sq_lt_sq, ← sub_pos, hfactor, mul_pos_iff_of_pos_right (by linarith), sub_pos]

end

/-- Below the threshold of overflow, a magnitude that no other is closer than is the nearest one, if it
is even where another one is as close. -/
theorem nearest_eq_of_closest (hf : f.IsBinary) (hm : m < f.infinity)
    (hfinite : |v| < f.overflowThreshold)
    (hclosest : ∀ k < f.infinity, |(|v| - f.magnitudeValue m)| ≤ |(|v| - f.magnitudeValue k)| ∧
      (|(|v| - f.magnitudeValue k)| = |(|v| - f.magnitudeValue m)| → k ≠ m → m % 2 = 0)) :
    f.nearest v = m := by
  have hmono := f.magnitudeValue_strictMono
  have hsucc := hf.maxFinite_add_one
  rw [← hf.midpoint_maxFinite] at hfinite
  refine nearest_eq_of_forall hf hm.le fun j hj => ⟨fun hjm => ?_, fun hmid => ?_⟩
  · -- the magnitude is not farther away than the one below the midpoint
    obtain ⟨hnear, htie⟩ := hclosest j hj
    have hle := (abs_sub_le_abs_sub_iff (hmono hjm)).1 hnear
    rcases (Nat.succ_le_of_lt hjm).lt_or_eq with hfar | rfl
    · have hhigh : f.midpoint j < (f.magnitudeValue j + f.magnitudeValue m) / 2 := by
        have hstep := hmono hfar
        rw [Nat.succ_eq_add_one] at hstep
        unfold midpoint
        linarith
      exact .inl (hhigh.trans_le hle)
    · refine hle.lt_or_eq.imp_right fun heq => ⟨heq, ?_⟩
      -- in the middle of two neighbours both are as close, and the other one is the odd one
      have hback := mt (abs_sub_lt_abs_sub_iff (hmono hjm)).1 heq.not_lt
      have heven := htie (le_antisymm (not_lt.1 hback) hnear) hjm.ne
      omega
  · by_contra! hle
    have hlast : j ≠ f.maxFinite := by
      rintro rfl
      rcases hmid with h | ⟨h, -⟩
      · exact hfinite.not_gt h
      · exact hfinite.ne' h
    -- the magnitude above the midpoint is not closer, so the number is not beyond the middle
    obtain ⟨hnear, htie⟩ := hclosest (j + 1) (by omega)
    have hlt := hmono (Nat.lt_succ_of_le hle)
    have hmiddle := not_lt.1 (mt (abs_sub_lt_abs_sub_iff hlt).2 hnear.not_gt)
    have hlow : (f.magnitudeValue m + f.magnitudeValue (j + 1)) / 2 ≤ f.midpoint j := middle_le_midpoint hle
    rcases hmid with hbeyond | ⟨hmid, hodd⟩
    · exact (hmiddle.trans hlow).not_gt hbeyond
    · have heq := le_antisymm hlow (hmid.trans_le hmiddle)
      have heven := htie (le_antisymm ((abs_sub_le_abs_sub_iff hlt).2 (heq.trans hmid).le) hnear)
        (by omega)
      have hsame : m = j := hmono.injective (by unfold midpoint at heq; linarith)
      omega

end Format

/-! ## Scalars -/

namespace Scalar

variable {f : Format} {x : Scalar f} {negative : Bool} {v : ℚ} {m : ℕ}

/-- A number with a rational value is finite, and its exact number has that value. -/
theorem exact_of_value?_eq (hx : x.value? = some ((v : ℚ) : Extended)) :
    x.magnitude < f.infinity ∧ x.exact.value = v ∧ |v| = f.magnitudeValue x.magnitude := by
  rcases lt_trichotomy x.magnitude f.infinity with h | h | h
  · rw [value?_of_finite h, Option.some_inj] at hx
    obtain rfl := Extended.coe_strictMono.injective hx
    exact ⟨h, x.value_exact, by rw [f.abs_gridValue, natAbs_ordinal]⟩
  · rw [value?_of_infinite h, Option.some_inj] at hx
    exact absurd hx.symm (Extended.coe_ne_infinite v _)
  · rw [value?_of_isNaN ((isNaN_iff x).2 h)] at hx
    cases hx

/-- A number is the nearest one to its own value. -/
theorem isNearestEven_self (hf : f.IsBinary) (hx : x.value? = some ((v : ℚ) : Extended)) :
    x.IsNearestEven v := by
  obtain ⟨hfinite, -, hv⟩ := exact_of_value?_eq hx
  have hnearest : f.nearest v < f.infinity := by
    rw [Format.nearest_congr hf (hv.trans (abs_of_nonneg (f.magnitudeValue_nonneg _)).symm),
      Format.nearest_magnitudeValue hf hfinite.le]
    exact hfinite
  refine ⟨?_, fun _ => ⟨v, hx, fun p _ => ⟨by simp, fun htie hne => ?_⟩⟩⟩
  · rw [isInfinite_iff, ← Format.nearest_eq_infinity_iff hf]
    exact iff_of_false hfinite.ne hnearest.ne
  · rw [sub_self, abs_zero, abs_eq_zero, sub_eq_zero] at htie
    exact absurd htie.symm hne

/-- Under the sign of a number, the distance to it is that of the magnitudes. -/
theorem abs_sub_sign_mul (hsign : v ≠ 0 → negative = decide (v < 0)) (a : ℚ) :
    |v - (if negative then -1 else 1) * a| = |(|v| - a)| := by
  rcases lt_trichotomy v 0 with hv | rfl | hv
  · rw [hsign hv.ne, decide_eq_true hv, if_pos rfl, abs_of_neg hv, ← abs_neg]
    congr 1
    ring
  · cases negative <;> simp
  · rw [hsign hv.ne', decide_eq_false hv.not_gt, if_neg (by simp), one_mul, abs_of_pos hv]

/-- The magnitude nearest to a number, under its sign, is the rounding of the number. -/
theorem isRounding_nearest (hf : f.IsBinary) (hv : v ≠ 0) :
    (ofParts f (decide (v < 0)) (f.nearest v)).IsRounding .nearestEven v := by
  have hnum : 0 < v.num.natAbs := Int.natAbs_pos.2 (Rat.num_ne_zero.2 hv)
  have hmag : (v.num.natAbs : ℚ) / v.den * 2 ^ (0 : ℤ) = |v| := by
    rw [zpow_zero, mul_one, Format.natAbs_num_div_den]
  have hround := isRounding_ofParts hf .nearestEven (decide (v < 0)) hnum v.den_pos 0
  rw [hmag, Format.encodeRatio_eq_nearest hf _ v.den_pos hmag] at hround
  have hsigned : (if decide (v < 0) = true then -1 else 1) * |v| = v := by
    rcases lt_or_gt_of_ne hv with h | h
    · simp [h, abs_of_neg h]
    · simp [h.not_gt, abs_of_pos h]
  rwa [hsigned] at hround

/-- Under the sign of a number, only the nearest magnitude is its rounding to nearest even. -/
theorem isNearestEven_ofParts_iff (hf : f.IsBinary) (hm : m ≤ f.infinity)
    (hsign : v ≠ 0 → negative = decide (v < 0)) :
    (ofParts f negative m).IsNearestEven v ↔ f.nearest v = m := by
  constructor
  · rintro ⟨hinfinite, hfinite⟩
    rw [isInfinite_ofParts_iff negative hm] at hinfinite
    rcases hm.lt_or_eq with hm' | rfl
    · obtain ⟨q, hq, hclosest⟩ := hfinite (by
        rw [← Bool.not_eq_true, isInfinite_ofParts_iff negative hm]
        exact hm'.ne)
      rw [value?_ofParts negative hm', Option.some_inj] at hq
      obtain rfl := Extended.coe_strictMono.injective hq
      refine Format.nearest_eq_of_closest hf hm' (not_le.1 fun h => hm'.ne (hinfinite.2 h)) fun k hk => ?_
      obtain ⟨hnear, htie⟩ := hclosest _ ⟨_, value?_ofParts negative hk⟩
      rw [abs_sub_sign_mul hsign, abs_sub_sign_mul hsign] at hnear htie
      rw [packed_ofParts_mod_two hf negative (hm.trans_lt f.infinity_lt_signMask)] at htie
      refine ⟨hnear, fun heq hne => htie heq fun hsame => hne ?_⟩
      refine f.magnitudeValue_strictMono.injective (mul_left_cancel₀ ?_ hsame)
      cases negative <;> simp
    · exact (Format.nearest_eq_infinity_iff hf).2 (hinfinite.1 rfl)
  · rintro rfl
    rcases eq_or_ne v 0 with rfl | hv
    · -- zero is a number of the format, under both signs
      rw [Format.nearest_zero hf]
      exact isNearestEven_self hf (value?_ofParts_zero hf negative)
    · rw [hsign hv]
      exact (isRounding_nearest hf hv).value_spec

end Scalar

end PrecisionAudit
