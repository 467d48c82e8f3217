import PrecisionAudit.Proofs.Rounding.Encoding
import PrecisionAudit.Proofs.Scalar.Value

/-!
# Correct rounding

What it means that a scalar is the rounding of a rational number into its format, said over the
values of the format alone, and the proof that every encoding is the rounding of its number.

Directed modes are stated on the values extended by both infinities, rounding toward zero on the
finite values, and rounding to nearest on the finite values below a threshold from which on the
result is an infinity.

## Main results

- `Format.overflowThreshold_eq`: the threshold is the midpoint of the last finite number and the
  place of infinity.
- `Format.encodeRatio_le_iff`, `Format.le_encodeRatio_iff`: directed encodings as least upper and
  greatest lower places.
- `Scalar.isRounding_ofParts`: an encoded ratio is the rounding of its value.
-/

namespace PrecisionAudit

namespace Format

variable {f : Format}

/-- From here on, rounding to nearest gives an infinity: half a unit beyond the largest number. -/
def overflowThreshold (f : Format) : ℚ :=
  (2 - 2 ^ (-(f.mantissaBits + 1 : ℤ))) * 2 ^ f.maxExponent

theorem IsBinary.maxFinite_add_one (hf : f.IsBinary) : f.maxFinite + 1 = f.infinity :=
  Nat.sub_add_cancel hf.infinity_pos

/-- The largest finite magnitude is odd, so that a tie above it goes to infinity. -/
theorem IsBinary.maxFinite_odd (hf : f.IsBinary) : f.maxFinite % 2 = 1 := by
  have hsucc := hf.maxFinite_add_one
  have heven := hf.infinity_even
  omega

/-- The last step before infinity is the unit of the largest binade. -/
theorem IsBinary.magnitudeValue_maxFinite (hf : f.IsBinary) :
    f.magnitudeValue f.maxFinite = 2 ^ (f.maxExponent + 1) - 2 ^ (f.maxExponent - f.mantissaBits) := by
  have hthree := hf.three_le_exponentFieldMax
  have hfield := hf.exponentFieldMax_eq
  have hpos := f.mantissaSpan_pos
  -- the last finite magnitude lies in the binade below the all-ones exponent field
  have hdiv : f.maxFinite / f.mantissaSpan = f.exponentFieldMax - 1 := by
    obtain ⟨k, hk⟩ := Nat.exists_eq_add_of_le (show 1 ≤ f.exponentFieldMax by omega)
    rw [maxFinite, exponentMask, hk, Nat.add_mul, Nat.one_mul, Nat.add_comm,
      Nat.add_sub_assoc hpos, Nat.mul_comm, Nat.mul_add_div hpos, Nat.div_eq_of_lt (by omega)]
    omega
  have hstep := f.gridCount_succ f.maxFinite
  rw [hf.maxFinite_add_one, hdiv] at hstep
  rw [← hf.magnitudeValue_infinity, magnitudeValue, magnitudeValue, hstep]
  have hunit : (2 : ℚ) ^ (f.maxExponent - f.mantissaBits) =
      2 ^ (f.exponentFieldMax - 1 - 1) * 2 ^ (f.minExponent - f.mantissaBits) := by
    rw [← zpow_natCast, ← zpow_add₀ (by norm_num : (2 : ℚ) ≠ 0)]
    congr 1
    unfold minExponent maxExponent
    omega
  rw [hunit]
  push_cast
  ring

/-- The threshold is the midpoint of the last finite number and the place of infinity. -/
theorem IsBinary.overflowThreshold_eq (hf : f.IsBinary) :
    f.overflowThreshold = (f.magnitudeValue f.maxFinite + f.magnitudeValue f.infinity) / 2 := by
  have htwo : (2 : ℚ) ≠ 0 := by norm_num
  have hpow : (2 : ℚ) ^ (f.maxExponent - f.mantissaBits) =
      2 * (2 ^ (-(f.mantissaBits + 1 : ℤ)) * 2 ^ f.maxExponent) := by
    rw [← zpow_add₀ htwo, ← zpow_one_add₀ htwo]
    congr 1
    ring
  rw [hf.magnitudeValue_maxFinite, hf.magnitudeValue_infinity, hpow, overflowThreshold,
    zpow_add_one₀ htwo]
  ring

/-! ## Directed encodings -/

section

variable {mode : RoundingMode} {negative : Bool} {num den : ℕ} {exponent : ℤ}

/-- A mode that raises takes a number to the least place at or above it. -/
theorem encodeRatio_le_iff (hf : f.IsBinary) (hmode : mode.directedUp negative = true)
    (hnum : 0 < num) (hden : 0 < den) {j : ℕ} (hj : j ≤ f.infinity) :
    f.encodeRatio mode negative num den exponent ≤ j ↔
      j = f.infinity ∨ (num : ℚ) / den * 2 ^ exponent ≤ f.magnitudeValue j := by
  have hmono := f.magnitudeValue_strictMono
  constructor
  · intro hle
    rcases hj.lt_or_eq with hlt | heq
    · -- a place below infinity is reached only by numbers in range
      have hrange : (num : ℚ) / den * 2 ^ exponent < 2 ^ (f.maxExponent + 1) := by
        by_contra! hover
        rw [f.encodeRatio_of_ge mode negative hnum hden hover] at hle
        cases mode <;> simp_all [overflow, RoundingMode.directedUp] <;> omega
      have hsel := encodeRatio_selects hf mode negative hnum hden hrange
      exact .inr ((hsel.le_of_directedUp hmode).trans (hmono.monotone hle))
    · exact .inl heq
  · rintro (rfl | hv)
    · exact f.encodeRatio_le_infinity hf mode negative num hden exponent
    · rcases hj.lt_or_eq with hlt | rfl
      · have hrange : (num : ℚ) / den * 2 ^ exponent < 2 ^ (f.maxExponent + 1) :=
          hf.magnitudeValue_infinity ▸ hv.trans_lt (hmono hlt)
        exact (encodeRatio_selects hf mode negative hnum hden hrange).le_of_le hmono hv
      · exact f.encodeRatio_le_infinity hf mode negative num hden exponent

/-- A mode that does not raise takes a number to the greatest finite place at or below it. -/
theorem le_encodeRatio_iff (hf : f.IsBinary) (hne : mode ≠ .nearestEven)
    (hmode : mode.directedUp negative = false) (hnum : 0 < num) (hden : 0 < den) (j : ℕ) :
    j ≤ f.encodeRatio mode negative num den exponent ↔
      j < f.infinity ∧ f.magnitudeValue j ≤ (num : ℚ) / den * 2 ^ exponent := by
  have hmono := f.magnitudeValue_strictMono
  rcases lt_or_ge ((num : ℚ) / den * 2 ^ exponent) (2 ^ (f.maxExponent + 1)) with hrange | hover
  · have hsel := encodeRatio_selects hf mode negative hnum hden hrange
    rw [← hf.magnitudeValue_infinity] at hrange
    constructor
    · intro hle
      have hv := (hmono.monotone hle).trans (hsel.le_of_not_directedUp hne hmode)
      exact ⟨hmono.lt_iff_lt.1 (hv.trans_lt hrange), hv⟩
    · exact fun h => hsel.ge_of_ge hmono h.2
  · -- out of range, a mode that does not raise stops at the last finite place
    have hmax : f.overflow mode negative = f.maxFinite := by
      cases mode <;> simp_all [overflow, RoundingMode.directedUp]
    have hsucc := hf.maxFinite_add_one
    rw [f.encodeRatio_of_ge mode negative hnum hden hover, hmax]
    constructor
    · intro hle
      refine ⟨by omega, ?_⟩
      rw [← hf.magnitudeValue_infinity] at hover
      exact (hmono (by omega : j < f.infinity)).le.trans hover
    · intro h
      omega

/-- Rounding to nearest reaches infinity from the threshold on. -/
theorem encodeRatio_eq_infinity_iff (hf : f.IsBinary) (hnum : 0 < num) (hden : 0 < den) :
    f.encodeRatio .nearestEven negative num den exponent = f.infinity ↔
      f.overflowThreshold ≤ (num : ℚ) / den * 2 ^ exponent := by
  have hmono := f.magnitudeValue_strictMono
  have hsucc := hf.maxFinite_add_one
  have hle := f.encodeRatio_le_infinity hf .nearestEven negative num hden exponent
  rw [hf.overflowThreshold_eq]
  rcases lt_or_ge ((num : ℚ) / den * 2 ^ exponent) (2 ^ (f.maxExponent + 1)) with hrange | hover
  · -- in range, infinity is taken above the midpoint; the tie goes there because the last finite
    -- place is odd
    have hsel := encodeRatio_selects hf .nearestEven negative hnum hden hrange
    have hmid := hsel.le_iff_midpoint_le hmono hf.maxFinite_odd
    rw [hsucc] at hmid
    rw [← hmid]
    omega
  · have hgap : f.magnitudeValue f.maxFinite < f.magnitudeValue f.infinity := hmono (by omega)
    rw [f.encodeRatio_of_ge .nearestEven negative hnum hden hover]
    rw [← hf.magnitudeValue_infinity] at hover
    exact iff_of_true rfl (by linarith)

end

/-! ## Places among the values -/

theorem gridValue_neg (f : Format) (n : ℤ) : f.gridValue (-n) = -f.gridValue n := by
  rcases le_total 0 n with h | h
  · rw [f.gridValue_of_nonneg h, f.gridValue_of_nonpos (by omega : -n ≤ 0), neg_neg]
  · rw [f.gridValue_of_nonpos h, f.gridValue_of_nonneg (by omega : 0 ≤ -n), neg_neg]

theorem abs_gridValue (f : Format) (n : ℤ) : |f.gridValue n| = f.magnitudeValue n.natAbs := by
  have hnonneg := f.magnitudeValue_nonneg n.natAbs
  unfold gridValue
  split
  · rw [abs_neg, abs_of_nonneg hnonneg]
  · rw [abs_of_nonneg hnonneg]

/-- The finite values of a format are the numbers at its finite places. -/
theorem coe_mem_values_iff (hf : f.IsBinary) (p : ℚ) :
    ((p : ℚ) : Extended) ∈ f.values ↔ ∃ n : ℤ, n.natAbs < f.infinity ∧ f.gridValue n = p := by
  rw [mem_values_iff hf]
  constructor
  · rintro ⟨n, ⟨hlow, hhigh⟩, hv⟩
    unfold valueAt at hv
    split at hv
    · exact absurd hv (Extended.coe_lt_top p).ne'
    · split at hv
      · exact absurd hv (Extended.bot_lt_coe p).ne
      · exact ⟨n, by omega, Extended.coe_strictMono.injective hv⟩
  · rintro ⟨n, hn, rfl⟩
    refine ⟨n, ⟨by omega, by omega⟩, ?_⟩
    rw [valueAt, if_neg (show ¬ (f.infinity : ℤ) ≤ n by omega),
      if_neg (show ¬ n ≤ -(f.infinity : ℤ) by omega)]

theorem coe_magnitudeValue_mem_values (hf : f.IsBinary) {m : ℕ} (hm : m < f.infinity) :
    ((f.magnitudeValue m : ℚ) : Extended) ∈ f.values := by
  refine (coe_mem_values_iff hf _).2 ⟨m, by simpa using hm, ?_⟩
  rw [f.gridValue_of_nonneg (Int.natCast_nonneg m), Int.toNat_natCast]

theorem coe_le_valueAt_iff (hf : f.IsBinary) (q : ℚ) (n : ℤ) :
    ((q : ℚ) : Extended) ≤ f.valueAt n ↔
      (f.infinity : ℤ) ≤ n ∨ (-(f.infinity : ℤ) < n ∧ q ≤ f.gridValue n) := by
  have hpos := hf.infinity_pos
  unfold valueAt
  split
  case isTrue h => exact iff_of_true le_top (.inl h)
  case isFalse h =>
    split
    case isTrue h' => exact iff_of_false (Extended.bot_lt_coe q).not_ge (by omega)
    case isFalse h' =>
      rw [Extended.coe_strictMono.le_iff_le, or_iff_right h, and_iff_right (not_le.1 h')]

theorem valueAt_le_coe_iff (hf : f.IsBinary) (q : ℚ) (n : ℤ) :
    f.valueAt n ≤ ((q : ℚ) : Extended) ↔
      n ≤ -(f.infinity : ℤ) ∨ (n < f.infinity ∧ f.gridValue n ≤ q) := by
  have hpos := hf.infinity_pos
  unfold valueAt
  split
  case isTrue h => exact iff_of_false (Extended.coe_lt_top q).not_ge (by omega)
  case isFalse h =>
    split
    case isTrue h' => exact iff_of_true bot_le (.inl h')
    case isFalse h' =>
      rw [Extended.coe_strictMono.le_iff_le, or_iff_right h', and_iff_right (not_le.1 h)]

/-- Changing all signs turns the values around. -/
theorem valueAt_le_neg_iff (hf : f.IsBinary) (q : ℚ) (n : ℤ) :
    f.valueAt n ≤ ((-q : ℚ) : Extended) ↔ ((q : ℚ) : Extended) ≤ f.valueAt (-n) := by
  rw [valueAt_le_coe_iff hf, coe_le_valueAt_iff hf, gridValue_neg, le_neg (b := q)]
  exact or_congr (by omega) (and_congr_left' (by omega))

theorem neg_le_valueAt_iff (hf : f.IsBinary) (q : ℚ) (n : ℤ) :
    ((-q : ℚ) : Extended) ≤ f.valueAt n ↔ f.valueAt (-n) ≤ ((q : ℚ) : Extended) := by
  rw [valueAt_le_coe_iff hf, coe_le_valueAt_iff hf, gridValue_neg, neg_le (a := q)]
  exact or_congr (by omega) (and_congr_left' (by omega))

/-- A place that is below exactly the places above a bound holds the least value above it. -/
theorem isLeast_valueAt (hf : f.IsBinary) {v : Extended} {k : ℤ}
    (hk : k ∈ Set.Icc (-f.infinity : ℤ) f.infinity)
    (h : ∀ n ∈ Set.Icc (-f.infinity : ℤ) f.infinity, v ≤ f.valueAt n ↔ k ≤ n) :
    IsLeast { u ∈ f.values | v ≤ u } (f.valueAt k) := by
  refine ⟨⟨(mem_values_iff hf _).2 ⟨k, hk, rfl⟩, (h k hk).2 le_rfl⟩, ?_⟩
  rintro u ⟨hu, hvu⟩
  obtain ⟨n, hn, rfl⟩ := (mem_values_iff hf u).1 hu
  exact (valueAt_strictMonoOn hf).monotoneOn hk hn ((h n hn).1 hvu)

/-- A place that is above exactly the places below a bound holds the greatest value below it. -/
theorem isGreatest_valueAt (hf : f.IsBinary) {v : Extended} {k : ℤ}
    (hk : k ∈ Set.Icc (-f.infinity : ℤ) f.infinity)
    (h : ∀ n ∈ Set.Icc (-f.infinity : ℤ) f.infinity, f.valueAt n ≤ v ↔ n ≤ k) :
    IsGreatest { u ∈ f.values | u ≤ v } (f.valueAt k) := by
  refine ⟨⟨(mem_values_iff hf _).2 ⟨k, hk, rfl⟩, (h k hk).2 le_rfl⟩, ?_⟩
  rintro u ⟨hu, huv⟩
  obtain ⟨n, hn, rfl⟩ := (mem_values_iff hf u).1 hu
  exact (valueAt_strictMonoOn hf).monotoneOn hn hk ((h n hn).1 huv)

end Format

/-! ## The rounding of a number -/

namespace Scalar

variable {f : Format}

/-- No finite value is closer to `v`, and if another one is as close the encoding is even. -/
def IsNearestEven (v : ℚ) (r : Scalar f) : Prop :=
  (r.isInfinite = true ↔ f.overflowThreshold ≤ |v|) ∧
    (r.isInfinite = false → ∃ q : ℚ, r.value? = some ((q : ℚ) : Extended) ∧
      ∀ p : ℚ, ((p : ℚ) : Extended) ∈ f.values →
        |v - q| ≤ |v - p| ∧ (|v - p| = |v - q| → p ≠ q → r.packed % 2 = 0))

/-- The finite value of largest magnitude that does not exceed the magnitude of `v`. -/
def IsTruncation (v : ℚ) (r : Scalar f) : Prop :=
  ∃ q : ℚ, r.value? = some ((q : ℚ) : Extended) ∧ |q| ≤ |v| ∧
    ∀ p : ℚ, ((p : ℚ) : Extended) ∈ f.values → |p| ≤ |v| → |p| ≤ |q|

/-- `r` is the rounding of the nonzero number `v` into its format. -/
structure IsRounding (mode : RoundingMode) (v : ℚ) (r : Scalar f) : Prop where
  isNegative_eq : r.isNegative = decide (v < 0)
  isNaN_eq : r.isNaN = false
  value_spec :
    match mode with
    | .nearestEven => r.IsNearestEven v
    | .towardZero => r.IsTruncation v
    | .upward => ∃ w, r.value? = some w ∧ IsLeast { u ∈ f.values | ((v : ℚ) : Extended) ≤ u } w
    | .downward => ∃ w, r.value? = some w ∧ IsGreatest { u ∈ f.values | u ≤ ((v : ℚ) : Extended) } w

section

variable {mode : RoundingMode} {negative : Bool} {num den : ℕ} {exponent : ℤ}

/-- Raising modes on the signed places of a positive number. -/
private theorem coe_le_valueAt_iff_of_directedUp (hf : f.IsBinary)
    (hmode : mode.directedUp negative = true) (hnum : 0 < num) (hden : 0 < den) {n : ℤ}
    (hn : n ≤ f.infinity) :
    (((num : ℚ) / den * 2 ^ exponent : ℚ) : Extended) ≤ f.valueAt n ↔
      (f.encodeRatio mode negative num den exponent : ℤ) ≤ n := by
  have hpos : (0 : ℚ) < (num : ℚ) / den * 2 ^ exponent := by positivity
  have hinf := hf.infinity_pos
  rw [Format.coe_le_valueAt_iff hf]
  rcases le_or_gt 0 n with h | h
  · obtain ⟨j, rfl⟩ := Int.eq_ofNat_of_zero_le h
    have hiff : f.encodeRatio mode negative num den exponent ≤ j ↔ _ :=
      Format.encodeRatio_le_iff hf hmode hnum hden (by omega)
    rw [f.gridValue_of_nonneg h, Int.toNat_natCast, Int.ofNat_le.trans hiff]
    exact or_congr (by omega) (and_iff_right (by omega))
  · -- below zero there is nothing above a positive number
    have hneg : f.gridValue n < 0 := by simpa using f.gridValue_strictMono h
    refine iff_of_false ?_ (by omega)
    rintro (hge | ⟨-, hv⟩)
    · omega
    · linarith

/-- Lowering modes on the signed places of a positive number. -/
private theorem valueAt_le_coe_iff_of_not_directedUp (hf : f.IsBinary) (hne : mode ≠ .nearestEven)
    (hmode : mode.directedUp negative = false) (hnum : 0 < num) (hden : 0 < den) (n : ℤ) :
    f.valueAt n ≤ (((num : ℚ) / den * 2 ^ exponent : ℚ) : Extended) ↔
      n ≤ (f.encodeRatio mode negative num den exponent : ℤ) := by
  have hpos : (0 : ℚ) < (num : ℚ) / den * 2 ^ exponent := by positivity
  have hinf := hf.infinity_pos
  rw [Format.valueAt_le_coe_iff hf]
  rcases le_or_gt 0 n with h | h
  · obtain ⟨j, rfl⟩ := Int.eq_ofNat_of_zero_le h
    have hiff : j ≤ f.encodeRatio mode negative num den exponent ↔ _ :=
      Format.le_encodeRatio_iff hf hne hmode hnum hden j
    rw [f.gridValue_of_nonneg h, Int.toNat_natCast, Int.ofNat_le.trans hiff, Int.ofNat_lt]
    exact or_iff_right (by omega)
  · -- below zero everything is below a positive number
    have hneg : f.gridValue n < 0 := by simpa using f.gridValue_strictMono h
    exact iff_of_true (.inr ⟨by omega, by linarith⟩) (by omega)

/-- Rounding a positive number to nearest, against all signed places. -/
private theorem abs_sub_magnitudeValue_le (negative : Bool) (hf : f.IsBinary) (hnum : 0 < num)
    (hden : 0 < den) {m : ℕ} (hm : f.encodeRatio .nearestEven negative num den exponent = m)
    (hfinite : m < f.infinity) (n : ℤ) :
    |(num : ℚ) / den * 2 ^ exponent - f.magnitudeValue m| ≤
        |(num : ℚ) / den * 2 ^ exponent - f.gridValue n| ∧
      (|(num : ℚ) / den * 2 ^ exponent - f.gridValue n| =
          |(num : ℚ) / den * 2 ^ exponent - f.magnitudeValue m| →
        f.gridValue n ≠ f.magnitudeValue m → m % 2 = 0) := by
  have hmono := f.magnitudeValue_strictMono
  have hpos : (0 : ℚ) < (num : ℚ) / den * 2 ^ exponent := by positivity
  have hrange : (num : ℚ) / den * 2 ^ exponent < 2 ^ (f.maxExponent + 1) := by
    by_contra! hover
    rw [f.encodeRatio_of_ge .nearestEven negative hnum hden hover] at hm
    exact hfinite.ne hm.symm
  have hsel := Format.encodeRatio_selects hf .nearestEven negative hnum hden hrange
  rw [hm] at hsel
  generalize (num : ℚ) / den * 2 ^ exponent = v at *
  rcases le_or_gt 0 n with h | h
  · obtain ⟨j, rfl⟩ := Int.eq_ofNat_of_zero_le h
    rw [f.gridValue_of_nonneg h, Int.toNat_natCast]
    refine ⟨hsel.nearest hmono j, fun htie hne => hsel.tie_even hmono htie ?_⟩
    rintro rfl
    exact hne rfl
  · -- a negative place is further away than zero
    have hneg : f.gridValue n < 0 := by simpa using f.gridValue_strictMono h
    have hzero := hsel.nearest hmono 0
    rw [f.magnitudeValue_zero, sub_zero, abs_of_pos hpos] at hzero
    have hfar : v < |v - f.gridValue n| := by rw [abs_of_pos] <;> linarith
    exact ⟨(hzero.trans_lt hfar).le, fun htie => absurd htie (by linarith)⟩

private theorem abs_sign_mul (negative : Bool) (a : ℚ) :
    |(if negative then -1 else 1) * a| = |a| := by
  cases negative <;> simp

private theorem abs_sign_mul_sub (negative : Bool) (a b : ℚ) :
    |(if negative then -1 else 1) * a - (if negative then -1 else 1) * b| = |a - b| := by
  rw [← mul_sub, abs_sign_mul]

theorem value?_ofParts (negative : Bool) {m : ℕ} (hm : m < f.infinity) :
    (ofParts f negative m).value? =
      some (((if negative then -1 else 1) * f.magnitudeValue m : ℚ) : Extended) := by
  have hlt := hm.trans f.infinity_lt_signMask
  have hmag := magnitude_ofParts (f := f) negative hlt
  rw [value?_of_finite (hmag.trans_lt hm), gridValue_ordinal, hmag, isNegative_ofParts negative hlt]

theorem value?_ofParts_zero (hf : f.IsBinary) (negative : Bool) :
    (ofParts f negative 0).value? = some ((0 : ℚ) : Extended) := by
  rw [value?_ofParts negative hf.infinity_pos, f.magnitudeValue_zero, mul_zero]

private theorem isNearestEven_ofParts (hf : f.IsBinary) (negative : Bool) (hnum : 0 < num)
    (hden : 0 < den) (exponent : ℤ) :
    IsNearestEven ((if negative then -1 else 1) * ((num : ℚ) / den * 2 ^ exponent))
      (ofParts f negative (f.encodeRatio .nearestEven negative num den exponent)) := by
  have hle := f.encodeRatio_le_infinity hf .nearestEven negative num hden exponent
  have hlt := hle.trans_lt f.infinity_lt_signMask
  have hpos : (0 : ℚ) < (num : ℚ) / den * 2 ^ exponent := by positivity
  have hinf := isInfinite_ofParts_iff negative hle
  constructor
  · rw [hinf, abs_sign_mul, abs_of_pos hpos]
    exact Format.encodeRatio_eq_infinity_iff hf hnum hden
  · intro hfinite
    rw [← Bool.not_eq_true, hinf] at hfinite
    have hm := lt_of_le_of_ne hle hfinite
    refine ⟨_, value?_ofParts negative hm, fun p hp => ?_⟩
    obtain ⟨n, -, rfl⟩ := (Format.coe_mem_values_iff hf p).1 hp
    -- compare on the positive side, where the number and its encoding lie
    obtain ⟨k, hk⟩ : ∃ k, f.gridValue n = (if negative then -1 else 1) * f.gridValue k := by
      cases negative with
      | false => exact ⟨n, by simp⟩
      | true => exact ⟨-n, by simp [f.gridValue_neg]⟩
    obtain ⟨hnear, heven⟩ := abs_sub_magnitudeValue_le negative hf hnum hden rfl hm k
    rw [hk, abs_sign_mul_sub, abs_sign_mul_sub]
    refine ⟨hnear, fun htie hne => ?_⟩
    rw [packed_ofParts_mod_two hf negative hlt]
    exact heven htie fun heq => hne (by rw [heq])

private theorem isTruncation_ofParts (hf : f.IsBinary) (negative : Bool) (hnum : 0 < num)
    (hden : 0 < den) (exponent : ℤ) :
    IsTruncation ((if negative then -1 else 1) * ((num : ℚ) / den * 2 ^ exponent))
      (ofParts f negative (f.encodeRatio .towardZero negative num den exponent)) := by
  have hpos : (0 : ℚ) < (num : ℚ) / den * 2 ^ exponent := by positivity
  have hiff (j : ℕ) : j ≤ f.encodeRatio .towardZero negative num den exponent ↔ _ :=
    Format.le_encodeRatio_iff hf (by simp) rfl hnum hden j
  obtain ⟨hm, hv⟩ := (hiff _).1 le_rfl
  refine ⟨_, value?_ofParts negative hm, ?_⟩
  rw [abs_sign_mul, abs_sign_mul, abs_of_pos hpos, abs_of_nonneg (f.magnitudeValue_nonneg _)]
  refine ⟨hv, fun p hp hpv => ?_⟩
  obtain ⟨n, hn, rfl⟩ := (Format.coe_mem_values_iff hf p).1 hp
  rw [f.abs_gridValue] at hpv ⊢
  exact f.magnitudeValue_strictMono.monotone ((hiff _).2 ⟨hn, hpv⟩)

end

/-- The encoding of a positive ratio, with either sign, is the rounding of its value. -/
theorem isRounding_ofParts (hf : f.IsBinary) (mode : RoundingMode) (negative : Bool) {num den : ℕ}
    (hnum : 0 < num) (hden : 0 < den) (exponent : ℤ) :
    IsRounding mode ((if negative then -1 else 1) * ((num : ℚ) / den * 2 ^ exponent))
      (ofParts f negative (f.encodeRatio mode negative num den exponent)) := by
  have hle := f.encodeRatio_le_infinity hf mode negative num hden exponent
  have hlt := hle.trans_lt f.infinity_lt_signMask
  have hpos : (0 : ℚ) < (num : ℚ) / den * 2 ^ exponent := by positivity
  set m := f.encodeRatio mode negative num den exponent with hm
  have hsign := isNegative_ofParts (f := f) negative hlt
  obtain ⟨hnan, hord⟩ := ordinal_ofParts negative hle
  have hvalue := value?_of_not_isNaN hf hnan
  have hmem := ordinal_mem hnan
  rw [hord] at hvalue hmem
  refine ⟨?_, hnan, ?_⟩
  · rw [hsign]
    cases negative <;> simp [hpos, hpos.le]
  · cases mode with
    | nearestEven => exact isNearestEven_ofParts hf negative hnum hden exponent
    | towardZero => exact isTruncation_ofParts hf negative hnum hden exponent
    | upward =>
      refine ⟨_, hvalue, Format.isLeast_valueAt hf hmem fun n hn => ?_⟩
      cases negative with
      | false =>
        rw [if_neg (by simp), if_neg (by simp), one_mul]
        exact coe_le_valueAt_iff_of_directedUp hf rfl hnum hden hn.2
      | true =>
        -- upward on a negative number lowers the magnitude
        rw [if_pos rfl, if_pos rfl, neg_one_mul, Format.neg_le_valueAt_iff hf, neg_le]
        exact valueAt_le_coe_iff_of_not_directedUp hf (by simp) rfl hnum hden (-n)
    | downward =>
      refine ⟨_, hvalue, Format.isGreatest_valueAt hf hmem fun n hn => ?_⟩
      cases negative with
      | false =>
        rw [if_neg (by simp), if_neg (by simp), one_mul]
        exact valueAt_le_coe_iff_of_not_directedUp hf (by simp) rfl hnum hden n
      | true =>
        -- downward on a negative number raises the magnitude
        rw [if_pos rfl, if_pos rfl, neg_one_mul, Format.valueAt_le_neg_iff hf, le_neg]
        exact coe_le_valueAt_iff_of_directedUp hf rfl hnum hden (by have := hn.1; omega)

end Scalar

end PrecisionAudit
