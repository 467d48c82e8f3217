import PrecisionAudit.Proofs.Rounding.Operations

/-!
# Square roots that are rounded twice

A square root is irrational as a rule, but rounding asks only on which side of a midpoint it lies, and that is
a question on the square of the midpoint. A rational number that lies on the same side of every midpoint
stands for the root; the integer root of a scaled significand does, with half a unit for what is missing.

No square root of a number of a format is so near a midpoint of it that a format with room for two
significands and two bits more would mislead: in units of half a step the midpoint is an integer, and the
number itself, counted in the square of the unit, is an integer less than one away from its square.

## Main results

- `Format.standsForRoot_natSqrt`: the integer root with a sticky bit stands for the square root.
- `Format.FitsTwice.not_misleads_root`: square roots may be rounded twice.
-/

namespace PrecisionAudit

namespace Format

variable {f g : Format} {a w : ℚ} {i j k n : ℕ} {e : ℤ}

/-! ## Standing for a square root -/

/-- The number `w` is on the same side of every midpoint as the square root of `a`. -/
structure StandsForRoot (f : Format) (w a : ℚ) : Prop where
  midpoint_lt_iff (j : ℕ) : f.midpoint j < w ↔ f.midpoint j ^ 2 < a
  midpoint_eq_iff (j : ℕ) : f.midpoint j = w ↔ f.midpoint j ^ 2 = a

namespace StandsForRoot

theorem midpoint_le_iff (h : f.StandsForRoot w a) (j : ℕ) : f.midpoint j ≤ w ↔ f.midpoint j ^ 2 ≤ a := by
  rw [le_iff_lt_or_eq, le_iff_lt_or_eq, h.midpoint_lt_iff, h.midpoint_eq_iff]

theorem le_midpoint_iff (h : f.StandsForRoot w a) (j : ℕ) : w ≤ f.midpoint j ↔ a ≤ f.midpoint j ^ 2 := by
  rw [← not_lt, h.midpoint_lt_iff, not_lt]

/-- What is nearest to `w` is not farther from the root than a smaller magnitude, and even if it is as far. -/
theorem sq_middle_le (h : f.StandsForRoot w a) (hf : f.IsBinary) (hw : 0 ≤ w) (hk : k < f.nearest w) :
    ((f.magnitudeValue k + f.magnitudeValue (f.nearest w)) / 2) ^ 2 ≤ a ∧
      (((f.magnitudeValue k + f.magnitudeValue (f.nearest w)) / 2) ^ 2 = a → f.nearest w % 2 = 0) := by
  have hinfinity := nearest_le_infinity hf w
  have hiff (j : ℕ) (hj : j < f.infinity) := lt_nearest_iff hf w hj
  rw [abs_of_nonneg hw] at hiff
  obtain ⟨m, hm⟩ : ∃ m, f.nearest w = m + 1 := Nat.exists_eq_succ_of_ne_zero (Nat.ne_zero_of_lt hk)
  have hbelow := midpoint_le_of_lt_nearest hf (v := w) (j := m) (by omega)
  rw [abs_of_nonneg hw, h.midpoint_le_iff] at hbelow
  have hmiddle : (f.magnitudeValue k + f.magnitudeValue (f.nearest w)) / 2 ≤ f.midpoint m := by
    rw [hm]
    exact middle_le_midpoint (by omega)
  have hnonneg : 0 ≤ (f.magnitudeValue k + f.magnitudeValue (f.nearest w)) / 2 :=
    div_nonneg (add_nonneg (f.magnitudeValue_nonneg _) (f.magnitudeValue_nonneg _)) (by norm_num)
  have hsquare := pow_le_pow_left₀ hnonneg hmiddle 2
  refine ⟨hsquare.trans hbelow, fun htie => ?_⟩
  -- a tie leaves no room between the middle and the midpoint, and went up from an odd magnitude
  have heq : f.midpoint m = w := (h.midpoint_eq_iff m).2 (le_antisymm hbelow (htie.symm.trans_le hsquare))
  rcases (hiff m (by omega)).1 (by omega) with hlt | ⟨-, hodd⟩
  · exact absurd heq hlt.ne
  · omega

/-- Nor is it farther than a larger magnitude. -/
theorem le_sq_middle (h : f.StandsForRoot w a) (hf : f.IsBinary) (hw : 0 ≤ w)
    (hfinite : f.nearest w < f.infinity) (hk : f.nearest w < k) :
    a ≤ ((f.magnitudeValue k + f.magnitudeValue (f.nearest w)) / 2) ^ 2 ∧
      (((f.magnitudeValue k + f.magnitudeValue (f.nearest w)) / 2) ^ 2 = a → f.nearest w % 2 = 0) := by
  have hiff := lt_nearest_iff hf w hfinite
  have habove := le_midpoint_nearest hf hfinite
  rw [abs_of_nonneg hw] at hiff habove
  rw [h.le_midpoint_iff] at habove
  have hsquare := pow_le_pow_left₀ (f.midpoint_pos _).le (midpoint_le_middle hk) 2
  refine ⟨habove.trans hsquare, fun htie => ?_⟩
  have heq := (h.midpoint_eq_iff _).2 (le_antisymm (hsquare.trans htie.le) habove)
  -- otherwise the tie would have gone up
  by_contra hodd
  exact lt_irrefl _ (hiff.2 (.inr ⟨heq, by omega⟩))

end StandsForRoot

/-- In a given unit a midpoint is an integer, or it is below the longest significand. -/
theorem midpoint_eq_natCast_mul_or_lt (f : Format) (j : ℕ) (e : ℤ) :
    (∃ m : ℕ, f.midpoint j = m * 2 ^ e) ∨ f.midpoint j < 4 * f.mantissaSpan * 2 ^ e := by
  obtain ⟨n, hn, p, -, -, -, hmid, -⟩ := f.exists_midpoint_eq j
  rcases le_or_gt e p with hep | hpe
  · left
    obtain ⟨m, hm⟩ := exists_nat_mul_zpow_of_le hep (2 * n + 1)
    exact ⟨m, by rw [hmid, ← hm]; push_cast; rfl⟩
  · right
    have hcount : (2 * n + 1 : ℚ) < 4 * f.mantissaSpan := by exact_mod_cast (by omega)
    rw [hmid]
    exact mul_lt_mul hcount (zpow_le_zpow_right₀ (by norm_num) hpe.le) (by positivity) (by positivity)

/-- Twice the integer root, with one added where there is a rest, compares with even numbers as the root
does with their halves. -/
private theorem two_mul_sticky_iff (n m : ℕ) :
    (2 * m < 2 * n.sqrt + (if n.sqrt * n.sqrt = n then 0 else 1) ↔ m ^ 2 < n) ∧
      (2 * m = 2 * n.sqrt + (if n.sqrt * n.sqrt = n then 0 else 1) ↔ m ^ 2 = n) := by
  have hle : m ≤ n.sqrt ↔ m ^ 2 ≤ n := Nat.le_sqrt'
  have hroot : m ^ 2 = n → m = n.sqrt := by
    rintro rfl
    rw [Nat.sqrt_eq']
  split
  case isTrue hsquare =>
    have heq : m ^ 2 = n ↔ m = n.sqrt := ⟨hroot, by rintro rfl; rw [sq, hsquare]⟩
    constructor <;> omega
  case isFalse hrest =>
    have hne : m ^ 2 ≠ n := by
      intro hsq
      apply hrest
      rw [← hroot hsq, ← sq, hsq]
    constructor <;> omega

/-- The integer root of a long significand, with half a unit for what is missing, stands for the square
root of the number. -/
theorem standsForRoot_natSqrt (hn : 4 * f.mantissaSpan ≤ n.sqrt) (e : ℤ) :
    f.StandsForRoot ((2 * n.sqrt + (if n.sqrt * n.sqrt = n then 0 else 1) : ℕ) * 2 ^ (e - 1))
      (n * 2 ^ (2 * e)) := by
  have hsticky := two_mul_sticky_iff n
  have hlower : 2 * n.sqrt ≤ 2 * n.sqrt + (if n.sqrt * n.sqrt = n then 0 else 1) := Nat.le_add_right _ _
  generalize 2 * n.sqrt + (if n.sqrt * n.sqrt = n then 0 else 1) = r at *
  have hsquare : (2 : ℚ) ^ (2 * e) = (2 ^ e) ^ 2 := by rw [mul_comm, zpow_mul, zpow_ofNat]
  have hdouble : (2 : ℚ) ^ e = 2 * 2 ^ (e - 1) := by
    rw [← zpow_one_add₀ (by norm_num)]
    congr 1
    ring
  suffices hiff : ∀ j, (f.midpoint j < r * 2 ^ (e - 1) ↔ f.midpoint j ^ 2 < n * 2 ^ (2 * e)) ∧
      (f.midpoint j = r * 2 ^ (e - 1) ↔ f.midpoint j ^ 2 = n * 2 ^ (2 * e)) from
    ⟨fun j => (hiff j).1, fun j => (hiff j).2⟩
  intro j
  rcases f.midpoint_eq_natCast_mul_or_lt j e with ⟨m, hm⟩ | hsmall
  · -- in half units and in square units both comparisons are between integers
    have hroot : f.midpoint j = (2 * m : ℕ) * 2 ^ (e - 1) := by
      rw [hm, hdouble]
      push_cast
      ring
    have hsq : f.midpoint j ^ 2 = (m ^ 2 : ℕ) * 2 ^ (2 * e) := by
      rw [hm, mul_pow, hsquare, Nat.cast_pow]
    have hpos : (0 : ℚ) < 2 ^ (e - 1) := by positivity
    have hpos' : (0 : ℚ) < 2 ^ (2 * e) := by positivity
    rw [hsq, hroot, mul_lt_mul_iff_of_pos_right hpos, mul_lt_mul_iff_of_pos_right hpos',
      mul_left_inj' hpos.ne', mul_left_inj' hpos'.ne', Nat.cast_lt, Nat.cast_lt, Nat.cast_inj, Nat.cast_inj]
    exact hsticky m
  · -- a midpoint that is no integer is below the root, and has a smaller square
    have hbelow : f.midpoint j < n.sqrt * 2 ^ e := by
      refine hsmall.trans_le (mul_le_mul_of_nonneg_right ?_ (by positivity))
      exact_mod_cast hn
    have hroot : f.midpoint j < r * 2 ^ (e - 1) := by
      refine hbelow.trans_le ?_
      rw [hdouble, ← mul_assoc, mul_comm _ (2 : ℚ)]
      exact mul_le_mul_of_nonneg_right (by exact_mod_cast hlower) (by positivity)
    have hsq : f.midpoint j ^ 2 < n * 2 ^ (2 * e) := by
      calc f.midpoint j ^ 2 < (n.sqrt * 2 ^ e) ^ 2 := pow_lt_pow_left₀ hbelow (f.midpoint_pos j).le two_ne_zero
        _ = (n.sqrt ^ 2 : ℕ) * 2 ^ (2 * e) := by rw [mul_pow, hsquare, Nat.cast_pow]
        _ ≤ n * 2 ^ (2 * e) := by
          gcongr
          exact Nat.sqrt_le' n
    exact ⟨iff_of_true hroot hsq, iff_of_false hroot.ne hsq.ne⟩

/-! ## Around a midpoint -/

section

variable (h : f.FitsTwice g) (hf : f.IsBinary) (hg : g.IsBinary)

include h hf hg

omit hf in
/-- What is counted in a small part of a half step, and is not too long, is a number of the finer format. -/
theorem FitsTwice.exists_magnitudeValue_eq_fine (he : f.minExponent - f.mantissaBits - 1 ≤ e)
    (hn : n < 16 * (f.mantissaSpan * f.mantissaSpan))
    (hrange : (n : ℚ) * 2 ^ (e - f.mantissaBits - 2) < 2 ^ (g.maxExponent + 1)) :
    ∃ m, g.magnitudeValue m = n * 2 ^ (e - f.mantissaBits - 2) := by
  have hspan := h.mantissaSpan_le
  have hleast : g.minExponent - g.mantissaBits ≤ e - f.mantissaBits - 2 := by
    have hbits := h.two_mul_le
    have hbias := h.bias_le
    unfold minExponent at *
    omega
  obtain ⟨m, -, hm⟩ := hg.exists_magnitudeValue_eq (n := n) (by omega) hleast hrange
  exact ⟨m, hm⟩

/-- Next to a midpoint of the coarser format, the steps of the finer one are short. -/
theorem FitsTwice.midpoint_near (hj : j < f.infinity) (hn : n < 2 * f.mantissaSpan)
    (he : f.minExponent - f.mantissaBits - 1 ≤ e) (hmid : f.midpoint j = (2 * n + 1) * 2 ^ e)
    (hnext : f.magnitudeValue (j + 1) = (2 * n + 2) * 2 ^ e)
    (hk : g.magnitudeValue (k + 1) = f.midpoint j) :
    (2 * n + 1 - 1 / (8 * f.mantissaSpan)) * 2 ^ e ≤ g.midpoint k ∧
      g.midpoint (k + 1) ≤ (2 * n + 1 + 1 / (8 * f.mantissaSpan)) * 2 ^ e := by
  have hone := f.mantissaSpan_pos
  have hunit : (2 : ℚ) ^ e = 4 * f.mantissaSpan * 2 ^ (e - f.mantissaBits - 2) := by
    rw [mantissaSpan_eq_zpow, show (4 : ℚ) = 2 ^ (2 : ℤ) by norm_num, ← zpow_add₀ (by norm_num),
      ← zpow_add₀ (by norm_num)]
    congr 1
    ring
  have hmax := hf.magnitudeValue_le_of_bias_le h.bias_le hj
  rw [Nat.succ_eq_add_one, hnext] at hmax
  have hgrid (t : ℕ) (ht : t < 16 * (f.mantissaSpan * f.mantissaSpan))
      (hrange : (t : ℚ) * 2 ^ (e - f.mantissaBits - 2) < (2 * n + 2) * 2 ^ e) :=
    h.exists_magnitudeValue_eq_fine hg he ht (hrange.trans_le hmax)
  have hdpos : (0 : ℚ) < 2 ^ (e - f.mantissaBits - 2) := by positivity
  generalize (2 : ℚ) ^ (e - f.mantissaBits - 2) = d at *
  have hspos : (1 : ℚ) ≤ f.mantissaSpan := by exact_mod_cast hone
  have hhalf : (1 / (8 * f.mantissaSpan) : ℚ) * (4 * f.mantissaSpan * d) = d / 2 := by
    field_simp
    norm_num
  -- the midpoint is `c + 1` small units, and one unit less and one unit more are numbers too
  obtain ⟨c, hc⟩ : ∃ c, (2 * n + 1) * (4 * f.mantissaSpan) = c + 1 :=
    Nat.exists_eq_succ_of_ne_zero (by positivity)
  have hcast : (2 * n + 1) * (4 * f.mantissaSpan) = (c + 1 : ℚ) := by exact_mod_cast hc
  have hlong : (2 * n + 1) * (4 * f.mantissaSpan) + 1 < 16 * (f.mantissaSpan * f.mantissaSpan) := by
    nlinarith
  have hcenter : g.magnitudeValue (k + 1) = (c + 1) * d := by
    rw [hk, hmid, hunit, ← mul_assoc, hcast]
  have hrange : (c + 2) * d < (2 * n + 2) * (4 * f.mantissaSpan * d) := by
    have hsplit : (2 * n + 2) * (4 * f.mantissaSpan * d) = (c + 1) * d + 4 * f.mantissaSpan * d := by
      rw [← hcast]
      ring
    have hlarge : d ≤ f.mantissaSpan * d := le_mul_of_one_le_left hdpos.le hspos
    linarith
  rw [hunit] at hgrid ⊢
  rw [sub_mul, add_mul _ (1 / _), hhalf, ← mul_assoc, hcast]
  constructor
  · obtain ⟨m, hm⟩ := hgrid c (by omega) (by linarith)
    have hmk : m < k + 1 := by
      rw [← g.magnitudeValue_strictMono.lt_iff_lt, hm, hcenter]
      linarith
    have hle := middle_le_midpoint (f := g) (Nat.le_of_lt_succ hmk)
    rw [hm, hcenter] at hle
    linarith
  · obtain ⟨m, hm⟩ := hgrid (c + 2) (by omega) (by exact_mod_cast hrange)
    push_cast at hm
    have hmk : k + 1 < m := by
      rw [← g.magnitudeValue_strictMono.lt_iff_lt, hm, hcenter]
      linarith
    have hle := midpoint_le_middle (f := g) hmk
    rw [hm, hcenter] at hle
    linarith

end

/-- An integer between squares that are less than one away from a square is that square. -/
theorem eq_sq_of_near {b c : ℕ} {t : ℚ} (hnarrow : 2 * c * t + t ^ 2 < 1) (hbelow : (c - t) ^ 2 ≤ b)
    (habove : (b : ℚ) ≤ (c + t) ^ 2) : b = c ^ 2 := by
  have hclose : |(b : ℚ) - c ^ 2| < 1 := by
    rw [abs_lt]
    constructor <;> nlinarith
  have hint : |(b : ℤ) - c ^ 2| < 1 := by exact_mod_cast hclose
  exact_mod_cast sub_eq_zero.1 (Int.abs_lt_one_iff.1 hint)

/-- A number of the format near the square of a long odd number of half steps is that square: with a unit
below the square of the half step it would be too small, and otherwise it is an integer in that unit. -/
theorem eq_sq_of_near_midpoint {s b n : ℕ} {p e : ℤ} (hs : 0 < s) (hb : b < 2 * s) (hlow : s ≤ n)
    (hn : n < 2 * s) (hbelow : ((2 * n + 1 - 1 / (8 * s)) * 2 ^ e : ℚ) ^ 2 ≤ b * 2 ^ p)
    (habove : (b * 2 ^ p : ℚ) ≤ ((2 * n + 1 + 1 / (8 * s)) * 2 ^ e) ^ 2) :
    ((2 * n + 1) * 2 ^ e : ℚ) ^ 2 = b * 2 ^ p := by
  have hsq : ((2 : ℚ) ^ e) ^ 2 = 2 ^ (2 * e) := by rw [mul_comm, zpow_mul, zpow_ofNat]
  have hpos : (0 : ℚ) < 2 ^ (2 * e) := by positivity
  have hone : (1 : ℚ) ≤ s := by exact_mod_cast hs
  have hlow' : (s : ℚ) ≤ n := by exact_mod_cast hlow
  have hn' : (n + 1 : ℚ) ≤ 2 * s := by exact_mod_cast hn
  -- all that is used of the distance is that eight times the span of it is one
  have ht : 8 * s * (1 / (8 * s) : ℚ) = 1 := mul_one_div_cancel (by positivity)
  have htpos : (0 : ℚ) < 1 / (8 * s) := by positivity
  generalize (1 / (8 * s) : ℚ) = t at *
  rw [mul_pow, hsq] at hbelow habove ⊢
  rcases le_or_gt (2 * e) p with hle | hlt
  · -- counted in the square of the half step, both are integers
    obtain ⟨m, hscale⟩ := exists_nat_mul_zpow_of_le hle b
    have hcast : (2 * n + 1 : ℚ) = (2 * n + 1 : ℕ) := by push_cast; rfl
    rw [hscale, mul_le_mul_iff_of_pos_right hpos, hcast] at hbelow habove
    have hnarrow : 2 * (2 * n + 1 : ℕ) * t + t ^ 2 < 1 := by
      push_cast
      nlinarith
    rw [hscale, hcast, eq_sq_of_near hnarrow hbelow habove, Nat.cast_pow]
  · -- in a smaller unit a significand of the format does not reach the midpoint
    exfalso
    have hunit : (2 : ℚ) ^ p ≤ 2 ^ (2 * e - 1) := zpow_le_zpow_right₀ (by norm_num) (by omega)
    rw [zpow_sub_one₀ (by norm_num)] at hunit
    have hb' : (b : ℚ) < 2 * s := by exact_mod_cast hb
    have hsmall : (b * 2 ^ p : ℚ) < s * 2 ^ (2 * e) := by
      calc (b * 2 ^ p : ℚ) < 2 * s * 2 ^ p := by gcongr
        _ ≤ 2 * s * (2 ^ (2 * e) * 2⁻¹) := by gcongr
        _ = s * 2 ^ (2 * e) := by ring
    have hlarge : (s : ℚ) ≤ (2 * n + 1 - t) ^ 2 := by nlinarith
    have hscaled := mul_le_mul_of_nonneg_right hlarge hpos.le
    linarith

private theorem one_div_eight_mul_mantissaSpan_le_one (f : Format) : (1 / (8 * f.mantissaSpan) : ℚ) ≤ 1 := by
  have hone := NearMidpoint.one_le_mantissaSpan f
  rw [div_le_one₀ (by positivity)]
  linarith

/-- The midpoints between denormals are so small that their squares are below all numbers, if the format
has numbers whose roots are far above the denormals. -/
theorem sq_lt_of_denormal (hdeep : f.minExponent + f.mantissaBits < 0) (ha : a = f.magnitudeValue i)
    (hpos : 0 < a) (hn : n < f.mantissaSpan) (he : e = f.minExponent - f.mantissaBits - 1) :
    ((2 * n + 1 + 1 / (8 * f.mantissaSpan)) * 2 ^ e) ^ 2 < a := by
  obtain ⟨b, -, p, hp, -, hv, -⟩ := f.exists_magnitudeValue_eq_mul i
  have hunit : (2 : ℚ) ^ f.minExponent = 2 * f.mantissaSpan * 2 ^ e := by
    rw [mantissaSpan_eq_zpow, ← zpow_one_add₀ (by norm_num), ← zpow_add₀ (by norm_num), he]
    congr 1
    ring
  have hsmall : (2 * n + 1 + 1 / (8 * f.mantissaSpan)) * 2 ^ e ≤ (2 : ℚ) ^ f.minExponent := by
    have hcount : (n + 1 : ℚ) ≤ f.mantissaSpan := by exact_mod_cast hn
    rw [hunit]
    refine mul_le_mul_of_nonneg_right ?_ (by positivity)
    linarith [one_div_eight_mul_mantissaSpan_le_one f]
  have hb : (1 : ℚ) ≤ b := by
    rw [Nat.one_le_cast, Nat.one_le_iff_ne_zero]
    rintro rfl
    rw [ha, hv, Nat.cast_zero, zero_mul] at hpos
    exact hpos.false
  calc ((2 * n + 1 + 1 / (8 * f.mantissaSpan)) * 2 ^ e) ^ 2 ≤ ((2 : ℚ) ^ f.minExponent) ^ 2 :=
        pow_le_pow_left₀ (by positivity) hsmall 2
    _ = 2 ^ (f.minExponent * 2) := by rw [zpow_mul, zpow_ofNat]
    _ < 2 ^ (f.minExponent - f.mantissaBits) := zpow_lt_zpow_right₀ (by norm_num) (by omega)
    _ ≤ 2 ^ p := zpow_le_zpow_right₀ (by norm_num) hp
    _ ≤ b * 2 ^ p := le_mul_of_one_le_left (by positivity) hb
    _ = a := by rw [ha, hv]

/-- The square root of a number of a format may be rounded twice: a midpoint that the first rounding finds is
the root itself. -/
theorem FitsTwice.not_misleads_root (h : f.FitsTwice g) (hf : f.IsBinary) (hg : g.IsBinary)
    (hdeep : f.minExponent + f.mantissaBits < 0) (ha : a = f.magnitudeValue i) (hw : 0 ≤ w)
    (hfw : f.StandsForRoot w a) (hgw : g.StandsForRoot w a) : ¬ g.Misleads f w := by
  intro hmislead
  have hfinite := h.nearest_lt_infinity hf hg hmislead
  obtain ⟨j, hj, hk, hside⟩ := hmislead
  rw [abs_of_nonneg hw] at hside
  -- the midpoint that the first rounding finds is not zero, so there is a midpoint below it
  obtain ⟨k, hsucc⟩ : ∃ k, g.nearest w = k + 1 := by
    refine Nat.exists_eq_succ_of_ne_zero fun hzero => ?_
    rw [hzero, magnitudeValue_zero] at hk
    exact (f.midpoint_pos j).ne hk
  have hlower : g.midpoint k ≤ |w| := midpoint_le_of_lt_nearest hg (by omega)
  have hupper := le_midpoint_nearest hg hfinite
  rw [abs_of_nonneg hw, hgw.midpoint_le_iff] at hlower
  rw [abs_of_nonneg hw, hgw.le_midpoint_iff, hsucc] at hupper
  rw [hsucc] at hk
  -- so the number is within a small part of a half step of the square of the midpoint
  obtain ⟨n, hn, e, he, hshort, -, hmid, hnext⟩ := f.exists_midpoint_eq j
  obtain ⟨hbelow, habove⟩ := h.midpoint_near hf hg hj hn he hmid hnext hk
  have hhigh := hupper.trans (pow_le_pow_left₀ (g.midpoint_pos _).le habove 2)
  -- the number is positive, so the midpoint is not one between denormals
  have hlong : f.mantissaSpan ≤ n := by
    by_contra! hn'
    have hpos : 0 < a := (pow_pos (g.midpoint_pos k) 2).trans_le hlower
    exact hhigh.not_gt (sq_lt_of_denormal hdeep ha hpos hn' (hshort.resolve_right hn'.not_ge))
  have hnonneg : (0 : ℚ) ≤ (2 * n + 1 - 1 / (8 * f.mantissaSpan)) * 2 ^ e :=
    mul_nonneg (by linarith [n.cast_nonneg (α := ℚ), one_div_eight_mul_mantissaSpan_le_one f]) (by positivity)
  have hlow := (pow_le_pow_left₀ hnonneg hbelow 2).trans hlower
  obtain ⟨b, hb, p, -, -, hv, -⟩ := f.exists_magnitudeValue_eq_mul i
  rw [ha, hv] at hlow hhigh
  have hroot := eq_sq_of_near_midpoint f.mantissaSpan_pos hb hlong hn hlow hhigh
  rw [← hmid, ← hv, ← ha, ← hfw.midpoint_eq_iff] at hroot
  -- the midpoint is the root itself, and so not on one side of it
  split at hside
  · exact hside.ne hroot
  · exact hside.ne' hroot

end Format

end PrecisionAudit
