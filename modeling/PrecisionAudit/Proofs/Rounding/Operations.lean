import PrecisionAudit.Proofs.Rounding.Twice

/-!
# Operations that may be rounded twice

Sums and quotients of numbers of a format never come so near a midpoint of it that a format with room
for two significands and two bits more would mislead. Neither do products, if the longer format goes so
far down that the square of the largest significand stays below the least midpoint.

The argument is the same for all: the exact result is a multiple of a unit. If it is a short multiple the
longer format has it; otherwise the unit keeps it away from the midpoint, or, in a sum, the larger term
does, which is a number of the format itself.

## Main results

- `Format.FitsTwice.not_misleads_add`, `Format.FitsTwice.not_misleads_mul`,
  `Format.FitsTwice.not_misleads_div`: the three operations.
- `Format.FitsTwice.not_misleads_mul_of_ge`: products that are not too small.
-/

namespace PrecisionAudit

namespace Format

variable {f g : Format} {v a b : ℚ} {i k : ℕ}

/-! ## Signed significands -/

section

variable {p q x y : ℤ}

/-- A number with a magnitude of the format is a signed significand times a power of two. -/
theorem exists_int_mul_zpow (ha : |a| = f.magnitudeValue i) :
    ∃ x : ℤ, x.natAbs < 2 * f.mantissaSpan ∧ ∃ p : ℤ, f.minExponent - f.mantissaBits ≤ p ∧
      a = x * 2 ^ p := by
  obtain ⟨n, hn, p, hp, -, hv, -⟩ := f.exists_magnitudeValue_eq_mul i
  rw [hv] at ha
  rcases eq_or_eq_neg_of_abs_eq ha with h | h
  · exact ⟨n, by omega, p, hp, by rw [h, Int.cast_natCast]⟩
  · exact ⟨-n, by omega, p, hp, by rw [h, Int.cast_neg, neg_mul, Int.cast_natCast]⟩

/-- A multiple of a power of two is one of every smaller power. -/
theorem exists_nat_mul_zpow_of_le (hqp : q ≤ p) (n : ℕ) : ∃ m : ℕ, (n : ℚ) * 2 ^ p = m * 2 ^ q := by
  obtain ⟨d, hd⟩ := Int.eq_ofNat_of_zero_le (sub_nonneg.2 hqp)
  refine ⟨n * 2 ^ d, ?_⟩
  rw [← sub_add_cancel p q, hd, zpow_add₀ (by norm_num : (2 : ℚ) ≠ 0), zpow_natCast]
  push_cast
  ring

theorem exists_int_mul_zpow_of_le (hqp : q ≤ p) (x : ℤ) :
    ∃ y : ℤ, (x : ℚ) * 2 ^ p = y * 2 ^ q := by
  obtain ⟨m, hm⟩ := exists_nat_mul_zpow_of_le hqp 1
  rw [Nat.cast_one, one_mul] at hm
  exact ⟨x * m, by rw [hm, Int.cast_mul, Int.cast_natCast, mul_assoc]⟩

/-- Different numbers that become multiples of a power of two under a factor are, under that factor, at
least the power apart. -/
theorem zpow_le_abs_sub_mul {t : ℚ} (ht : 0 < t) (ha : a * t = x * 2 ^ p) (hb : b * t = y * 2 ^ p)
    (hne : a ≠ b) : (2 : ℚ) ^ p ≤ |a - b| * t := by
  have hxy : x ≠ y := by
    rintro rfl
    exact hne (mul_right_cancel₀ ht.ne' (ha.trans hb.symm))
  have hint : (1 : ℚ) ≤ |((x - y : ℤ) : ℚ)| := by
    exact_mod_cast Int.one_le_abs (sub_ne_zero.2 hxy)
  calc (2 : ℚ) ^ p ≤ |((x - y : ℤ) : ℚ)| * 2 ^ p := le_mul_of_one_le_left (by positivity) hint
    _ = |a * t - b * t| := by
      rw [ha, hb, ← sub_mul, abs_mul, abs_of_pos (by positivity : (0 : ℚ) < 2 ^ p), Int.cast_sub]
    _ = |a - b| * t := by rw [← sub_mul, abs_mul, abs_of_pos ht]

theorem abs_int_mul_zpow (x p : ℤ) : |(x : ℚ) * 2 ^ p| = x.natAbs * 2 ^ p := by
  rw [abs_mul, abs_of_pos (by positivity : (0 : ℚ) < 2 ^ p), Nat.cast_natAbs, Int.cast_abs]

end

/-- A product of two numbers of the format is a product of two significands times a power of two. -/
theorem exists_abs_mul_eq (ha : |a| = f.magnitudeValue i) (hb : |b| = f.magnitudeValue k) :
    ∃ s < 2 * f.mantissaSpan, ∃ t < 2 * f.mantissaSpan, ∃ e : ℤ, |a * b| = s * t * 2 ^ e := by
  obtain ⟨x, hx, p, -, hax⟩ := exists_int_mul_zpow ha
  obtain ⟨y, hy, q, -, hby⟩ := exists_int_mul_zpow hb
  refine ⟨x.natAbs, hx, y.natAbs, hy, p + q, ?_⟩
  rw [abs_mul, hax, hby, abs_int_mul_zpow, abs_int_mul_zpow, zpow_add₀ (by norm_num : (2 : ℚ) ≠ 0)]
  ring

/-! ## The operations -/

namespace FitsTwice

theorem leastUnit_le (h : f.FitsTwice g) {p : ℤ} (hp : f.minExponent - f.mantissaBits ≤ p) :
    g.minExponent - g.mantissaBits ≤ p := by
  have hbits := h.two_mul_le
  have hbias := h.bias_le
  unfold minExponent at *
  omega

section

variable (h : f.FitsTwice g) (hf : f.IsBinary) (hg : g.IsBinary)

include h hf hg

/-- A short significand in a binade of the finer format is not moved by the first rounding. -/
theorem not_misleads_of_short {n : ℕ} (hn : n < 2 * g.mantissaSpan) {e : ℤ}
    (he : g.minExponent - g.mantissaBits ≤ e) (hv : |v| = n * 2 ^ e) : ¬ g.Misleads f v := by
  intro hmislead
  have hrange := h.abs_lt_of_misleads hf hg hmislead
  rw [hv] at hrange
  obtain ⟨k, hk, hkv⟩ := hg.exists_magnitudeValue_eq hn he hrange
  exact not_misleads_of_magnitudeValue hg hk.le (hv.trans hkv.symm) hmislead

/-- A term that is short against the sum cannot bring it near a midpoint, as the other term is half a
step away from it. -/
theorem not_misleads_of_small (ha : |a| = f.magnitudeValue i)
    (hsmall : |b| * (8 * f.mantissaSpan) ≤ |a + b|) : ¬ g.Misleads f (a + b) := by
  intro hmislead
  obtain ⟨n, e, hmid⟩ := h.exists_nearMidpoint hf hg hmislead
  have hspan := NearMidpoint.one_le_mantissaSpan f
  have hfar := hmid.step_le i
  have htriangle : |(|a| - (2 * n + 1) * 2 ^ e)| ≤ |b| + |(|a + b| - (2 * n + 1) * 2 ^ e)| := by
    have hsub := abs_abs_sub_abs_le a (a + b)
    rw [sub_add_cancel_left, abs_neg] at hsub
    exact (abs_sub_le _ _ _).trans (add_le_add_left hsub _)
  have hb : |b| * 2 ≤ 2 ^ e := by
    refine le_of_mul_le_mul_right ?_ (show (0 : ℚ) < 4 * f.mantissaSpan by positivity)
    linarith [hmid.abs_le]
  have hstep : (0 : ℚ) < 2 ^ e := by positivity
  rw [ha] at htriangle
  linarith [hmid.abs_sub_mul_four_le]

private theorem not_misleads_add_of_le (ha : |a| = f.magnitudeValue i) {x y p q : ℤ}
    (hax : a = x * 2 ^ p) (hby : b = y * 2 ^ q) (hy : y.natAbs < 2 * f.mantissaSpan)
    (hq : f.minExponent - f.mantissaBits ≤ q) (hqp : q ≤ p) : ¬ g.Misleads f (a + b) := by
  -- the sum is a multiple of the smaller unit
  obtain ⟨z, hz⟩ := exists_int_mul_zpow_of_le hqp x
  have hsum : |a + b| = (z + y).natAbs * 2 ^ q := by
    rw [hax, hz, hby, ← add_mul, ← Int.cast_add, abs_int_mul_zpow]
  rcases Nat.lt_or_ge (z + y).natAbs (2 * g.mantissaSpan) with hshort | hlong
  · exact h.not_misleads_of_short hf hg hshort (h.leastUnit_le hq) hsum
  · refine h.not_misleads_of_small hf hg ha ?_
    have hcount : y.natAbs * (8 * f.mantissaSpan) ≤ (z + y).natAbs :=
      calc y.natAbs * (8 * f.mantissaSpan) ≤ 2 * f.mantissaSpan * (8 * f.mantissaSpan) := by gcongr
        _ = 2 * (8 * (f.mantissaSpan * f.mantissaSpan)) := by ring
        _ ≤ 2 * g.mantissaSpan := by have := h.mantissaSpan_le; omega
        _ ≤ (z + y).natAbs := hlong
    rw [hsum, hby, abs_int_mul_zpow, mul_right_comm]
    gcongr
    exact_mod_cast hcount

/-- A sum may be rounded through the finer format. -/
theorem not_misleads_add (ha : |a| = f.magnitudeValue i) (hb : |b| = f.magnitudeValue k) :
    ¬ g.Misleads f (a + b) := by
  obtain ⟨x, hx, p, hp, hax⟩ := exists_int_mul_zpow ha
  obtain ⟨y, hy, q, hq, hby⟩ := exists_int_mul_zpow hb
  rcases le_total q p with hqp | hpq
  · exact h.not_misleads_add_of_le hf hg ha hax hby hy hq hqp
  · rw [add_comm]
    exact h.not_misleads_add_of_le hf hg hb hby hax hx hp hpq

/-- A product that the finer format cannot hold stays as far below the least midpoint as its significand
stays below a power of two. -/
private theorem not_misleads_of_tiny
    (hleast : g.minExponent - g.mantissaBits + 2 * (f.mantissaBits + 1) ≤ f.minExponent - f.mantissaBits)
    {s t : ℕ} (hs : s < 2 * f.mantissaSpan) (ht : t < 2 * f.mantissaSpan) {e : ℤ}
    (he : e < g.minExponent - g.mantissaBits) (hv : |v| = s * t * 2 ^ e) : ¬ g.Misleads f v := by
  intro hmislead
  obtain ⟨n, e', hmid⟩ := h.exists_nearMidpoint hf hg hmislead
  have hspan := NearMidpoint.one_le_mantissaSpan f
  have hs' : (s : ℚ) ≤ 2 * f.mantissaSpan - 1 := le_sub_iff_add_le.2 (by exact_mod_cast hs)
  have ht' : (t : ℚ) ≤ 2 * f.mantissaSpan - 1 := le_sub_iff_add_le.2 (by exact_mod_cast ht)
  -- the largest unit that the product may have
  obtain ⟨u, hu, hupper, hlower⟩ : ∃ u : ℚ, 0 < u ∧ (2 : ℚ) ^ e ≤ u ∧
      4 * (f.mantissaSpan * f.mantissaSpan) * u ≤ 2 ^ e' := by
    refine ⟨2 ^ (g.minExponent - g.mantissaBits - 1), by positivity, ?_, ?_⟩
    · exact zpow_le_zpow_right₀ (by norm_num) (by omega)
    · have hpow : (4 : ℚ) * (f.mantissaSpan * f.mantissaSpan) = 2 ^ (2 * (f.mantissaBits + 1) : ℤ) := by
        rw [mul_comm 2, zpow_mul, zpow_ofNat, zpow_add_one₀ (by norm_num), zpow_natCast, mantissaSpan]
        push_cast
        ring
      rw [hpow, ← zpow_add₀ (by norm_num)]
      exact zpow_le_zpow_right₀ (by norm_num) (by have := hmid.le_exponent; omega)
  have hsquare : (s : ℚ) * t ≤ (2 * f.mantissaSpan - 1) * (2 * f.mantissaSpan - 1) :=
    mul_le_mul hs' ht' (by positivity) (by linarith)
  have hsmall : |v| ≤ (2 * f.mantissaSpan - 1) * (2 * f.mantissaSpan - 1) * u := by
    rw [hv]
    exact mul_le_mul hsquare hupper (by positivity) (mul_self_nonneg _)
  have hdifference : 0 < (3 * f.mantissaSpan - 1) * (4 * f.mantissaSpan * u) :=
    mul_pos (by linarith) (by positivity)
  have hbelow := mul_le_mul_of_nonneg_right hsmall (show (0 : ℚ) ≤ 4 * f.mantissaSpan by positivity)
  have habove := mul_le_mul_of_nonneg_left hlower (show (0 : ℚ) ≤ 4 * f.mantissaSpan - 1 by linarith)
  linarith [hmid.le_abs]

/-- A product whose unit the finer format has is not moved by the first rounding. -/
private theorem not_misleads_of_fine {s t : ℕ} (hs : s < 2 * f.mantissaSpan)
    (ht : t < 2 * f.mantissaSpan) {e : ℤ} (he : g.minExponent - g.mantissaBits ≤ e)
    (hv : |v| = s * t * 2 ^ e) : ¬ g.Misleads f v := by
  have hshort : s * t < 2 * g.mantissaSpan :=
    calc s * t < 2 * f.mantissaSpan * (2 * f.mantissaSpan) := Nat.mul_lt_mul'' hs ht
      _ = 4 * (f.mantissaSpan * f.mantissaSpan) := by ring
      _ ≤ 2 * g.mantissaSpan := by have := h.mantissaSpan_le; omega
  exact h.not_misleads_of_short hf hg hshort he (by rw [hv, Nat.cast_mul])

/-- A product may be rounded through the finer format, if the square of the largest significand is still
below the least midpoint when it is counted in half least units of the finer format. -/
theorem not_misleads_mul
    (hleast : g.minExponent - g.mantissaBits + 2 * (f.mantissaBits + 1) ≤ f.minExponent - f.mantissaBits)
    (ha : |a| = f.magnitudeValue i) (hb : |b| = f.magnitudeValue k) : ¬ g.Misleads f (a * b) := by
  obtain ⟨s, hs, t, ht, e, hproduct⟩ := exists_abs_mul_eq ha hb
  rcases le_or_gt (g.minExponent - g.mantissaBits) e with hfine | htiny
  · exact h.not_misleads_of_fine hf hg hs ht hfine hproduct
  · exact h.not_misleads_of_tiny hf hg hleast hs ht htiny hproduct

/-- A product that is large enough has a unit that the finer format has, whatever its exponents. -/
theorem not_misleads_mul_of_ge
    (hlarge : 2 ^ (g.minExponent - g.mantissaBits + 2 * f.mantissaBits + 1) ≤ |a * b|)
    (ha : |a| = f.magnitudeValue i) (hb : |b| = f.magnitudeValue k) : ¬ g.Misleads f (a * b) := by
  obtain ⟨s, hs, t, ht, e, hproduct⟩ := exists_abs_mul_eq ha hb
  refine h.not_misleads_of_fine hf hg hs ht ?_ hproduct
  -- two significands are fewer than `2 ^ (2 * mantissaBits + 2)` units
  have hcount : ((s * t : ℕ) : ℚ) < 2 ^ (2 * f.mantissaBits + 2 : ℤ) := by
    have hlt : s * t < 2 ^ (2 * f.mantissaBits + 2) :=
      calc s * t < 2 * f.mantissaSpan * (2 * f.mantissaSpan) := Nat.mul_lt_mul'' hs ht
        _ = 2 ^ (2 * f.mantissaBits + 2) := by rw [mantissaSpan]; ring
    exact_mod_cast hlt
  have hupper : |a * b| < 2 ^ (2 * f.mantissaBits + 2 + e : ℤ) := by
    rw [hproduct, zpow_add₀ (by norm_num : (2 : ℚ) ≠ 0), ← Nat.cast_mul]
    gcongr
  have hexponents := (zpow_lt_zpow_iff_right₀ (by norm_num : (1 : ℚ) < 2)).1 (hlarge.trans_lt hupper)
  omega

/-- A quotient may be rounded through the finer format. -/
theorem not_misleads_div (ha : |a| = f.magnitudeValue i) (hb : |b| = f.magnitudeValue k) (hne : b ≠ 0) :
    ¬ g.Misleads f (a / b) := by
  intro hmislead
  obtain ⟨n, e, hmid⟩ := h.exists_nearMidpoint hf hg hmislead
  obtain ⟨x, hx, p, -, hax⟩ := exists_int_mul_zpow ha
  obtain ⟨y, hy, q, -, hby⟩ := exists_int_mul_zpow hb
  have hspan := NearMidpoint.one_le_mantissaSpan f
  have hx' : (x.natAbs : ℚ) ≤ 2 * f.mantissaSpan := by exact_mod_cast hx.le
  have hy' : (y.natAbs : ℚ) ≤ 2 * f.mantissaSpan := by exact_mod_cast hy.le
  have hypos : (0 : ℚ) < y.natAbs := by
    rw [Nat.cast_pos, Int.natAbs_pos]
    rintro rfl
    exact hne (by rw [hby, Int.cast_zero, zero_mul])
  have hquotient : |a / b| * y.natAbs = x.natAbs * 2 ^ (p - q) := by
    rw [abs_div, hax, hby, abs_int_mul_zpow, abs_int_mul_zpow, zpow_sub₀ (by norm_num : (2 : ℚ) ≠ 0)]
    field_simp
  generalize x.natAbs = s at hx' hquotient
  generalize y.natAbs = t at hy' hypos hquotient
  -- times the divisor, number and midpoint are multiples of the smaller of their units
  have hunit (r : ℤ) (hr : r ≤ p - q) (hr' : r ≤ e) :
      (2 : ℚ) ^ r ≤ |(|a / b| - (2 * n + 1) * 2 ^ e)| * t := by
    obtain ⟨c, hc⟩ := exists_int_mul_zpow_of_le hr s
    obtain ⟨d, hd⟩ := exists_int_mul_zpow_of_le hr' ((2 * n + 1) * t)
    rw [Int.cast_natCast, ← hquotient] at hc
    refine zpow_le_abs_sub_mul hypos hc (Eq.trans ?_ hd) hmid.ne_midpoint
    push_cast
    ring
  rcases le_total e (p - q) with he | he
  · have hle := hunit e he le_rfl
    have hscale : |(|a / b| - (2 * n + 1) * 2 ^ e)| * t * 2 ≤ 2 ^ e :=
      calc |(|a / b| - (2 * n + 1) * 2 ^ e)| * t * 2
          ≤ |(|a / b| - (2 * n + 1) * 2 ^ e)| * (2 * f.mantissaSpan) * 2 := by gcongr
        _ = |(|a / b| - (2 * n + 1) * 2 ^ e)| * (4 * f.mantissaSpan) := by ring
        _ ≤ 2 ^ e := hmid.near
    have hstep : (0 : ℚ) < 2 ^ e := by positivity
    linarith
  · -- the quotient itself were short
    have hle := hunit (p - q) le_rfl he
    have hshort : |a / b| ≤ |(|a / b| - (2 * n + 1) * 2 ^ e)| * (2 * f.mantissaSpan) := by
      refine le_of_mul_le_mul_right ?_ hypos
      calc |a / b| * t = s * 2 ^ (p - q) := hquotient
        _ ≤ 2 * f.mantissaSpan * (|(|a / b| - (2 * n + 1) * 2 ^ e)| * t) := by gcongr
        _ = _ := by ring
    have hlong : |a / b| * (4 * f.mantissaSpan) ≤ 2 * f.mantissaSpan * 2 ^ e :=
      calc |a / b| * (4 * f.mantissaSpan)
          ≤ |(|a / b| - (2 * n + 1) * 2 ^ e)| * (2 * f.mantissaSpan) * (4 * f.mantissaSpan) := by gcongr
        _ = 2 * f.mantissaSpan * (|(|a / b| - (2 * n + 1) * 2 ^ e)| * (4 * f.mantissaSpan)) := by ring
        _ ≤ 2 * f.mantissaSpan * 2 ^ e := by
          gcongr
          exact hmid.near
    have hdifference : 0 < (2 * f.mantissaSpan - 1) * (2 : ℚ) ^ e := mul_pos (by linarith) (by positivity)
    linarith [hmid.le_abs]

end

end FitsTwice

end Format

end PrecisionAudit
