import PrecisionAudit.Proofs.Rounding.Operations

/-!
# Integers and remainders

Rounding to an integer, in the five ways in which the library functions do it, and the remainder of a
truncated quotient. Both stay on the grid of the format that a number comes from: a number with a fraction
is less than the integers that the format holds, and a remainder is a multiple of the unit of one operand
and no larger than either.

## Main results

- `IntegerRule.rounds_magnitude`: the rules on magnitudes give the integers that they stand for.
- `Format.IsBinary.exists_magnitudeValue_eq_rounds`: a rounded number is a number of the format.
- `Format.IsBinary.exists_magnitudeValue_eq_remainder`: so is a remainder.
-/

namespace PrecisionAudit

/-! ## Truncation -/

/-- The integer part of a number: rounding toward zero. -/
def truncate (v : ℚ) : ℤ := if v < 0 then ⌈v⌉ else ⌊v⌋

theorem truncate_neg (v : ℚ) : truncate (-v) = -truncate v := by
  rcases lt_trichotomy v 0 with hv | rfl | hv
  · simp [truncate, hv, hv.le, Int.floor_neg]
  · simp [truncate]
  · simp [truncate, hv, hv.le, Int.ceil_neg]

theorem truncate_natCast_div (num den : ℕ) : truncate ((num : ℚ) / den) = (num / den : ℕ) := by
  have hnonneg : (0 : ℚ) ≤ (num : ℚ) / den := by positivity
  rw [truncate, if_neg hnonneg.not_gt, Rat.floor_natCast_div_natCast]
  rfl

/-- Truncation takes off less than one. -/
theorem abs_sub_truncate_lt_one (v : ℚ) : |v - truncate v| < 1 := by
  have hfloor := Int.floor_le v
  have hfloor' := Int.lt_floor_add_one v
  have hceil := Int.le_ceil v
  have hceil' := Int.ceil_lt_add_one v
  rw [abs_lt, truncate]
  split <;> constructor <;> linarith

/-- Truncation does not pass zero, so that what it leaves is no larger than the number. -/
theorem abs_sub_truncate_le (v : ℚ) : |v - truncate v| ≤ |v| := by
  rcases lt_or_ge v 0 with hv | hv
  · have hceil : (⌈v⌉ : ℚ) ≤ 0 := by exact_mod_cast Int.ceil_le.2 (by simpa using hv.le)
    have hle := Int.le_ceil v
    rw [truncate, if_pos hv, abs_of_nonpos (by linarith), abs_of_neg hv]
    linarith
  · have hfloor : (0 : ℚ) ≤ ⌊v⌋ := by exact_mod_cast Int.floor_nonneg.2 hv
    have hle := Int.floor_le v
    rw [truncate, if_neg hv.not_gt, abs_of_nonneg (by linarith), abs_of_nonneg hv]
    linarith

/-! ## Remainders -/

section

variable {a b : ℚ}

theorem abs_remainder_lt (hb : b ≠ 0) : |a - b * truncate (a / b)| < |b| := by
  have hscale : a - b * truncate (a / b) = b * (a / b - truncate (a / b)) := by
    rw [mul_sub, mul_div_cancel₀ a hb]
  rw [hscale, abs_mul]
  exact mul_lt_of_lt_one_right (abs_pos.2 hb) (abs_sub_truncate_lt_one _)

theorem abs_remainder_le (hb : b ≠ 0) : |a - b * truncate (a / b)| ≤ |a| := by
  have hscale : a - b * truncate (a / b) = b * (a / b - truncate (a / b)) := by
    rw [mul_sub, mul_div_cancel₀ a hb]
  calc |a - b * truncate (a / b)| = |b| * |a / b - truncate (a / b)| := by rw [hscale, abs_mul]
    _ ≤ |b| * |a / b| := mul_le_mul_of_nonneg_left (abs_sub_truncate_le _) (abs_nonneg b)
    _ = |a| := by rw [← abs_mul, mul_div_cancel₀ a hb]

end

namespace Format

variable {f : Format} {a b v : ℚ} {i k : ℕ}

/-- The remainder of two numbers of a format is a number of it: counted in the smaller of the two units
it stays below the significand that has this unit. -/
theorem IsBinary.exists_magnitudeValue_eq_remainder (hf : f.IsBinary) (ha : |a| = f.magnitudeValue i)
    (hi : i < f.infinity) (hb : |b| = f.magnitudeValue k) (hne : b ≠ 0) :
    ∃ m < f.infinity, |a - b * truncate (a / b)| = f.magnitudeValue m := by
  obtain ⟨x, hx, p, hp, hax⟩ := exists_int_mul_zpow ha
  obtain ⟨y, hy, q, hq, hby⟩ := exists_int_mul_zpow hb
  have hlt := abs_remainder_lt (a := a) hne
  have hle := abs_remainder_le (a := a) hne
  have habs := abs_int_mul_zpow x p
  have hbbs := abs_int_mul_zpow y q
  rw [← hax] at habs
  rw [← hby] at hbbs
  generalize truncate (a / b) = t at *
  have hrange : |a| < 2 ^ (f.maxExponent + 1) := by
    rw [ha, ← hf.magnitudeValue_infinity]
    exact f.magnitudeValue_strictMono hi
  -- a multiple of a unit of the format that is below a short significand is on the grid
  have hgrid (z e : ℤ) (hz : a - b * t = z * 2 ^ e) (hshort : z.natAbs < 2 * f.mantissaSpan)
      (he : f.minExponent - f.mantissaBits ≤ e) : ∃ m < f.infinity, |a - b * t| = f.magnitudeValue m := by
    have hcount : |a - b * t| = z.natAbs * 2 ^ e := by rw [hz, abs_int_mul_zpow]
    obtain ⟨m, hm, hv⟩ := hf.exists_magnitudeValue_eq hshort he (by linarith)
    exact ⟨m, hm, hcount.trans hv.symm⟩
  rcases le_total q p with hqp | hpq
  · -- in the unit of the divisor the remainder stays below the divisor
    obtain ⟨z, hz⟩ := exists_int_mul_zpow_of_le hqp x
    have hmul : a - b * t = ((z - y * t : ℤ) : ℚ) * 2 ^ q := by
      push_cast
      rw [sub_mul, ← hz, ← hax, mul_right_comm, ← hby]
    refine hgrid _ q hmul ?_ hq
    rw [hmul, hbbs, abs_int_mul_zpow, mul_lt_mul_iff_of_pos_right (by positivity), Nat.cast_lt] at hlt
    exact hlt.trans hy
  · -- in that of the dividend it is no larger than the dividend
    obtain ⟨z, hz⟩ := exists_int_mul_zpow_of_le hpq y
    have hmul : a - b * t = ((x - z * t : ℤ) : ℚ) * 2 ^ p := by
      push_cast
      rw [sub_mul, ← hax, mul_right_comm, ← hz, ← hby]
    refine hgrid _ p hmul ?_ hp
    rw [hmul, habs, abs_int_mul_zpow, mul_le_mul_iff_of_pos_right (by positivity), Nat.cast_le] at hle
    exact hle.trans_lt hx

end Format

/-! ## Integers -/

namespace RoundingMode

variable {mode : RoundingMode} {negative : Bool} {num den : ℕ}

/-- A mode that raises gives the least integer that is not below the quotient. -/
theorem natCast_roundQuotient_of_directedUp (hmode : mode.directedUp negative = true) (hden : 0 < den) :
    (mode.roundQuotient negative num den : ℤ) = ⌈(num : ℚ) / den⌉ := by
  have hsel := mode.roundQuotient_selects negative num hden
  obtain ⟨j, hj⟩ := Int.eq_ofNat_of_zero_le (Int.ceil_nonneg (show (0 : ℚ) ≤ (num : ℚ) / den by positivity))
  refine le_antisymm ?_ (Int.ceil_le.2 (by exact_mod_cast hsel.le_of_directedUp hmode))
  -- the least integer above is itself a place that the selection does not pass
  rw [hj, Int.ofNat_le]
  exact hsel.le_of_le Nat.strictMono_cast (by exact_mod_cast hj ▸ Int.le_ceil ((num : ℚ) / den))

/-- A mode other than to nearest that does not raise gives the greatest integer that is not above it. -/
theorem natCast_roundQuotient_of_not_directedUp (hne : mode ≠ .nearestEven)
    (hmode : mode.directedUp negative = false) (hden : 0 < den) :
    (mode.roundQuotient negative num den : ℤ) = ⌊(num : ℚ) / den⌋ := by
  have hsel := mode.roundQuotient_selects negative num hden
  obtain ⟨j, hj⟩ := Int.eq_ofNat_of_zero_le (Int.floor_nonneg.2 (show (0 : ℚ) ≤ (num : ℚ) / den by positivity))
  refine le_antisymm (Int.le_floor.2 (by exact_mod_cast hsel.le_of_not_directedUp hne hmode)) ?_
  rw [hj, Int.ofNat_le]
  exact hsel.ge_of_ge Nat.strictMono_cast (by exact_mod_cast hj ▸ Int.floor_le ((num : ℚ) / den))

/-- Rounding to nearest even errs by half a unit at most, and by that much only where it ends on an even
integer. -/
theorem abs_sub_roundQuotient_le (negative : Bool) (num : ℕ) (hden : 0 < den) :
    |(num : ℚ) / den - nearestEven.roundQuotient negative num den| ≤ 1 / 2 ∧
      (|(num : ℚ) / den - nearestEven.roundQuotient negative num den| = 1 / 2 →
        nearestEven.roundQuotient negative num den % 2 = 0) := by
  obtain ⟨k, hlow, hhigh, hchoice⟩ := nearestEven.roundQuotient_selects negative num hden
  generalize nearestEven.roundQuotient negative num den = n at *
  generalize (num : ℚ) / den = v at *
  push_cast at hhigh hchoice
  -- the quotient lies between two integers, and the selection went to the closer one
  rcases hchoice with ⟨rfl, hraise⟩ | ⟨rfl, hraise⟩ <;> simp only [Raises] at hraise <;> push_cast
  · rw [abs_of_neg (by linarith)]
    refine ⟨by rcases hraise with h | h <;> linarith, fun htie => ?_⟩
    rcases hraise with h | ⟨-, hodd⟩
    · linarith
    · omega
  · rw [abs_of_nonneg (by linarith)]
    have hdown : v - n ≤ n + 1 - v := not_lt.1 fun h => hraise (.inl h)
    refine ⟨by linarith, fun htie => ?_⟩
    have hodd : ¬ n % 2 = 1 := fun h => hraise (.inr ⟨by linarith, h⟩)
    omega

end RoundingMode

/-- A way to make an integer of a number. -/
inductive IntegerRule
  /-- Down to the next integer. -/
  | floor
  /-- Up to the next integer. -/
  | ceil
  /-- Toward zero. -/
  | trunc
  /-- To the nearest integer, half-way cases away from zero. -/
  | round
  /-- To the nearest integer, half-way cases to the even one. -/
  | nearbyint
  deriving DecidableEq, Repr

namespace IntegerRule

variable {rule : IntegerRule} {v : ℚ} {n : ℤ} {num den : ℕ}

/-- The name of the library function that follows the rule. -/
def name : IntegerRule → String
  | floor => "floor"
  | ceil => "ceil"
  | trunc => "trunc"
  | round => "round"
  | nearbyint => "nearbyint"

/-- The rule takes the number `v` to the integer `n`. -/
def Rounds : IntegerRule → ℚ → ℤ → Prop
  | floor, v, n => n = ⌊v⌋
  | ceil, v, n => n = ⌈v⌉
  | trunc, v, n => n = truncate v
  | round, v, n => |v - n| ≤ 1 / 2 ∧ (|v - n| = 1 / 2 → |v| < |(n : ℚ)|)
  | nearbyint, v, n => |v - n| ≤ 1 / 2 ∧ (|v - n| = 1 / 2 → Even n)

/-- The rule on magnitudes, for a number that is negative or not. -/
def magnitude (rule : IntegerRule) (negative : Bool) (num den : ℕ) : ℕ :=
  match rule with
  | floor => RoundingMode.downward.roundQuotient negative num den
  | ceil => RoundingMode.upward.roundQuotient negative num den
  | trunc => RoundingMode.towardZero.roundQuotient negative num den
  | round => (2 * num + den) / (2 * den)
  | nearbyint => RoundingMode.nearestEven.roundQuotient negative num den

/-- An integer stays what it is. -/
theorem rounds_intCast_iff {z : ℤ} : rule.Rounds (z : ℚ) n ↔ n = z := by
  have hnear : |(z : ℚ) - n| ≤ 1 / 2 → n = z := by
    intro hle
    have hlt : |z - n| < 1 := by exact_mod_cast hle.trans_lt (by norm_num : (1 / 2 : ℚ) < 1)
    exact (sub_eq_zero.1 (Int.abs_lt_one_iff.1 hlt)).symm
  cases rule with
  | floor => rw [Rounds, Int.floor_intCast]
  | ceil => rw [Rounds, Int.ceil_intCast]
  | trunc => rw [Rounds, truncate, Int.ceil_intCast, Int.floor_intCast, ite_self]
  | round => exact ⟨fun h => hnear h.1, by rintro rfl; simp [Rounds]⟩
  | nearbyint => exact ⟨fun h => hnear h.1, by rintro rfl; simp [Rounds]⟩

/-- No rule moves a number by more than one. -/
theorem Rounds.abs_lt (h : rule.Rounds v n) : |(n : ℚ)| < |v| + 1 := by
  -- every rule ends less than one away
  have hclose : |v - n| < 1 := by
    cases rule with
    | floor =>
      obtain rfl : n = _ := h
      rw [abs_of_nonneg (by linarith [Int.floor_le v])]
      linarith [Int.lt_floor_add_one v]
    | ceil =>
      obtain rfl : n = _ := h
      rw [abs_of_nonpos (by linarith [Int.le_ceil v])]
      linarith [Int.ceil_lt_add_one v]
    | trunc =>
      obtain rfl : n = _ := h
      exact abs_sub_truncate_lt_one v
    | round => exact h.1.trans_lt (by norm_num)
    | nearbyint => exact h.1.trans_lt (by norm_num)
  have htriangle := abs_sub_abs_le_abs_sub (n : ℚ) v
  rw [abs_sub_comm] at htriangle
  linarith

/-- Half up on magnitudes is half away from zero. -/
theorem abs_sub_magnitude_round_le (negative : Bool) (num : ℕ) (hden : 0 < den) :
    |(num : ℚ) / den - round.magnitude negative num den| ≤ 1 / 2 ∧
      (|(num : ℚ) / den - round.magnitude negative num den| = 1 / 2 →
        (num : ℚ) / den < round.magnitude negative num den) := by
  have hden' : (0 : ℚ) < den := Nat.cast_pos.2 hden
  have hsplit := Nat.div_add_mod (2 * num + den) (2 * den)
  have hlt := Nat.mod_lt (2 * num + den) (show 0 < 2 * den by omega)
  rw [magnitude]
  generalize (2 * num + den) / (2 * den) = m at *
  generalize (2 * num + den) % (2 * den) = r at *
  -- the error is that of the remainder against half a unit
  have herror : (num : ℚ) / den - m = (r - den) / (2 * den) := by
    have hcast : (2 * den * m + r : ℚ) = 2 * num + den := by exact_mod_cast hsplit
    field_simp
    linarith
  have hr : (r : ℚ) < 2 * den := by exact_mod_cast hlt
  have hr' : (0 : ℚ) ≤ r := r.cast_nonneg
  have hupper : (r - den : ℚ) / (2 * den) < 1 / 2 := by
    rw [div_lt_div_iff₀ (by positivity) (by norm_num)]
    linarith
  have hlower : -(1 / 2) ≤ (r - den : ℚ) / (2 * den) := by
    rw [le_div_iff₀ (by positivity)]
    linarith
  rw [← sub_neg, herror]
  refine ⟨abs_le.2 ⟨hlower, hupper.le⟩, fun htie => ?_⟩
  by_contra! hnonneg
  rw [abs_of_nonneg hnonneg] at htie
  exact hupper.ne htie

/-- Under a sign, the rule on magnitudes gives the integer that the rule stands for. -/
theorem rounds_magnitude (rule : IntegerRule) (negative : Bool) (num : ℕ) (hden : 0 < den) :
    rule.Rounds ((if negative then -1 else 1) * (num / den))
      ((if negative then -1 else 1) * rule.magnitude negative num den) := by
  cases rule with
  | floor =>
    -- below zero the next integer down has the larger magnitude
    rw [Rounds, magnitude]
    cases negative with
    | false =>
      rw [RoundingMode.natCast_roundQuotient_of_not_directedUp (by decide) rfl hden]
      simp
    | true =>
      rw [RoundingMode.natCast_roundQuotient_of_directedUp rfl hden]
      simp [Int.floor_neg]
  | ceil =>
    rw [Rounds, magnitude]
    cases negative with
    | false =>
      rw [RoundingMode.natCast_roundQuotient_of_directedUp rfl hden]
      simp
    | true =>
      rw [RoundingMode.natCast_roundQuotient_of_not_directedUp (by decide) rfl hden]
      simp [Int.ceil_neg]
  | trunc =>
    have hquotient : trunc.magnitude negative num den = num / den := rfl
    rw [Rounds, hquotient, ← truncate_natCast_div]
    cases negative <;> simp [truncate_neg]
  | round =>
    have hnear := abs_sub_magnitude_round_le negative num hden
    have hquotient : |(num : ℚ) / den| = num / den := abs_of_nonneg (by positivity)
    rw [Rounds]
    cases negative <;>
      simpa [neg_add_eq_sub, abs_sub_comm, hquotient] using hnear
  | nearbyint =>
    have hnear := RoundingMode.abs_sub_roundQuotient_le negative num hden
    rw [← Nat.even_iff] at hnear
    rw [Rounds, magnitude]
    cases negative <;>
      simpa [neg_add_eq_sub, abs_sub_comm] using hnear

end IntegerRule

namespace Format

variable {f : Format} {rule : IntegerRule} {v : ℚ} {n : ℤ} {i : ℕ}

/-- A number of a format that is rounded to an integer becomes a number of the format: either it was an
integer before, or it is below the span of the significands. -/
theorem IsBinary.exists_magnitudeValue_eq_rounds (hf : f.IsBinary)
    (hbits : (f.mantissaBits : ℤ) < f.maxExponent) (hv : |v| = f.magnitudeValue i)
    (hi : i < f.infinity) (h : rule.Rounds v n) :
    ∃ m < f.infinity, |(n : ℚ)| = f.magnitudeValue m := by
  obtain ⟨x, hx, p, -, hvx⟩ := exists_int_mul_zpow hv
  rcases le_or_gt 0 p with hp | hp
  · -- a number without a fraction is not moved
    obtain ⟨z, hz⟩ := exists_int_mul_zpow_of_le hp x
    rw [zpow_zero, mul_one] at hz
    rw [hvx, hz, IntegerRule.rounds_intCast_iff] at h
    exact ⟨i, hi, by rw [h, ← hz, ← hvx, hv]⟩
  · -- one with a fraction is short, and the short integers are all in the format
    have hsmall : |v| < f.mantissaSpan := by
      have hhalf : (2 : ℚ) ^ p ≤ 2 ^ (-1 : ℤ) := zpow_le_zpow_right₀ (by norm_num) (by omega)
      have hx' : (x.natAbs : ℚ) < 2 * f.mantissaSpan := by exact_mod_cast hx
      rw [hvx, abs_int_mul_zpow]
      calc (x.natAbs : ℚ) * 2 ^ p ≤ x.natAbs * 2 ^ (-1 : ℤ) := by gcongr
        _ < 2 * f.mantissaSpan * 2 ^ (-1 : ℤ) := by gcongr
        _ = f.mantissaSpan := by rw [zpow_neg_one]; ring
    have hn : n.natAbs ≤ f.mantissaSpan := by
      have hlt : (n.natAbs : ℚ) < f.mantissaSpan + 1 := by
        rw [Nat.cast_natAbs, Int.cast_abs]
        linarith [h.abs_lt]
      exact Nat.lt_succ_iff.1 (by exact_mod_cast hlt)
    obtain ⟨m, hm, hmv⟩ := hf.exists_magnitudeValue_eq_natCast hbits (n := n.natAbs) (by omega)
    exact ⟨m, hm, by rw [hmv, Nat.cast_natAbs, Int.cast_abs]⟩

end Format

end PrecisionAudit
