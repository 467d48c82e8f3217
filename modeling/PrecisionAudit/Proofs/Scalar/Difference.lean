import PrecisionAudit.Proofs.Rounding.Operations
import PrecisionAudit.Proofs.Scalar.Arithmetic

/-!
# Absolute differences

The absolute difference of two numbers, computed in their format. Rounding brings the exact difference to
the nearest magnitude of the format; on the way it passes no value of the format, and a smaller difference
does not overtake a larger one. Where infinity is an operand it is the result, unless both operands are the
same infinity.

## Main results

- `Format.rounded_le_of_mem_values`: a difference is not rounded past a value of the format.
- `Format.absError_le_of_mem_uIcc`: a number that lies between has no larger difference.
- `Format.coe_abs_sub_mem_values`: a much longer format has the differences of a shorter one.
- `Scalar.value?_abs_sub`, `Scalar.isNaN_sub`: what the computed difference denotes.
-/

namespace PrecisionAudit

namespace Format

variable {f g : Format} {a b v w : ℚ}

/-! ## Rounded magnitudes -/

/-- The value of the magnitude nearest to a number, which is infinite from the threshold of overflow on. -/
def rounded (f : Format) (v : ℚ) : Extended := f.valueAt (f.nearest v)

theorem rounded_mono (hf : f.IsBinary) (h : |v| ≤ |w|) : f.rounded v ≤ f.rounded w := by
  have hmem (u : ℚ) : (f.nearest u : ℤ) ∈ Set.Icc (-f.infinity : ℤ) f.infinity := by
    have hle := nearest_le_infinity hf u
    constructor <;> omega
  exact (valueAt_strictMonoOn hf).monotoneOn (hmem v) (hmem w) (Int.ofNat_le.2 (nearest_mono hf h))

/-- A magnitude that the format has is not rounded. -/
theorem rounded_of_mem_values (hf : f.IsBinary) (hv : ((|v| : ℚ) : Extended) ∈ f.values) :
    f.rounded v = ((|v| : ℚ) : Extended) := by
  obtain ⟨n, hn, hgrid⟩ := (coe_mem_values_iff hf _).1 hv
  have hmag : f.magnitudeValue n.natAbs = |v| := by rw [← f.abs_gridValue, hgrid, abs_abs]
  have hnearest : f.nearest v = n.natAbs := by
    rw [← nearest_magnitudeValue hf hn.le, hmag]
    exact nearest_congr hf (abs_abs v).symm
  rw [rounded, hnearest, valueAt, if_neg (by omega), if_neg (by omega),
    f.gridValue_of_nonneg (Int.natCast_nonneg _), Int.toNat_natCast, hmag]

/-- A magnitude is not rounded past a value of the format. -/
theorem rounded_le_of_mem_values (hf : f.IsBinary) {u : Extended} (hu : u ∈ f.values)
    (h : ((|v| : ℚ) : Extended) ≤ u) : f.rounded v ≤ u := by
  obtain rfl | rfl | ⟨q, rfl⟩ := u.eq_bot_or_eq_top_or_eq_coe
  · exact absurd h (Extended.bot_lt_coe _).not_ge
  · exact le_top
  · have hle : |v| ≤ q := Extended.coe_strictMono.le_iff_le.1 h
    have hq : |q| = q := abs_of_nonneg ((abs_nonneg v).trans hle)
    calc f.rounded v ≤ f.rounded q := rounded_mono hf (hle.trans hq.ge)
      _ = ((|q| : ℚ) : Extended) := rounded_of_mem_values hf (hq.symm ▸ hu)
      _ = (q : ℚ) := by rw [hq]

/-! ## Errors -/

/-- The absolute difference of two values as a format has it. With infinity it is infinite. -/
def absError (f : Format) : Extended → Extended → Extended
  | .some (.some a), .some (.some b) => f.rounded (a - b)
  | _, _ => ⊤

theorem absError_coe (f : Format) (a b : ℚ) :
    f.absError ((a : ℚ) : Extended) ((b : ℚ) : Extended) = f.rounded (a - b) := rfl

theorem absError_infinite_left (f : Format) (negative : Bool) (u : Extended) :
    f.absError (if negative then ⊥ else ⊤) u = ⊤ := by
  cases negative <;> rfl

theorem absError_infinite_right (f : Format) (negative : Bool) (u : Extended) :
    f.absError u (if negative then ⊥ else ⊤) = ⊤ := by
  obtain rfl | rfl | ⟨q, rfl⟩ := u.eq_bot_or_eq_top_or_eq_coe <;> cases negative <;> rfl

theorem absError_comm (hf : f.IsBinary) (u t : Extended) : f.absError u t = f.absError t u := by
  obtain rfl | rfl | ⟨a, rfl⟩ := u.eq_bot_or_eq_top_or_eq_coe
  · exact (f.absError_infinite_right true t).symm
  · exact (f.absError_infinite_right false t).symm
  · obtain rfl | rfl | ⟨b, rfl⟩ := t.eq_bot_or_eq_top_or_eq_coe
    · rfl
    · rfl
    · have habs := abs_sub_comm a b
      exact le_antisymm (rounded_mono hf habs.le) (rounded_mono hf habs.ge)

/-- Between a reference and a number the difference to the reference is not larger than that of the number. -/
theorem absError_le_of_mem_uIcc (hf : f.IsBinary) {s t u : Extended} (h : s ∈ Set.uIcc t u) :
    f.absError s t ≤ f.absError u t := by
  obtain rfl | rfl | ⟨a, rfl⟩ := u.eq_bot_or_eq_top_or_eq_coe
  · exact le_top
  · exact le_top
  obtain rfl | rfl | ⟨b, rfl⟩ := t.eq_bot_or_eq_top_or_eq_coe
  · exact le_top
  · exact le_top
  -- between two rational numbers there is no infinity
  obtain ⟨hlow, hhigh⟩ := h
  rw [← Extended.coe_strictMono.monotone.map_min] at hlow
  rw [← Extended.coe_strictMono.monotone.map_max] at hhigh
  obtain rfl | rfl | ⟨q, rfl⟩ := s.eq_bot_or_eq_top_or_eq_coe
  · exact absurd hlow (Extended.bot_lt_coe _).not_ge
  · exact absurd hhigh (Extended.coe_lt_top _).not_ge
  · have hmem : q ∈ Set.uIcc b a :=
      ⟨Extended.coe_strictMono.le_iff_le.1 hlow, Extended.coe_strictMono.le_iff_le.1 hhigh⟩
    exact rounded_mono hf (Set.abs_sub_left_of_mem_uIcc hmem)

/-! ## Exact differences -/

/-- A number of a format is a signed count of its least units. -/
theorem exists_int_mul_leastUnit (hf : f.IsBinary) (ha : ((a : ℚ) : Extended) ∈ f.values) :
    ∃ x : ℤ, x.natAbs < f.gridCount f.infinity ∧ a = x * 2 ^ (f.minExponent - f.mantissaBits) := by
  obtain ⟨n, hn, rfl⟩ := (coe_mem_values_iff hf _).1 ha
  have hlt := f.gridCount_strictMono hn
  unfold gridValue magnitudeValue
  split
  · exact ⟨-f.gridCount n.natAbs, by omega, by push_cast; ring⟩
  · exact ⟨f.gridCount n.natAbs, by omega, by rw [Int.cast_natCast]⟩

/-- A larger format has all differences of numbers of a smaller one, if its significand can count the least
units of the smaller format up to the infinity of that. -/
theorem coe_abs_sub_mem_values (hf : f.IsBinary) (hg : g.IsBinary) (hembeds : f.Embeds g)
    (hbias : f.bias < g.bias) (hcount : f.gridCount f.infinity ≤ g.mantissaSpan)
    (ha : ((a : ℚ) : Extended) ∈ f.values) (hb : ((b : ℚ) : Extended) ∈ f.values) :
    ((|a - b| : ℚ) : Extended) ∈ g.values := by
  obtain ⟨x, hx, rfl⟩ := exists_int_mul_leastUnit hf ha
  obtain ⟨y, hy, rfl⟩ := exists_int_mul_leastUnit hf hb
  have hshort : (x - y).natAbs < 2 * f.gridCount f.infinity := by omega
  have hunit : g.minExponent - g.mantissaBits ≤ f.minExponent - f.mantissaBits := by
    have hbits := hembeds.mantissaBits_le
    unfold minExponent
    omega
  have hrange : ((x - y).natAbs : ℚ) * 2 ^ (f.minExponent - f.mantissaBits) < 2 ^ (g.maxExponent + 1) :=
    calc ((x - y).natAbs : ℚ) * 2 ^ (f.minExponent - f.mantissaBits)
        < (2 * f.gridCount f.infinity : ℕ) * 2 ^ (f.minExponent - f.mantissaBits) := by gcongr
      _ = 2 * f.magnitudeValue f.infinity := by rw [magnitudeValue, Nat.cast_mul, Nat.cast_two, mul_assoc]
      _ = 2 ^ (f.maxExponent + 1 + 1) := by
        rw [hf.magnitudeValue_infinity, mul_comm, zpow_add_one₀ (by norm_num) (f.maxExponent + 1)]
      _ ≤ 2 ^ (g.maxExponent + 1) :=
        zpow_le_zpow_right₀ (by norm_num) (by unfold maxExponent; omega)
  obtain ⟨m, hm, hv⟩ := hg.exists_magnitudeValue_eq (hshort.trans_le (by omega)) hunit hrange
  rw [← sub_mul, ← Int.cast_sub, abs_int_mul_zpow, ← hv]
  exact coe_magnitudeValue_mem_values hg hm

end Format

namespace Scalar

variable {f : Format} {x y : Scalar f}

/-! ## NaN operands -/

theorem isNaN_quieted (hf : f.IsBinary) (hx : x.isNaN = true) : x.quieted.isNaN = true := by
  have hspan := f.infinity_add_mantissaSpan
  have hquiet := hf.quietBit_lt
  have hmask : x.magnitude ||| f.quietBit < f.signMask :=
    Nat.or_lt_two_pow x.magnitude_lt (show f.quietBit < f.signMask by omega)
  rw [isNaN_iff] at hx ⊢
  rw [quieted, magnitude_ofParts _ hmask]
  exact hx.trans_le Nat.left_le_or

theorem isNaN_propagate (hf : f.IsBinary) (h : x.isNaN = true ∨ y.isNaN = true) :
    (propagate x y).isNaN = true := by
  unfold propagate
  split
  case isTrue hx => exact isNaN_quieted hf hx
  case isFalse hx => exact isNaN_quieted hf (h.resolve_left hx)

/-- A difference with a NaN is a NaN. -/
theorem isNaN_sub (hf : f.IsBinary) (h : x.isNaN = true ∨ y.isNaN = true) : (x.sub y).isNaN = true := by
  unfold sub
  split
  · exact isNaN_propagate hf h
  case isFalse hy =>
    have hx := h.resolve_right hy
    rw [add, datum_of_isNaN hx]
    exact isNaN_propagate hf (.inl hx)

/-! ## Values of differences -/

theorem value?_ofParts_nearest (hf : f.IsBinary) (v : ℚ) :
    (ofParts f false (f.nearest v)).value? = some (f.rounded v) := by
  obtain ⟨hnan, hordinal⟩ := ordinal_ofParts (f := f) false (Format.nearest_le_infinity hf v)
  rw [value?_of_not_isNaN hf hnan, hordinal]
  rfl

theorem value?_ofInt_eq_rounded (hf : f.IsBinary) (n : ℕ) : (ofInt f n).value? = some (f.rounded n) := by
  have hencode : f.encodeRatio .nearestEven false n 1 0 = f.nearest n :=
    Format.encodeRatio_eq_nearest hf false Nat.one_pos (by simp)
  have hint : ofInt f n = ofParts f false (f.nearest n) := by
    have hsign : decide ((n : ℤ) < 0) = false := decide_eq_false (by omega)
    rw [ofInt, Exact.round_eq_ofParts, Exact.ofInt, Int.natAbs_natCast, hsign, hencode]
  rw [hint, value?_ofParts_nearest hf]

theorem IsNearest.value?_abs (hf : f.IsBinary) {v : ℚ} (h : x.IsNearest v) :
    x.abs.value? = some (f.rounded v) := by
  obtain ⟨negative, -, rfl⟩ := h
  have hmask := (Format.nearest_le_infinity hf v).trans_lt f.infinity_lt_signMask
  rw [abs, magnitude_ofParts _ hmask, value?_ofParts_nearest hf]

/-- Unless both are the same one, an infinity stays in the difference. -/
theorem magnitude_sub_of_infinite (hx : x.isNaN = false) (hy : y.isNaN = false)
    (h : x.magnitude = f.infinity ∨ y.magnitude = f.infinity) (hne : x.value? ≠ y.value?) :
    (x.sub y).magnitude = f.infinity := by
  have hinfinity (negative : Bool) : (infinity f negative).magnitude = f.infinity :=
    magnitude_ofParts _ f.infinity_lt_signMask
  rw [sub, if_neg (by simp [hy]), add]
  rcases ((not_isNaN_iff x).1 hx).lt_or_eq with hx' | hx'
  · have hy' := h.resolve_left hx'.ne
    rw [datum_of_finite hx', datum_of_infinite (y.magnitude_neg.trans hy')]
    exact hinfinity _
  · rcases ((not_isNaN_iff y).1 hy).lt_or_eq with hy' | hy'
    · rw [datum_of_infinite hx', datum_of_finite (y.magnitude_neg.trans_lt hy')]
      exact hinfinity _
    · -- the infinities differ, so that the difference adds two of one sign
      have hsign : x.isNegative = y.neg.isNegative := by
        rw [value?_of_infinite hx', value?_of_infinite hy'] at hne
        rw [isNegative_neg, Bool.eq_not]
        exact fun hsame => hne (by rw [hsame])
      rw [datum_of_infinite hx', datum_of_infinite (y.magnitude_neg.trans hy')]
      dsimp only
      rw [if_pos hsign]
      exact hinfinity _

/-- The absolute difference of numbers with different values. -/
theorem value?_abs_sub (hf : f.IsBinary) {v w : Extended} (hx : x.value? = some v) (hy : y.value? = some w)
    (hne : v ≠ w) : (x.sub y).abs.value? = some (f.absError v w) := by
  have hxnan := isNaN_of_value?_eq hf hx
  have hynan := isNaN_of_value?_eq hf hy
  have hinfinite (h : x.magnitude = f.infinity ∨ y.magnitude = f.infinity) :
      (x.sub y).abs.value? = some ⊤ := by
    have hmag := magnitude_sub_of_infinite hxnan hynan h (by simpa [hx, hy] using hne)
    rw [abs, hmag, value?_of_infinite (magnitude_ofParts _ f.infinity_lt_signMask),
      isNegative_ofParts _ f.infinity_lt_signMask]
    rfl
  rcases ((not_isNaN_iff x).1 hxnan).lt_or_eq with hx' | hx'
  · rcases ((not_isNaN_iff y).1 hynan).lt_or_eq with hy' | hy'
    · obtain rfl := Option.some.inj (hx.symm.trans (value?_of_finite hx'))
      obtain rfl := Option.some.inj (hy.symm.trans (value?_of_finite hy'))
      rw [(sub_isNearest hf hx hy).value?_abs hf, Format.absError_coe]
    · obtain rfl := Option.some.inj (hy.symm.trans (value?_of_infinite hy'))
      rw [hinfinite (.inr hy'), f.absError_infinite_right]
  · obtain rfl := Option.some.inj (hx.symm.trans (value?_of_infinite hx'))
    rw [hinfinite (.inl hx'), f.absError_infinite_left]

end Scalar

end PrecisionAudit
