import Mathlib
import PrecisionAudit.Proofs.Scalar.Integers
import PrecisionAudit.Proofs.Scalar.SharedExponents

/-!
# Stochastic rounding

Rounding to half precision with random bits below the last kept place. Counted with the bias of half
precision, a magnitude of single precision is a magnitude of half precision followed by the bits that are
discarded. The dither is added to the whole, and a carry raises what is kept by one place, through the
exponent and up to infinity.

## Layers

1. `Format.IsNarrow.magnitudeValue_offset_add`: the discarded bits divide a step of the format evenly.
2. `Half.dithered`, `Half.ofSingleStochastic_eq`: one formula for all numbers, whatever their branch.
3. `Half.Splits`: numbers in the range of half precision, as what is kept and what is discarded.

## Main results

- `Half.ofSingleStochastic_unbiased`: in the range of half precision the mean over all dithers is the number
  itself, as many dithers raise it as there are discarded units, and none moves a number of half precision.
- `Half.ofSingleStochastic_mono`: under one dither rounding keeps the order of all numbers, and a larger
  dither never gives a smaller magnitude.
-/

namespace PrecisionAudit

namespace Format

variable {f : Format}

/-- How far the magnitudes of single precision are ahead of those of the format: the difference of the
biases, in the exponent field. -/
def offset (f : Format) : ℕ := (single.bias - f.bias).toNat * single.mantissaSpan

/-- A normal magnitude of single precision, counted with the bias of a narrow format, is a magnitude `k` of
the format followed by dropped bits `rest`. They divide the step from `k` to the next magnitude evenly. -/
theorem IsNarrow.magnitudeValue_offset_add (hf : f.IsNarrow) {m k rest : ℕ}
    (hm : m = k * 2 ^ (single.mantissaBits - f.mantissaBits) + rest)
    (hrest : rest < 2 ^ (single.mantissaBits - f.mantissaBits)) (hnormal : single.mantissaSpan ≤ m) :
    single.magnitudeValue (f.offset + m) =
      f.magnitudeValue k + rest / 2 ^ (single.mantissaBits - f.mantissaBits) *
        (f.magnitudeValue (k + 1) - f.magnitudeValue k) := by
  have hspan := hf.mantissaSpan_mul
  have hunit : f.minExponent - f.mantissaBits =
      ((single.bias - f.bias).toNat : ℤ) + (single.mantissaBits - f.mantissaBits : ℕ) +
        (single.minExponent - single.mantissaBits) := by
    have hbits : f.mantissaBits ≤ single.mantissaBits := hf.mantissaBits_le
    have hbias := hf.embeds.bias_le
    unfold minExponent
    omega
  obtain ⟨q, n, hk, hlow, hhigh, hq⟩ := f.exists_significand k
  have hcount : f.gridCount k = n * 2 ^ q := by rw [hk, f.gridCount_mul_add hlow hhigh.le]
  have hstep : f.gridCount (k + 1) = n * 2 ^ q + 2 ^ q := by rw [f.gridCount_succ, hq, hcount]
  rw [offset]
  generalize single.mantissaBits - f.mantissaBits = dropped at *
  generalize (single.bias - f.bias).toNat = ahead at *
  have hsum : ahead * single.mantissaSpan + m =
      (ahead + q) * single.mantissaSpan + (n * 2 ^ dropped + rest) := by
    rw [hm, hk, ← hspan]
    ring
  -- the significand, dropped bits included, has its leading bit
  have hlead : single.mantissaSpan ≤ n * 2 ^ dropped + rest := by
    rcases hlow with rfl | hlow
    · rwa [hm, hk, Nat.zero_mul, Nat.zero_add] at hnormal
    · rw [← hspan]
      exact (Nat.mul_le_mul_right _ hlow).trans (Nat.le_add_right _ _)
  have hshort : n * 2 ^ dropped + rest ≤ 2 * single.mantissaSpan := by
    have hle : (n + 1) * 2 ^ dropped ≤ 2 * f.mantissaSpan * 2 ^ dropped := Nat.mul_le_mul_right _ hhigh
    rw [Nat.mul_assoc, hspan, Nat.add_one_mul] at hle
    omega
  rw [magnitudeValue, magnitudeValue, magnitudeValue, hsum, single.gridCount_mul_add (.inr hlead) hshort,
    hstep, hcount, hunit, zpow_add₀ (by norm_num : (2 : ℚ) ≠ 0), zpow_add₀ (by norm_num : (2 : ℚ) ≠ 0),
    zpow_natCast, zpow_natCast]
  push_cast
  field_simp
  ring

end Format

/-! ## Narrowing at both ends of the range -/

namespace Scalar

variable {f : Format}

/-- Rounding toward zero finds the last magnitude that the number does not stay below. -/
theorem magnitude_narrow_towardZero (hf : f.IsNarrow) {x : Single} (hx : x.isFinite = true) {k : ℕ}
    (hk : k < f.infinity) (hlow : f.magnitudeValue k ≤ Format.single.magnitudeValue x.magnitude)
    (hhigh : Format.single.magnitudeValue x.magnitude < f.magnitudeValue (k + 1)) :
    (narrow f x .towardZero).magnitude = k := by
  have hle := f.encodeRatio_le_infinity hf.toIsBinary .towardZero x.exact.negative x.exact.significand
    Nat.one_pos x.exact.exponent
  have hvalue : (x.exact.significand : ℚ) / (1 : ℕ) * 2 ^ x.exact.exponent =
      Format.single.magnitudeValue x.magnitude := by
    rw [Nat.cast_one, div_one, exact_magnitudeValue]
  rw [narrow_eq_convert_of_isNarrow hf, convert_of_finite ((isFinite_iff x).1 hx), Exact.round_eq_ofParts,
    magnitude_ofParts _ (hle.trans_lt f.infinity_lt_signMask)]
  rcases Nat.eq_zero_or_pos x.exact.significand with hzero | hpos
  · -- only the least magnitude is not above zero
    rw [hzero, Nat.cast_zero, zero_div, zero_mul] at hvalue
    rw [← hvalue, ← f.magnitudeValue_zero, f.magnitudeValue_strictMono.le_iff_le] at hlow
    rw [hzero, Format.encodeRatio, if_pos rfl]
    exact (Nat.le_zero.1 hlow).symm
  · have hiff (j : ℕ) : j ≤ f.encodeRatio .towardZero x.exact.negative x.exact.significand 1 x.exact.exponent ↔
        j < f.infinity ∧ f.magnitudeValue j ≤ Format.single.magnitudeValue x.magnitude := by
      rw [Format.le_encodeRatio_iff hf.toIsBinary (by simp) rfl hpos Nat.one_pos, hvalue]
    have hge := (hiff k).2 ⟨hk, hlow⟩
    have hlt := mt (hiff (k + 1)).1 fun h => hhigh.not_ge h.2
    omega

/-- The denormals of single precision are far below the least step of half precision. -/
theorem ofSingle_half_of_exponentField_eq_zero {x : Single} (hx : x.exponentField = 0) :
    ofSingle .half x = ofParts .half x.isNegative 0 := by
  by_cases hzero : x.mantissaField = 0
  · have hmag : x.magnitude = 0 := by rw [magnitude_eq, hx, hzero, Nat.zero_mul]
    exact narrow_of_isZero Format.half_isNarrow ((isZero_iff x).2 hmag) _
  · have hlog : x.mantissaField.log2 < 23 := (Nat.log2_lt hzero).2 x.mantissaField_lt
    have hdenormal : x.isDenormal = true := by simp [isDenormal, hx, hzero]
    have hshift : (Format.half.minExponent - Format.half.mantissaBits -
      (Format.single.minExponent - Format.single.mantissaBits)).toNat = 125 := rfl
    rw [ofSingle, narrow_eq_ite, if_pos hdenormal]
    dsimp only
    rw [Format.half.assemble_below _ _ _ (by decide) (by decide), Format.roundAtUnit, if_neg (by decide),
      hshift, RoundingMode.roundShift, if_neg (by decide), if_pos (by omega)]
    rfl

/-- The low bits of a word are those of the number that it is made of. -/
theorem toNat_ofNat_mod (word : ℕ) {bits : ℕ} (hbits : bits ≤ f.storageWidth) :
    (ofNat f word).toNat % 2 ^ bits = word % 2 ^ bits := by
  rw [toNat, ofNat, BitVec.toNat_ofNat, Nat.mod_mod_of_dvd _ (Nat.pow_dvd_pow 2 hbits)]

end Scalar

namespace Half

/-! ## One formula for all numbers -/

/-- The magnitude that a dither makes of a magnitude of single precision: zero below the normal numbers of
half precision, and else what is left of the sum without the discarded bits, up to infinity. -/
def dithered (m dither : ℕ) : ℕ :=
  if m < Format.half.offset + Format.single.mantissaSpan then
    0
  else
    min Format.half.infinity ((m - Format.half.offset + dither) / discardedSpan)

theorem dithered_zero (dither : ℕ) : dithered 0 dither = 0 := if_pos (by decide)

theorem dithered_le_infinity (m dither : ℕ) : dithered m dither ≤ Format.half.infinity := by
  unfold dithered
  split
  · exact Nat.zero_le _
  · exact min_le_left _ _

theorem dithered_mono {m m' dither dither' : ℕ} (hm : m ≤ m') (hdither : dither ≤ dither') :
    dithered m dither ≤ dithered m' dither' := by
  unfold dithered
  split
  case isTrue => exact Nat.zero_le _
  case isFalse hnormal =>
    rw [if_neg (by omega)]
    exact min_le_min_left _ (Nat.div_le_div_right (by omega))

/-- The dither does not reach a NaN. -/
theorem ofSingleStochastic_of_isNaN {value : Single} (hvalue : value.isNaN = true) (random : Single) :
    ofSingleStochastic value random = .ofSingle .half value := by
  have hfield : value.exponentField = Format.single.exponentFieldMax := by
    rw [Scalar.exponentField_eq_max_iff]
    exact ((Scalar.isNaN_iff value).1 hvalue).le
  simp only [ofSingleStochastic, hfield, or_true, if_true]

/-- Every number keeps its sign and has its magnitude dithered. -/
theorem ofSingleStochastic_eq {value : Single} (hvalue : value.isNaN = false) (random : Single) :
    ofSingleStochastic value random =
      .ofParts .half value.isNegative (dithered value.magnitude (random.toNat % discardedSpan)) := by
  have hmag : value.magnitude = value.exponentField * 2 ^ 23 + value.mantissaField := value.magnitude_eq
  have hmantissa : value.mantissaField < 2 ^ 23 := value.mantissaField_lt
  have hdither : random.toNat % 2 ^ 13 < 2 ^ 13 := Nat.mod_lt _ (Nat.two_pow_pos 13)
  have hdiscarded : discardedSpan = 2 ^ 13 := rfl
  have hoffset : Format.half.offset = 112 * 2 ^ 23 := rfl
  have hspan : Format.single.mantissaSpan = 2 ^ 23 := rfl
  have hhalf : Format.half.mantissaSpan = 2 ^ 10 := rfl
  have hinf : Format.half.infinity = 31 * 2 ^ 10 := rfl
  have hbias : Format.single.bias = 127 := rfl
  have hhalfBias : Format.half.bias = 15 := rfl
  have hleast : Format.half.minExponent = -14 := rfl
  have hmost : Format.half.maxExponent = 15 := rfl
  rw [ofSingleStochastic, dithered, hdiscarded]
  generalize random.toNat % 2 ^ 13 = dither at *
  dsimp only
  by_cases hzero : value.exponentField = 0
  · rw [if_pos (.inl hzero), if_pos (by omega), Scalar.ofSingle_half_of_exponentField_eq_zero hzero]
  by_cases hmax : value.exponentField = Format.single.exponentFieldMax
  · have hinfinite : value.isInfinite = true := by
      rw [Scalar.isInfinite_iff]
      exact le_antisymm ((Scalar.not_isNaN_iff value).1 hvalue) ((value.exponentField_eq_max_iff).1 hmax)
    have hfield : value.exponentField = 255 := hmax
    rw [if_pos (.inr hmax), if_neg (by omega), min_eq_left (by omega), Scalar.ofSingle,
      Scalar.narrow_of_isInfinite Format.half_isNarrow hinfinite, Scalar.infinity]
  rw [if_neg (not_or.2 ⟨hzero, hmax⟩)]
  by_cases hbelow : (value.exponentField : ℤ) - Format.single.bias < Format.half.minExponent
  · rw [if_pos hbelow, if_pos (by omega)]
  rw [if_neg hbelow]
  by_cases habove : Format.half.maxExponent < (value.exponentField : ℤ) - Format.single.bias
  · rw [if_pos habove, if_neg (by omega), min_eq_left (by omega), Scalar.infinity]
  -- in the range the sum of the fields is the sum of the whole, with the other bias
  rw [if_neg habove, if_neg (by omega), min_eq_right (by omega), hhalf]
  refine congrArg (Scalar.ofParts .half value.isNegative) ?_
  omega

theorem ordinal_ofSingleStochastic {value : Single} (hvalue : value.isNaN = false) (random : Single) :
    (ofSingleStochastic value random).isNaN = false ∧ (ofSingleStochastic value random).ordinal =
      if value.isNegative then -(dithered value.magnitude (random.toNat % discardedSpan) : ℤ)
      else dithered value.magnitude (random.toNat % discardedSpan) := by
  rw [ofSingleStochastic_eq hvalue]
  exact Scalar.ordinal_ofParts _ (dithered_le_infinity _ _)

/-! ## Numbers in the range -/

/-- A normal number in the range of half precision, as the magnitude that is kept and the bits that are
discarded. -/
structure Splits (value : Single) (kept rest : ℕ) : Prop where
  kept_lt : kept < Format.half.infinity
  rest_lt : rest < 2 ^ 13
  isNormal : Format.single.mantissaSpan ≤ kept * 2 ^ 13 + rest
  magnitude_eq : value.magnitude = Format.half.offset + (kept * 2 ^ 13 + rest)

/-- A number with an exponent of half precision is split at the low bits of its word. -/
theorem exists_splits {value : Single}
    (hrange : (value.exponentField : ℤ) - Format.single.bias ∈ Set.Icc (-14) 15) :
    ∃ kept, Splits value kept (value.toNat % 2 ^ 13) := by
  obtain ⟨hlow, hhigh⟩ := hrange
  have hmag : value.magnitude = value.exponentField * 2 ^ 23 + value.mantissaField := value.magnitude_eq
  have hmantissa : value.mantissaField < 2 ^ 23 := value.mantissaField_lt
  have hbias : Format.single.bias = 127 := rfl
  have hoffset : Format.half.offset = 112 * 2 ^ 23 := rfl
  have hspan : Format.single.mantissaSpan = 2 ^ 23 := rfl
  have hinf : Format.half.infinity = 31 * 2 ^ 10 := rfl
  -- the sign bit is not one of the low bits
  have hword : value.toNat % 2 ^ 13 = value.magnitude % 2 ^ 13 := by
    have hmask : Format.single.signMask = 2 ^ 31 := rfl
    rw [Scalar.toNat_eq_packed, Scalar.packed_eq]
    split <;> omega
  exact ⟨value.magnitude / 2 ^ 13 - 112 * 2 ^ 10, by omega, by omega, by omega, by omega⟩

/-- As many dithers carry as there are discarded units. -/
theorem card_carry {rest : ℕ} (hrest : rest < 2 ^ 13) :
    ({dither ∈ Finset.range (2 ^ 13) | 2 ^ 13 ≤ rest + dither} : Finset ℕ).card = rest := by
  have hfilter : ({dither ∈ Finset.range (2 ^ 13) | 2 ^ 13 ≤ rest + dither} : Finset ℕ) =
      Finset.Ico (2 ^ 13 - rest) (2 ^ 13) := by
    ext dither
    rw [Finset.mem_filter, Finset.mem_range, Finset.mem_Ico]
    omega
  rw [hfilter, Nat.card_Ico]
  omega

namespace Splits

variable {value : Single} {kept rest : ℕ} (h : Splits value kept rest)

include h

theorem magnitude_lt : value.magnitude < Format.single.infinity := by
  have hoffset : Format.half.offset = 112 * 2 ^ 23 := rfl
  have hinf : Format.half.infinity = 31 * 2 ^ 10 := rfl
  have hsingle : Format.single.infinity = 255 * 2 ^ 23 := rfl
  have hmag := h.magnitude_eq
  have hkept := h.kept_lt
  have hrest := h.rest_lt
  omega

/-- The number lies as far into the step above what is kept as there are discarded units. -/
theorem magnitudeValue_eq : Format.single.magnitudeValue value.magnitude =
    Format.half.magnitudeValue kept +
      rest / 2 ^ 13 * (Format.half.magnitudeValue (kept + 1) - Format.half.magnitudeValue kept) := by
  rw [h.magnitude_eq]
  exact Format.half_isNarrow.magnitudeValue_offset_add rfl h.rest_lt h.isNormal

theorem between :
    Format.half.magnitudeValue kept ≤ Format.single.magnitudeValue value.magnitude ∧
      Format.single.magnitudeValue value.magnitude < Format.half.magnitudeValue (kept + 1) := by
  have hstep : Format.half.magnitudeValue kept < Format.half.magnitudeValue (kept + 1) :=
    Format.half.magnitudeValue_strictMono (Nat.lt_succ_self kept)
  have hnonneg : (0 : ℚ) ≤ rest / 2 ^ 13 := by positivity
  have hlt : (rest : ℚ) / 2 ^ 13 < 1 := by
    rw [div_lt_one (by positivity)]
    exact_mod_cast h.rest_lt
  have hpart := mul_lt_of_lt_one_left (sub_pos.2 hstep) hlt
  rw [h.magnitudeValue_eq]
  exact ⟨le_add_of_nonneg_right (mul_nonneg hnonneg (sub_nonneg.2 hstep.le)), by linarith⟩

/-- What is kept is the rounding toward zero. -/
theorem magnitude_narrow : (Scalar.narrow .half value .towardZero).magnitude = kept :=
  Scalar.magnitude_narrow_towardZero Format.half_isNarrow ((Scalar.isFinite_iff value).2 h.magnitude_lt)
    h.kept_lt h.between.1 h.between.2

/-- The dither raises what is kept if it carries out of the discarded bits. -/
theorem ofSingleStochastic_eq_carry (random : Single) :
    ofSingleStochastic value random = .ofParts .half value.isNegative
      (if 2 ^ 13 ≤ rest + random.toNat % 2 ^ 13 then kept + 1 else kept) := by
  have hdither : random.toNat % 2 ^ 13 < 2 ^ 13 := Nat.mod_lt _ (Nat.two_pow_pos 13)
  have hnan : value.isNaN = false := (Scalar.not_isNaN_iff value).2 h.magnitude_lt.le
  have hmag := h.magnitude_eq
  have hkept := h.kept_lt
  have hrest := h.rest_lt
  have hnormal := h.isNormal
  rw [ofSingleStochastic_eq hnan, dithered, show discardedSpan = 2 ^ 13 from rfl]
  generalize random.toNat % 2 ^ 13 = dither at *
  rw [if_neg (by omega)]
  refine congrArg (Scalar.ofParts .half value.isNegative) ?_
  split
  case isTrue hcarry => omega
  case isFalse hcarry => omega

theorem fields_ofSingleStochastic (random : Single) :
    (ofSingleStochastic value random).isNegative = value.isNegative ∧
      (ofSingleStochastic value random).magnitude =
        if 2 ^ 13 ≤ rest + random.toNat % 2 ^ 13 then kept + 1 else kept := by
  have hlt : (if 2 ^ 13 ≤ rest + random.toNat % 2 ^ 13 then kept + 1 else kept) < Format.half.signMask := by
    have hmask := Format.half.infinity_lt_signMask
    have hkept := h.kept_lt
    split <;> omega
  rw [h.ofSingleStochastic_eq_carry]
  exact ⟨Scalar.isNegative_ofParts _ hlt, Scalar.magnitude_ofParts _ hlt⟩

theorem magnitude_eq_or (random : Single) :
    (ofSingleStochastic value random).magnitude = kept ∨
      (ofSingleStochastic value random).magnitude = kept + 1 := by
  rw [(h.fields_ofSingleStochastic random).2]
  exact (ite_eq_or_eq _ _ _).symm

/-- Only the magnitude above the largest finite one is infinity. -/
theorem isInfinite_iff (random : Single) : (ofSingleStochastic value random).isInfinite = true ↔
    kept = Format.half.maxFinite ∧ (ofSingleStochastic value random).magnitude = kept + 1 := by
  have hmax := Format.half_isNarrow.maxFinite_add_one
  have hkept := h.kept_lt
  have hor := h.magnitude_eq_or random
  rw [Scalar.isInfinite_iff]
  omega

/-- A dither in the range is the dither of the number made of it. -/
theorem magnitude_ofNat {dither : ℕ} (hdither : dither ∈ Finset.range (2 ^ 13)) :
    (ofSingleStochastic value (.ofNat .single dither)).magnitude =
      if 2 ^ 13 ≤ rest + dither then kept + 1 else kept := by
  rw [(h.fields_ofSingleStochastic _).2, Scalar.toNat_ofNat_mod _ (by decide),
    Nat.mod_eq_of_lt (Finset.mem_range.1 hdither)]

/-- As many dithers give the larger magnitude as there are discarded units. -/
theorem card_larger :
    ({dither ∈ Finset.range (2 ^ 13) |
      (ofSingleStochastic value (.ofNat .single dither)).magnitude = kept + 1} : Finset ℕ).card = rest := by
  refine (congrArg Finset.card (Finset.filter_congr fun dither hdither => ?_)).trans (card_carry h.rest_lt)
  rw [h.magnitude_ofNat hdither]
  split
  case isTrue hcarry => exact iff_of_true rfl hcarry
  case isFalse hcarry => exact iff_of_false kept.lt_succ_self.ne hcarry

/-- Over all dithers the magnitudes add up to as many times the number. -/
theorem sum_magnitudeValue :
    ∑ dither ∈ Finset.range (2 ^ 13),
      Format.half.magnitudeValue (if 2 ^ 13 ≤ rest + dither then kept + 1 else kept) =
        2 ^ 13 * Format.single.magnitudeValue value.magnitude := by
  set step := Format.half.magnitudeValue (kept + 1) - Format.half.magnitudeValue kept with hstep
  calc _ = ∑ dither ∈ Finset.range (2 ^ 13),
        (Format.half.magnitudeValue kept + if 2 ^ 13 ≤ rest + dither then step else 0) := by
        refine Finset.sum_congr rfl fun dither _ => ?_
        split
        · rw [hstep, add_sub_cancel]
        · rw [add_zero]
    _ = 2 ^ 13 * Format.half.magnitudeValue kept + rest * step := by
        rw [Finset.sum_add_distrib, ← Finset.sum_filter, Finset.sum_const, Finset.sum_const,
          card_carry h.rest_lt, Finset.card_range, nsmul_eq_mul, nsmul_eq_mul]
        norm_num
    _ = 2 ^ 13 * Format.single.magnitudeValue value.magnitude := by
        rw [h.magnitudeValue_eq, mul_add, ← mul_assoc, mul_div_cancel₀ _ (by positivity)]

/-- Over all dithers the results add up to as many times the number. -/
theorem sum_gridValue :
    ∑ dither ∈ Finset.range (2 ^ 13),
      Format.half.gridValue (ofSingleStochastic value (.ofNat .single dither)).ordinal =
        2 ^ 13 * value.exact.value := by
  rw [Exact.value, Scalar.exact_magnitudeValue, Scalar.exact_negative, mul_left_comm,
    ← h.sum_magnitudeValue, Finset.mul_sum]
  refine Finset.sum_congr rfl fun dither hdither => ?_
  rw [Scalar.gridValue_ordinal, (h.fields_ofSingleStochastic _).1, h.magnitude_ofNat hdither]

/-- Nothing is discarded of a number that half precision has. -/
theorem rest_eq_zero {w : Extended} (hw : w ∈ Format.half.values) (hvalue : value.value? = some w) :
    rest = 0 := by
  have hmono := Format.half.magnitudeValue_strictMono
  have hstep := hmono (Nat.lt_succ_self kept)
  obtain ⟨hlow, hhigh⟩ := h.between
  obtain ⟨m, hm⟩ : ∃ m, Format.half.magnitudeValue m = Format.single.magnitudeValue value.magnitude := by
    rw [Scalar.value?_of_finite h.magnitude_lt, Option.some_inj] at hvalue
    obtain ⟨n, -, hgrid⟩ := (Format.coe_mem_values_iff Format.half_isNarrow.toIsBinary _).1 (hvalue ▸ hw)
    exact ⟨n.natAbs, by rw [← Format.half.abs_gridValue, hgrid, Format.single.abs_gridValue,
      Scalar.natAbs_ordinal]⟩
  rw [← hm] at hlow hhigh
  -- between what is kept and the next magnitude there is no other one
  have hsame : m = kept :=
    le_antisymm (Nat.lt_succ_iff.1 (hmono.lt_iff_lt.1 hhigh)) (hmono.le_iff_le.1 hlow)
  have hsum := h.magnitudeValue_eq
  rw [← hm, hsame, left_eq_add, mul_eq_zero, div_eq_zero_iff] at hsum
  rcases hsum with (hrest | hpow) | hgap
  · exact_mod_cast hrest
  · norm_num at hpow
  · exact absurd hgap (sub_pos.2 hstep).ne'

/-- A number of half precision does not move. -/
theorem value?_ofSingleStochastic {w : Extended} (hw : w ∈ Format.half.values) (hvalue : value.value? = some w)
    (random : Single) : (ofSingleStochastic value random).value? = some w := by
  have hrest := h.rest_eq_zero hw hvalue
  have hdither := Nat.mod_lt random.toNat (Nat.two_pow_pos 13)
  rw [h.ofSingleStochastic_eq_carry, if_neg (by omega), ← hvalue]
  refine Scalar.value?_ofParts_eq h.magnitude_lt h.kept_lt ?_
  rw [h.magnitudeValue_eq, hrest, Nat.cast_zero, zero_div, zero_mul, add_zero]

end Splits

/-- In the range of half precision a number becomes, under its own sign, the magnitude of its rounding toward
zero or the next one, which is infinity where the first one is the largest finite one. Only the low bits of
the dither count, and as many of them give the larger magnitude as the number has discarded units: the mean
over all of them, with infinity at its place on the grid, is the number, and a number of half precision does
not move. -/
theorem ofSingleStochastic_unbiased {value : Single}
    (hrange : (value.exponentField : ℤ) - Format.single.bias ∈ Set.Icc (-14) 15) :
    let kept := (Scalar.narrow .half value .towardZero).magnitude
    (∀ random : Single,
      (ofSingleStochastic value random).isNegative = value.isNegative ∧
        ((ofSingleStochastic value random).magnitude = kept ∨
          (ofSingleStochastic value random).magnitude = kept + 1) ∧
        ((ofSingleStochastic value random).isInfinite = true ↔
          kept = Format.half.maxFinite ∧ (ofSingleStochastic value random).magnitude = kept + 1)) ∧
      (∀ random random' : Single, random.toNat % 2 ^ 13 = random'.toNat % 2 ^ 13 →
        ofSingleStochastic value random = ofSingleStochastic value random') ∧
      ({dither ∈ Finset.range (2 ^ 13) |
        (ofSingleStochastic value (.ofNat .single dither)).magnitude = kept + 1} : Finset ℕ).card =
          value.toNat % 2 ^ 13 ∧
      ∑ dither ∈ Finset.range (2 ^ 13),
        Format.half.gridValue (ofSingleStochastic value (.ofNat .single dither)).ordinal =
          2 ^ 13 * value.exact.value ∧
      ∀ w ∈ Format.half.values, value.value? = some w →
        ∀ random : Single, (ofSingleStochastic value random).value? = some w := by
  intro kept
  obtain ⟨k, h⟩ := exists_splits hrange
  obtain rfl : kept = k := h.magnitude_narrow
  refine ⟨fun random => ?_, fun random random' hsame => ?_, h.card_larger, h.sum_gridValue,
    fun w hw hvalue => h.value?_ofSingleStochastic hw hvalue⟩
  · exact ⟨(h.fields_ofSingleStochastic random).1, h.magnitude_eq_or random, h.isInfinite_iff random⟩
  · rw [h.ofSingleStochastic_eq_carry, h.ofSingleStochastic_eq_carry, hsame]

/-- Of a negative number just beyond the largest finite one of half precision, one dither makes the infinity. -/
theorem ofSingleStochastic_unbiased_top :
    let value : Single := .ofNat .single 0xc77fe001
    (value.exponentField : ℤ) - Format.single.bias ∈ Set.Icc (-14) 15 ∧
      ({dither ∈ Finset.range (2 ^ 13) | (ofSingleStochastic value (.ofNat .single dither)).magnitude =
        Format.half.infinity} : Finset ℕ).card = 1 := by
  intro value
  have hrange : (value.exponentField : ℤ) - Format.single.bias ∈ Set.Icc (-14) 15 := by decide +kernel
  have hkept : (Scalar.narrow .half value .towardZero).magnitude + 1 = Format.half.infinity := by
    decide +kernel
  obtain ⟨-, -, hcard, -⟩ := ofSingleStochastic_unbiased hrange
  rw [hkept] at hcard
  exact ⟨hrange, hcard.trans (by decide +kernel)⟩

/-! ## Order -/

/-- Under one dither, rounding keeps the order of the ordinals. -/
theorem ordinal_ofSingleStochastic_le {x y : Single} (hx : x.isNaN = false) (hy : y.isNaN = false)
    (hle : x.ordinal ≤ y.ordinal) (random : Single) :
    (ofSingleStochastic x random).ordinal ≤ (ofSingleStochastic y random).ordinal := by
  rw [(ordinal_ofSingleStochastic hx random).2, (ordinal_ofSingleStochastic hy random).2]
  unfold Scalar.ordinal at hle
  generalize random.toNat % discardedSpan = dither
  have hup (h : x.magnitude ≤ y.magnitude) := dithered_mono h (le_refl dither)
  have hdown (h : y.magnitude ≤ x.magnitude) := dithered_mono h (le_refl dither)
  -- with a negative number on the right, a number on the left that is not negative is zero like it
  have hzero (h : x.magnitude = 0) : dithered x.magnitude dither = 0 := by rw [h, dithered_zero]
  cases hxs : x.isNegative <;> cases hys : y.isNegative <;>
    simp only [hxs, hys, if_true, Bool.false_eq_true, if_false] at hle ⊢ <;> omega

/-- Rounding under one dither keeps the order of all numbers, through zeros, denormals, the range of half
precision, overflow and the infinities, and makes no NaN of a number. A larger dither never gives a smaller
magnitude. -/
theorem ofSingleStochastic_mono :
    (∀ x y random : Single, Precision.single.le x y = true →
      (ofSingleStochastic x random).isNaN = false ∧ (ofSingleStochastic y random).isNaN = false ∧
        Precision.half.le (ofSingleStochastic x random) (ofSingleStochastic y random) = true) ∧
    ∀ x random random' : Single, random.toNat % 2 ^ 13 ≤ random'.toNat % 2 ^ 13 →
      (ofSingleStochastic x random).magnitude ≤ (ofSingleStochastic x random').magnitude := by
  refine ⟨fun x y random hle => ?_, fun x random random' hdither => ?_⟩
  · obtain ⟨hx, hy, hordinal⟩ := (Precision.single.le_iff_ordinal x y).1 hle
    have hxnan := (ordinal_ofSingleStochastic hx random).1
    have hynan := (ordinal_ofSingleStochastic hy random).1
    exact ⟨hxnan, hynan, (Precision.half.le_iff_ordinal _ _).2
      ⟨hxnan, hynan, ordinal_ofSingleStochastic_le hx hy hordinal random⟩⟩
  · cases hx : x.isNaN with
    | true => rw [ofSingleStochastic_of_isNaN hx, ofSingleStochastic_of_isNaN hx]
    | false =>
      have hmask (dither : ℕ) :=
        (dithered_le_infinity x.magnitude dither).trans_lt Format.half.infinity_lt_signMask
      rw [ofSingleStochastic_eq hx, ofSingleStochastic_eq hx, Scalar.magnitude_ofParts _ (hmask _),
        Scalar.magnitude_ofParts _ (hmask _)]
      exact dithered_mono le_rfl hdither

/-- Across zero, from a number that becomes a negative infinity to one that is flushed, and two dithers at the
top of the range. -/
theorem ofSingleStochastic_mono_seams :
    Precision.single.le (.ofNat .single 0xc77fffff) (.ofNat .single 0x80000001) = true ∧
      Precision.half.le (ofSingleStochastic (.ofNat .single 0xc77fffff) (.ofNat .single 0x1fff))
        (ofSingleStochastic (.ofNat .single 0x80000001) (.ofNat .single 0x1fff)) = true ∧
      (ofSingleStochastic (.ofNat .single 0x477fe001) (.ofNat .single 0x3f801ffe)).magnitude ≤
        (ofSingleStochastic (.ofNat .single 0x477fe001) (.ofNat .single 0x1fff)).magnitude := by
  have hle : Precision.single.le (.ofNat .single 0xc77fffff) (.ofNat .single 0x80000001) = true := by
    decide +kernel
  exact ⟨hle, (ofSingleStochastic_mono.1 _ _ _ hle).2.2, ofSingleStochastic_mono.2 _ _ _ (by decide +kernel)⟩

end Half

end PrecisionAudit
