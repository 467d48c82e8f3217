import PrecisionAudit.Proofs.Scalar.Narrowing
import PrecisionAudit.Proofs.Scalar.Widening

/-!
# Formats with the exponents of single precision

A narrow format with as many exponent bits as single precision is single precision with a shorter
mantissa: its words are the upper ends of single precision words. Widening appends zeros, narrowing
drops bits and rounds the whole word as an integer, whatever fields a carry runs through.

## Main results

- `Format.SharesExponents.magnitudeValue_mul`: a magnitude followed by zeros keeps its value.
- `Scalar.magnitude_narrow`: narrowing rounds the magnitude as an integer, in every mode.
- `Scalar.widen_narrow_eq_shift`: widening and narrowing as shifts of words.
-/

namespace PrecisionAudit

namespace RoundingMode

variable {mode : RoundingMode} {negative : Bool} {n base den : ℕ}

theorem roundQuotient_zero (mode : RoundingMode) (negative : Bool) (den : ℕ) :
    mode.roundQuotient negative 0 den = 0 := by
  cases mode <;> simp [roundQuotient, incrementsAt]

/-- An even whole part does not take part in the rounding. -/
theorem roundQuotient_mul_add (mode : RoundingMode) (negative : Bool) (hden : 0 < den)
    (heven : base % 2 = 0) :
    mode.roundQuotient negative (base * den + n) den = base + mode.roundQuotient negative n den := by
  have hkept : (base * den + n) / den = base + n / den := by
    rw [Nat.mul_comm, Nat.mul_add_div hden]
  have hrest : (base * den + n) % den = n % den := Nat.mul_add_mod' base den n
  have hparity : (base + n / den) % 2 = n / den % 2 := by omega
  have hinc : mode.incrementsAt negative (base + n / den) (n % den) den =
      mode.incrementsAt negative (n / den) (n % den) den := by
    cases mode <;> simp only [incrementsAt, hparity]
  simp only [roundQuotient, hkept, hrest, hinc]
  split <;> omega

/-- Rounding to nearest even by adding just under half a unit, and the rest of it to an odd kept part. -/
theorem roundQuotient_nearestEven_eq (negative : Bool) (n : ℕ) {k : ℕ} (hk : 1 ≤ k) :
    nearestEven.roundQuotient negative n (2 ^ k) =
      (n + 2 ^ (k - 1) - 1 + n / 2 ^ k % 2) / 2 ^ k := by
  obtain ⟨half, hhalf, hpos⟩ : ∃ half, 2 ^ k = 2 * half ∧ 0 < half :=
    ⟨2 ^ (k - 1), by rw [← pow_succ', Nat.sub_add_cancel hk], Nat.two_pow_pos _⟩
  have hprev : 2 ^ (k - 1) = half := by
    rw [← Nat.mul_left_cancel_iff (show 0 < 2 by norm_num), ← pow_succ', Nat.sub_add_cancel hk, hhalf]
  rw [hprev, hhalf, roundQuotient]
  have hsplit := Nat.div_add_mod n (2 * half)
  have hlt := Nat.mod_lt n (show 0 < 2 * half by omega)
  generalize n / (2 * half) = kept at *
  generalize n % (2 * half) = rest at *
  -- what is added reaches the next unit exactly where the kept part is incremented
  have hsum : n + half - 1 + kept % 2 = 2 * half * kept + (rest + half - 1 + kept % 2) := by omega
  rw [hsum, Nat.mul_add_div (by omega)]
  have hiff : nearestEven.incrementsAt negative kept rest (2 * half) = true ↔
      half < rest ∨ (rest = half ∧ kept % 2 = 1) := by
    simp only [incrementsAt, Bool.or_eq_true, decide_eq_true_eq, Bool.and_eq_true, beq_iff_eq]
    omega
  by_cases hup : half < rest ∨ (rest = half ∧ kept % 2 = 1)
  · rw [if_pos (hiff.2 hup), Nat.div_eq_of_lt_le (k := 1) (by omega) (by omega)]
  · rw [if_neg (mt hiff.1 hup), Nat.div_eq_of_lt (by omega), Nat.add_zero]

end RoundingMode

namespace Format

variable {f : Format}

/-- The format has the exponents of single precision and a shorter mantissa. -/
structure SharesExponents (f : Format) : Prop where
  exponentBits_eq : f.exponentBits = 8
  one_le_mantissaBits : 1 ≤ f.mantissaBits
  mantissaBits_le : f.mantissaBits ≤ 22

/-- The bits of a single precision mantissa for which the format has no room. -/
def droppedBits (f : Format) : ℕ := single.mantissaBits - f.mantissaBits

namespace SharesExponents

theorem isNarrow (hf : f.SharesExponents) : f.IsNarrow where
  two_le_exponentBits := by rw [hf.exponentBits_eq]; norm_num
  one_le_mantissaBits := hf.one_le_mantissaBits
  exponentBits_le := hf.exponentBits_eq.le
  mantissaBits_le := hf.mantissaBits_le.trans (by norm_num)

theorem bias_eq (hf : f.SharesExponents) : f.bias = single.bias := by
  rw [bias, hf.exponentBits_eq]
  rfl

theorem minExponent_eq (hf : f.SharesExponents) : f.minExponent = single.minExponent := by
  rw [minExponent, hf.bias_eq]
  rfl

theorem add_droppedBits (hf : f.SharesExponents) :
    f.mantissaBits + f.droppedBits = single.mantissaBits :=
  Nat.add_sub_cancel' hf.isNarrow.mantissaBits_le

theorem one_le_droppedBits (hf : f.SharesExponents) : 1 ≤ f.droppedBits :=
  Nat.le_sub_of_add_le' (Nat.succ_le_succ hf.mantissaBits_le)

theorem mantissaSpan_mul (hf : f.SharesExponents) :
    f.mantissaSpan * 2 ^ f.droppedBits = single.mantissaSpan :=
  hf.isNarrow.mantissaSpan_mul

theorem infinity_mul (hf : f.SharesExponents) : f.infinity * 2 ^ f.droppedBits = single.infinity := by
  rw [infinity, exponentMask, Nat.mul_assoc, hf.mantissaSpan_mul, exponentFieldMax, hf.exponentBits_eq]
  rfl

theorem signMask_mul (hf : f.SharesExponents) : f.signMask * 2 ^ f.droppedBits = single.signMask := by
  rw [f.signMask_eq, Nat.mul_assoc, hf.mantissaSpan_mul, hf.exponentBits_eq]
  rfl

/-- A magnitude followed by zeros keeps its value. -/
theorem magnitudeValue_mul (hf : f.SharesExponents) (m : ℕ) :
    single.magnitudeValue (m * 2 ^ f.droppedBits) = f.magnitudeValue m := by
  obtain ⟨q, n, rfl, hlow, hhigh, -⟩ := f.exists_significand m
  have hspan := hf.mantissaSpan_mul
  have hlow' : q = 0 ∨ single.mantissaSpan ≤ n * 2 ^ f.droppedBits := by
    rw [← hspan]
    exact hlow.imp_right (Nat.mul_le_mul_right _)
  have hhigh' : n * 2 ^ f.droppedBits ≤ 2 * single.mantissaSpan := by
    rw [← hspan, ← Nat.mul_assoc]
    exact Nat.mul_le_mul_right _ hhigh.le
  have hunit : single.minExponent - single.mantissaBits + f.droppedBits =
      f.minExponent - f.mantissaBits := by
    rw [hf.minExponent_eq, ← hf.add_droppedBits]
    push_cast
    ring
  rw [magnitudeValue, magnitudeValue, f.gridCount_mul_add hlow hhigh.le, Nat.add_mul, Nat.mul_assoc,
    hspan, single.gridCount_mul_add hlow' hhigh', ← hunit, zpow_add₀ (by norm_num : (2 : ℚ) ≠ 0),
    zpow_natCast]
  push_cast
  ring

end SharesExponents

end Format

namespace Scalar

variable {f : Format}

/-- A single precision number is stored without padding. -/
theorem toNat_eq_packed (x : Single) : x.toNat = x.packed := by
  rw [packed, show Format.single.paddingBits = 0 from rfl, pow_zero, Nat.div_one]

/-! ## Widening -/

/-- Widening puts zeros behind the magnitude, that of an infinity or a NaN too. -/
theorem magnitude_widen (hf : f.SharesExponents) (x : Scalar f) :
    x.widen.magnitude = x.magnitude * 2 ^ f.droppedBits := by
  rcases lt_or_ge x.magnitude f.infinity with hx | hx
  · obtain ⟨k, hk, hwiden, hv⟩ := widen_of_finite hf.isNarrow hx
    rw [hwiden, magnitude_ofParts _ (hk.trans Format.single.infinity_lt_signMask)]
    rw [← hf.magnitudeValue_mul] at hv
    exact Format.single.magnitudeValue_strictMono.injective hv
  · -- beyond the finite numbers only the mantissa field moves
    have hmag := magnitude_of_infinity_le hx
    have hlt : x.magnitude * 2 ^ f.droppedBits < Format.single.signMask := by
      rw [← hf.signMask_mul]
      exact Nat.mul_lt_mul_of_pos_right x.magnitude_lt (Nat.two_pow_pos _)
    have hsum : Format.single.infinity +
        x.mantissaField * 2 ^ (Format.single.mantissaBits - f.mantissaBits) =
          x.magnitude * 2 ^ f.droppedBits := by
      rw [hmag, Nat.add_mul, hf.infinity_mul, Format.droppedBits]
    rw [widen_of_infinity_le hx, hsum, magnitude_ofParts _ hlt]

/-- The widened word is the packed word followed by zeros. -/
theorem packed_widen (hf : f.SharesExponents) (x : Scalar f) :
    x.widen.packed = x.packed * 2 ^ f.droppedBits := by
  rw [packed_eq, packed_eq x, isNegative_widen hf.isNarrow, magnitude_widen hf, Nat.add_mul, ite_mul,
    hf.signMask_mul, Nat.zero_mul]

/-! ## Narrowing -/

/-- Where the unit of the format is that of single precision times the dropped bits, they are what is
rounded off. -/
theorem roundAtUnit_eq (hf : f.SharesExponents) (mode : RoundingMode) (negative : Bool)
    (significand : ℕ) {unit exponent : ℤ} (hunit : unit = exponent + f.droppedBits) :
    Format.roundAtUnit mode negative significand exponent unit =
      mode.roundQuotient negative significand (2 ^ f.droppedBits) := by
  have hdropped := hf.one_le_droppedBits
  rw [Format.roundAtUnit, if_neg (by omega), RoundingMode.roundShift_eq_roundQuotient]
  congr 2
  omega

/-- A zero or a denormal lies in the least binade of the format, too. -/
theorem encodeDyadic_of_denormal (hf : f.SharesExponents) {x : Single} (hx : x.exponentField = 0)
    (mode : RoundingMode) (negative : Bool) :
    f.encodeDyadic mode negative x.exact.significand x.exact.exponent =
      mode.roundQuotient negative x.magnitude (2 ^ f.droppedBits) := by
  have hbits := hf.add_droppedBits
  have hleast := hf.minExponent_eq
  have hmost := f.bias_nonneg
  have hsingle : Format.single.minExponent = -126 := rfl
  have hwidth : Format.single.mantissaBits = 23 := rfl
  have hmag : x.magnitude = x.mantissaField := by rw [magnitude_eq, hx, Nat.zero_mul, Nat.zero_add]
  rw [exact, if_pos hx, Format.encodeDyadic, hmag]
  dsimp only
  split
  case isTrue hzero => rw [hzero, RoundingMode.roundQuotient_zero]
  case isFalse hne =>
    have hlog : x.mantissaField.log2 < 23 := (Nat.log2_lt hne).2 x.mantissaField_lt
    have hfinite : (x.mantissaField.log2 : ℤ) + (Format.single.minExponent - Format.single.mantissaBits) ≤
        f.maxExponent := by
      unfold Format.maxExponent
      omega
    rw [f.assemble_below mode negative _ (by omega) hfinite, roundAtUnit_eq hf _ _ _ (by omega)]

/-- The significand of a normal number is rounded in its binade, above an even count of places. -/
theorem encodeDyadic_of_normal (hf : f.SharesExponents) {x : Single} (hx : x.isFinite = true)
    (hfield : x.exponentField ≠ 0) (mode : RoundingMode) (negative : Bool) :
    f.encodeDyadic mode negative x.exact.significand x.exact.exponent =
      mode.roundQuotient negative x.magnitude (2 ^ f.droppedBits) := by
  have hbits := hf.add_droppedBits
  have hmantissa := x.mantissaField_lt
  have hleast : f.minExponent = -126 := hf.minExponent_eq
  have hmost : f.maxExponent = 127 := hf.bias_eq
  have hbias : Format.single.bias = 127 := rfl
  have hwidth : Format.single.mantissaBits = 23 := rfl
  have hspan : Format.single.mantissaSpan = 2 ^ 23 := rfl
  have hle : x.exponentField < 255 := by
    rw [isFinite, bne_iff_ne] at hx
    exact lt_of_le_of_ne x.exponentField_le hx
  -- the exponent field less one counts the binades below
  obtain ⟨q, hq⟩ := Nat.exists_eq_succ_of_ne_zero hfield
  have hlog : (Format.single.mantissaSpan + x.mantissaField).log2 = 23 :=
    (Nat.log2_eq_iff (by omega)).2 (by omega)
  have htop : ((Format.single.mantissaSpan + x.mantissaField).log2 : ℤ) +
      (x.exponentField - Format.single.bias - Format.single.mantissaBits) =
        x.exponentField - Format.single.bias := by omega
  -- the binades below are an even count of places, and the leading bit is the last of them
  have hbase : f.binadeBase (x.exponentField - Format.single.bias) = q * f.mantissaSpan := by
    rw [Format.binadeBase, hq]
    congr 1
    omega
  have heven : q * f.mantissaSpan % 2 = 0 := by
    rw [Nat.mul_mod, hf.isNarrow.even_mantissaSpan, Nat.mul_zero, Nat.zero_mod]
  have hmag : x.magnitude = q * f.mantissaSpan * 2 ^ f.droppedBits +
      (Format.single.mantissaSpan + x.mantissaField) := by
    rw [Nat.mul_assoc, hf.mantissaSpan_mul, magnitude_eq, hq, Nat.succ_mul, Nat.add_assoc]
  have hunit : f.unitExponent (x.exponentField - Format.single.bias) =
      x.exponentField - Format.single.bias - Format.single.mantissaBits + f.droppedBits := by
    unfold Format.unitExponent
    omega
  rw [exact, if_neg hfield, Format.encodeDyadic]
  dsimp only
  rw [if_neg (by omega), htop, Format.assemble, if_neg (by omega), hbase,
    roundAtUnit_eq hf _ _ _ hunit, hmag,
    mode.roundQuotient_mul_add negative (Nat.two_pow_pos _) heven]

/-- Narrowing rounds the magnitude as an integer. -/
theorem magnitude_narrow (hf : f.SharesExponents) {x : Single} (hx : x.isNaN = false)
    (mode : RoundingMode) :
    (narrow f x mode).magnitude =
      mode.roundQuotient x.isNegative x.magnitude (2 ^ f.droppedBits) := by
  rcases ((not_isNaN_iff x).1 hx).lt_or_eq with hx' | hx'
  · have hle := f.encodeRatio_le_infinity hf.isNarrow.toIsBinary mode x.exact.negative
      x.exact.significand Nat.one_pos x.exact.exponent
    rw [← Format.encodeDyadic_eq_encodeRatio] at hle
    rw [narrow_eq_convert_of_isNarrow hf.isNarrow, convert_of_finite hx', Exact.round,
      magnitude_ofParts _ (hle.trans_lt f.infinity_lt_signMask), exact_negative]
    by_cases hfield : x.exponentField = 0
    · exact encodeDyadic_of_denormal hf hfield mode _
    · exact encodeDyadic_of_normal hf ((isFinite_iff x).2 hx') hfield mode _
  · -- the infinity of single precision is that of the format with zeros behind it
    have hround := mode.roundQuotient_mul_add x.isNegative (n := 0) (Nat.two_pow_pos f.droppedBits)
      hf.isNarrow.infinity_even
    rw [Nat.add_zero, mode.roundQuotient_zero, Nat.add_zero, hf.infinity_mul, ← hx'] at hround
    rw [narrow_of_isInfinite hf.isNarrow ((isInfinite_iff x).2 hx'), infinity,
      magnitude_ofParts _ f.infinity_lt_signMask, hround]

/-- Narrowing rounds the whole word as an integer: the sign bit is an even part of it. -/
theorem packed_narrow (hf : f.SharesExponents) {x : Single} (hx : x.isNaN = false)
    (mode : RoundingMode) :
    (narrow f x mode).packed =
      mode.roundQuotient x.isNegative x.packed (2 ^ f.droppedBits) := by
  have heven : (if x.isNegative = true then f.signMask else 0) % 2 = 0 := by
    split
    · exact hf.isNarrow.signMask_even
    · rfl
  rw [packed_eq, isNegative_narrow hf.isNarrow, magnitude_narrow hf hx, packed_eq x, ← hf.signMask_mul,
    ← mode.roundQuotient_mul_add x.isNegative (Nat.two_pow_pos _) heven, ite_mul, Nat.zero_mul]

/-- In a format with the exponents of single precision, widening shifts the packed word up by the
dropped bits, NaNs, denormals, infinities and zeros included. Narrowing a number shifts its word down:
as it is where the rest is cut off, and to nearest even after adding just under half of the last kept
place, or exactly half where that place is odd. -/
theorem widen_narrow_eq_shift (hf : f.SharesExponents) :
    (∀ x : Scalar f, x.widen.toNat = x.packed <<< f.droppedBits) ∧
      ∀ x : Single, x.isNaN = false →
        (narrow f x .towardZero).packed = x.toNat >>> f.droppedBits ∧
        (narrow f x .nearestEven).packed =
          (x.toNat + 2 ^ (f.droppedBits - 1) - 1 + (x.toNat >>> f.droppedBits &&& 1)) >>>
            f.droppedBits := by
  refine ⟨fun x => ?_, fun x hx => ⟨?_, ?_⟩⟩
  · rw [toNat_eq_packed, packed_widen hf, Nat.shiftLeft_eq]
  · rw [packed_narrow hf hx, toNat_eq_packed, Nat.shiftRight_eq_div_pow]
    rfl
  · rw [packed_narrow hf hx, toNat_eq_packed, Nat.shiftRight_eq_div_pow, Nat.shiftRight_eq_div_pow,
      Nat.and_one_is_mod, RoundingMode.roundQuotient_nearestEven_eq _ _ hf.one_le_droppedBits]

/-- A denormal of bfloat, the largest tie below the infinity, which a carry through all fields reaches,
and a negative tie at an even place. -/
theorem widen_narrow_eq_shift_bfloat :
    Format.bfloat.SharesExponents ∧ (ofNat .bfloat 0x8001).widen.toNat = 0x80010000 ∧
      (narrow .bfloat (ofNat .single 0x7f7f8000) .towardZero).packed = 0x7f7f ∧
      (narrow .bfloat (ofNat .single 0x7f7f8000) .nearestEven).packed = 0x7f80 ∧
      (narrow .bfloat (ofNat .single 0x80008000) .nearestEven).packed = 0x8000 := by
  have hshares : Format.bfloat.SharesExponents := ⟨rfl, by decide, by decide⟩
  obtain ⟨hwiden, hnarrow⟩ := widen_narrow_eq_shift hshares
  exact ⟨hshares, (hwiden _).trans (by decide), (hnarrow _ (by decide)).1.trans (by decide),
    (hnarrow _ (by decide)).2.trans (by decide), (hnarrow _ (by decide)).2.trans (by decide)⟩

end Scalar

end PrecisionAudit
