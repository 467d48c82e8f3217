import PrecisionAudit.Proofs.Scalar.ThroughSingle

/-!
# Integer operands

An integer operand reaches a narrow format by way of single precision. Single precision has every integer
up to `2 ^ 24`, and half precision has no finite number beyond that, so that for those integers and in that
format only one rounding takes place. In the formats with a longer exponent a larger integer may be brought
to a midpoint first, and then the operand is the neighbour of the correctly rounded integer.

## Main results

- `Format.nearest_of_misleads`: rounding twice misses by one place at most.
- `Format.not_misleads_intCast`, `Format.not_misleads_intCast_half`: integers that are rounded once.
- `Narrow.ofInt_roundsOnce_iff`: which operand an integer becomes.
- `Narrow.ofInt_not_roundsOnce`: integers of 32 bits that are rounded twice.
-/

namespace PrecisionAudit

namespace Format

variable {f g : Format} {v : ℚ} {j : ℕ}

/-! ## The miss of a second rounding -/

theorem midpoint_strictMono (f : Format) : StrictMono f.midpoint := by
  intro i j hij
  calc f.midpoint i < f.magnitudeValue (i + 1) := f.midpoint_lt i
    _ ≤ f.magnitudeValue j := f.magnitudeValue_strictMono.monotone hij
    _ < f.midpoint j := f.lt_midpoint j

/-- A midpoint goes to the even one of its two neighbours. -/
theorem nearest_midpoint (hf : f.IsBinary) (hj : j < f.infinity) :
    f.nearest (f.midpoint j) = if j % 2 = 0 then j else j + 1 := by
  refine nearest_eq_of_forall hf (by split <;> omega) fun i _ => ?_
  rw [abs_of_pos (f.midpoint_pos j), f.midpoint_strictMono.lt_iff_lt,
    f.midpoint_strictMono.injective.eq_iff]
  split <;> omega

/-- What misleads is taken to the neighbour of the nearest magnitude. -/
theorem nearest_of_misleads (h : f.Embeds g) (hbits : f.mantissaBits < g.mantissaBits)
    (hf : f.IsBinary) (hg : g.IsBinary) (hv : g.Misleads f v) :
    f.nearest (g.magnitudeValue (g.nearest v)) + 1 = f.nearest v ∨
      f.nearest (g.magnitudeValue (g.nearest v)) = f.nearest v + 1 := by
  obtain ⟨j, hj, hmid, hside⟩ := hv
  rw [hmid, nearest_midpoint hf hj]
  have hinfinity := nearest_le_infinity hf v
  -- all midpoints belong to the finer format, so that the number lies between those around `j`
  have hvalue (i : ℕ) (hi : i < f.infinity) :=
    h.exists_magnitudeValue_eq_midpoint hbits hf hg hi
  split at hside
  case isTrue heven =>
    have hlow : j < f.nearest v := (lt_nearest_iff hf v hj).2 (.inl hside)
    have hhigh : f.nearest v ≤ j + 1 := by
      by_contra! hlt
      obtain ⟨k, hk, hkmid⟩ := hvalue (j + 1) (hlt.trans_le hinfinity)
      have hle := midpoint_le_of_lt_nearest hf hlt
      rw [← hkmid] at hle
      have hcross := magnitudeValue_le_nearest hg hk.le hle
      rw [hmid, hkmid] at hcross
      exact (f.midpoint_strictMono (Nat.lt_succ_self j)).not_ge hcross
    rw [if_pos heven]
    omega
  case isFalse hodd =>
    have hhigh : f.nearest v ≤ j := by
      by_contra! hlt
      exact (midpoint_le_of_lt_nearest hf hlt).not_gt hside
    have hlow : j ≤ f.nearest v := by
      obtain ⟨i, rfl⟩ := Nat.exists_eq_succ_of_ne_zero (show j ≠ 0 by omega)
      by_contra! hlt
      obtain ⟨k, hk, hkmid⟩ := hvalue i (by omega)
      have hle : |v| ≤ f.midpoint i :=
        (le_midpoint_nearest hf (hlt.trans hj)).trans
          (f.midpoint_strictMono.monotone (Nat.le_of_lt_succ hlt))
      rw [← hkmid] at hle
      have hcross := nearest_le_magnitudeValue hg hk.le hle
      rw [hmid, hkmid] at hcross
      exact (f.midpoint_strictMono (Nat.lt_succ_self i)).not_ge hcross
    rw [if_neg hodd]
    omega

/-! ## Integers in single precision -/

theorem exists_magnitudeValue_single_eq {n : ℤ} (hn : n.natAbs ≤ 2 ^ 24) :
    ∃ k < single.infinity, single.magnitudeValue k = |(n : ℚ)| := by
  obtain ⟨k, hk, hv⟩ := single_isNarrow.toIsBinary.exists_magnitudeValue_eq_natCast (by decide) hn
  exact ⟨k, hk, hv.trans (by rw [Nat.cast_natAbs, Int.cast_abs])⟩

/-- Short integers are numbers of single precision. -/
theorem not_misleads_intCast (f : Format) {n : ℤ} (hn : n.natAbs ≤ 2 ^ 24) : ¬ single.Misleads f n := by
  obtain ⟨k, hk, hv⟩ := exists_magnitudeValue_single_eq hn
  exact not_misleads_of_magnitudeValue single_isNarrow.toIsBinary hk.le hv.symm

/-- Longer ones are infinite in half precision, before and after they are rounded. -/
theorem not_misleads_intCast_half (n : ℤ) : ¬ single.Misleads half n := by
  rcases le_or_gt n.natAbs (2 ^ 24) with hshort | hlong
  · exact not_misleads_intCast half hshort
  · rintro ⟨j, hj, hmid, -⟩
    obtain ⟨k, hk, hv⟩ := exists_magnitudeValue_single_eq (n := 2 ^ 24) (by decide)
    have hle : single.magnitudeValue k ≤ |(n : ℚ)| := by
      rw [hv, ← Int.cast_abs, ← Int.cast_abs, Int.cast_le, Int.abs_eq_natAbs, Int.abs_eq_natAbs]
      exact Int.ofNat_le.2 hlong.le
    have hreached := magnitudeValue_le_nearest single_isNarrow.toIsBinary hk.le hle
    have hlast : half.midpoint j < 2 ^ (half.maxExponent + 1) :=
      (half.midpoint_lt j).trans_le
        (half_isNarrow.toIsBinary.magnitudeValue_le_of_bias_le le_rfl hj)
    rw [hmid, hv] at hreached
    have hlimit : (2 : ℚ) ^ (half.maxExponent + 1) ≤ 2 ^ (16 : ℤ) :=
      zpow_le_zpow_right₀ (by norm_num) (by decide)
    norm_num at hreached hlimit
    linarith

end Format

/-! ## Rounded integers -/

/-- An integer is brought to the nearest magnitude, under its sign. -/
theorem Scalar.ofInt_eq_nearest {f : Format} (hf : f.IsBinary) (n : ℤ) :
    Scalar.ofInt f n = ofParts f (n < 0) (f.nearest n) := by
  rw [Scalar.ofInt, Exact.round_eq_ofParts, Format.encodeRatio_eq_nearest hf _ Nat.one_pos]
  · rfl
  · rw [Nat.cast_one, div_one, ← Exact.abs_value, exact_ofInt_value]

theorem Scalar.roundsTo_ofInt {f : Format} (hf : f.IsBinary) (n : ℤ) :
    (Scalar.ofInt f n).RoundsTo n := by
  have hround := (Exact.ofInt n).isNearest_round hf
  rw [exact_ofInt_value] at hround
  exact hround.roundsTo hf

namespace Narrow

variable {f : Format}

/-- The operand that an integer becomes: of the magnitude that is nearest in single precision, the
nearest one. -/
theorem ofInt_eq_nearest (hf : f.IsNarrow) (n : ℤ) :
    ofInt f n = .ofParts f (n < 0)
      (f.nearest (Format.single.magnitudeValue (Format.single.nearest n))) := by
  have hsingle := Format.single_isNarrow.toIsBinary
  rw [ofInt, Scalar.ofInt_eq_nearest hsingle,
    Scalar.ofSingle_ofParts hf _ (Format.nearest_le_infinity hsingle _)]

section

variable (hf : f.IsNarrow) (hbits : f.mantissaBits < Format.single.mantissaBits) (n : ℤ)

include hf hbits

theorem ofInt_roundsTo_iff : (ofInt f n).RoundsTo n ↔ ¬ Format.single.Misleads f n := by
  have hround := (Exact.ofInt n).isNearest_round Format.single_isNarrow.toIsBinary
  rw [Scalar.exact_ofInt_value] at hround
  exact hround.roundsTo_ofSingle_iff hf hbits

theorem ofInt_eq_iff : ofInt f n = Scalar.ofInt f n ↔ ¬ Format.single.Misleads f n := by
  have hbinary := hf.toIsBinary
  have hsingle := Format.single_isNarrow.toIsBinary
  rw [← Format.nearest_nearest_iff hf.embeds hbits hbinary hsingle, ofInt_eq_nearest hf,
    Scalar.ofInt_eq_nearest hbinary]
  have hmask (v : ℚ) := (Format.nearest_le_infinity hbinary v).trans_lt f.infinity_lt_signMask
  refine ⟨fun heq => ?_, fun heq => by rw [heq]⟩
  have hmag := congrArg Scalar.magnitude heq
  rwa [Scalar.magnitude_ofParts _ (hmask _), Scalar.magnitude_ofParts _ (hmask _)] at hmag

/-- An integer that is rounded twice becomes the neighbour of what it should. -/
theorem distance_ofInt_of_misleads (hn : Format.single.Misleads f n) :
    (ofInt f n).distance (Scalar.ofInt f n) = 1 := by
  have hbinary := hf.toIsBinary
  have hmiss := Format.nearest_of_misleads hf.embeds hbits hbinary
    Format.single_isNarrow.toIsBinary hn
  rw [ofInt_eq_nearest hf, Scalar.ofInt_eq_nearest hbinary, Scalar.distance,
    (Scalar.ordinal_ofParts _ (Format.nearest_le_infinity hbinary _)).2,
    (Scalar.ordinal_ofParts _ (Format.nearest_le_infinity hbinary _)).2]
  split <;> omega

end

/-- The operand that an integer becomes in half precision, bfloat or the padded format is the correctly
rounded integer exactly if single precision does not put the integer on a midpoint from the wrong side,
as it never does in half precision or with integers up to `2 ^ 24`. The operators then act on the
correctly rounded integer. Otherwise the operand is a neighbour of it. -/
theorem ofInt_roundsOnce_iff (hf : f = .half ∨ f = .bfloat ∨ f = .tfloat) (n : ℤ) :
    (Scalar.ofInt f n).RoundsTo n ∧
    ((ofInt f n).RoundsTo n ↔ ¬ Format.single.Misleads f n) ∧
    (f = .half ∨ n.natAbs ≤ 2 ^ 24 → ¬ Format.single.Misleads f n) ∧
    (¬ Format.single.Misleads f n → ofInt f n = Scalar.ofInt f n ∧
      ∀ (op : Operator) (x : Scalar f), applyInt op x n = apply op x (Scalar.ofInt f n) ∧
        intApply op n x = apply op (Scalar.ofInt f n) x) ∧
    (Format.single.Misleads f n → (ofInt f n).distance (Scalar.ofInt f n) = 1) := by
  obtain ⟨hnarrow, hbits⟩ : f.IsNarrow ∧ f.mantissaBits < Format.single.mantissaBits := by
    rcases hf with rfl | rfl | rfl
    · exact ⟨Format.half_isNarrow, by decide⟩
    · exact ⟨Format.bfloat_isNarrow, by decide⟩
    · exact ⟨Format.tfloat_isNarrow, by decide⟩
  refine ⟨Scalar.roundsTo_ofInt hnarrow.toIsBinary n, ofInt_roundsTo_iff hnarrow hbits n, ?_,
    fun hnot => ?_, distance_ofInt_of_misleads hnarrow hbits n⟩
  · rintro (rfl | hshort)
    · exact Format.not_misleads_intCast_half n
    · exact Format.not_misleads_intCast f hshort
  · have heq := (ofInt_eq_iff hnarrow hbits n).2 hnot
    refine ⟨heq, fun op x => ?_⟩
    rw [applyInt, intApply, heq]
    exact ⟨rfl, rfl⟩

/-- The largest integer of 64 bits overflows half precision, and an integer just above a midpoint of the
padded format becomes the neighbour of what it should. -/
theorem ofInt_roundsOnce_iff_extremes :
    let largest : ℤ := 2 ^ 64 - 1
    let above : ℤ := 2 ^ 25 + 2 ^ 14 + 1
    (ofInt .half largest).RoundsTo largest ∧ ofInt .half largest = .infinity .half false ∧
      Format.single.Misleads .tfloat above ∧
      (ofInt .tfloat above).distance (Scalar.ofInt .tfloat above) = 1 := by
  intro largest above
  obtain ⟨-, hrounds, hnot, -⟩ := ofInt_roundsOnce_iff (f := .half) (.inl rfl) largest
  obtain ⟨-, -, -, honce, hneighbour⟩ := ofInt_roundsOnce_iff (f := .tfloat) (.inr (.inr rfl)) above
  have hmisleads : Format.single.Misleads .tfloat above := by
    by_contra hnot
    exact absurd (honce hnot).1 (by decide +kernel)
  exact ⟨hrounds.2 (hnot (.inl rfl)), by decide +kernel, hmisleads, hneighbour hmisleads⟩

/-- Integers of 32 bits just above a midpoint of bfloat and of the padded format: single precision puts
them on the midpoint, and the tie there goes to the even number below, although the one above is nearer. -/
theorem ofInt_not_roundsOnce :
    let n : ℤ := 2 ^ 25 + 2 ^ 17 + 1
    let m : ℤ := 2 ^ 25 + 2 ^ 14 + 1
    (¬ (ofInt .bfloat n).RoundsTo n ∧ applyInt .add (.zero .bfloat) n = .ofNat .bfloat 0x4c00 ∧
      apply .add (.zero .bfloat) (Scalar.ofInt .bfloat n) = .ofNat .bfloat 0x4c01) ∧
    ¬ (ofInt .tfloat m).RoundsTo m ∧ intApply .add m (.zero .tfloat) = .ofNat .tfloat 0x4c000000 ∧
      apply .add (Scalar.ofInt .tfloat m) (.zero .tfloat) = .ofNat .tfloat 0x4c002000 := by
  intro n m
  have hbfloat : ofInt .bfloat n ≠ Scalar.ofInt .bfloat n := by decide +kernel
  have htfloat : ofInt .tfloat m ≠ Scalar.ofInt .tfloat m := by decide +kernel
  rw [ne_eq, ofInt_eq_iff Format.bfloat_isNarrow (by decide),
    ← ofInt_roundsTo_iff Format.bfloat_isNarrow (by decide)] at hbfloat
  rw [ne_eq, ofInt_eq_iff Format.tfloat_isNarrow (by decide),
    ← ofInt_roundsTo_iff Format.tfloat_isNarrow (by decide)] at htfloat
  exact ⟨⟨hbfloat, by decide +kernel, by decide +kernel⟩, htfloat, by decide +kernel,
    by decide +kernel⟩

end Narrow

end PrecisionAudit
