import PrecisionAudit.Narrow.Operators
import PrecisionAudit.Proofs.Rounding.Operations
import PrecisionAudit.Proofs.Scalar.ThroughSingle
import PrecisionAudit.Proofs.Scalar.Widening

/-!
# Narrow arithmetic rounds once

Narrow numbers are added, subtracted, multiplied and divided in single precision, and the result is
narrowed. Single precision has two bits more than two narrow significands, so its rounding does not
mislead the second one: the result is the exact one, rounded once. For products this needs single
precision to go far enough below the least narrow number, which it does for half precision and, with
nothing to spare, for the short format with the exponents of single precision.

## Main results

- `Narrow.apply_add_isNearest`, `Narrow.apply_sub_isNearest`, `Narrow.apply_mul_isNearest`,
  `Narrow.apply_div_isNearest`: each operation in every format it holds for.
- `Narrow.apply_roundsOnce`: half precision and bfloat.
- `Narrow.apply_roundsOnce_tfloat_iff`: the padded format, whose small products may be rounded twice.
-/

namespace PrecisionAudit

namespace Narrow

variable {f : Format} {x y : Scalar f} {a b : ℚ}

section

variable (hf : f.IsNarrow) (hfit : f.FitsTwice .single) (hx : x.value? = some ((a : ℚ) : Extended))
  (hy : y.value? = some ((b : ℚ) : Extended))

include hf hfit hx hy

theorem apply_add_isNearest : (apply .add x y).IsNearest (a + b) := by
  have hsingle := Format.single_isNarrow.toIsBinary
  obtain ⟨-, -, ha⟩ := Scalar.exact_of_value?_eq hx
  obtain ⟨-, -, hb⟩ := Scalar.exact_of_value?_eq hy
  have hsum := Scalar.add_isNearest hsingle ((x.value?_widen hf).trans hx) ((y.value?_widen hf).trans hy)
  exact hsum.ofSingle hf hfit.mantissaBits_lt (hfit.not_misleads_add hf.toIsBinary hsingle ha hb)

theorem apply_sub_isNearest : (apply .sub x y).IsNearest (a - b) := by
  have hsingle := Format.single_isNarrow.toIsBinary
  obtain ⟨-, -, ha⟩ := Scalar.exact_of_value?_eq hx
  obtain ⟨-, -, hb⟩ := Scalar.exact_of_value?_eq hy
  have hdifference :=
    Scalar.sub_isNearest hsingle ((x.value?_widen hf).trans hx) ((y.value?_widen hf).trans hy)
  refine hdifference.ofSingle hf hfit.mantissaBits_lt ?_
  -- a difference is a sum with a term of the same magnitude
  rw [sub_eq_add_neg]
  exact hfit.not_misleads_add hf.toIsBinary hsingle ha ((abs_neg b).trans hb)

theorem apply_mul_isNearest
    (hleast : Format.single.minExponent - Format.single.mantissaBits + 2 * (f.mantissaBits + 1) ≤
      f.minExponent - f.mantissaBits) : (apply .mul x y).IsNearest (a * b) := by
  have hsingle := Format.single_isNarrow.toIsBinary
  obtain ⟨-, -, ha⟩ := Scalar.exact_of_value?_eq hx
  obtain ⟨-, -, hb⟩ := Scalar.exact_of_value?_eq hy
  have hproduct :=
    Scalar.mul_isNearest hsingle ((x.value?_widen hf).trans hx) ((y.value?_widen hf).trans hy)
  exact hproduct.ofSingle hf hfit.mantissaBits_lt
    (hfit.not_misleads_mul hf.toIsBinary hsingle hleast ha hb)

theorem apply_div_isNearest (hne : b ≠ 0) : (apply .div x y).IsNearest (a / b) := by
  have hsingle := Format.single_isNarrow.toIsBinary
  obtain ⟨-, -, ha⟩ := Scalar.exact_of_value?_eq hx
  obtain ⟨-, -, hb⟩ := Scalar.exact_of_value?_eq hy
  have hquotient :=
    Scalar.div_isNearest hsingle ((x.value?_widen hf).trans hx) ((y.value?_widen hf).trans hy) hne
  exact hquotient.ofSingle hf hfit.mantissaBits_lt
    (hfit.not_misleads_div hf.toIsBinary hsingle ha hb hne)

end

/-- In half precision and in bfloat, sum, difference, product and quotient of finite numbers are the
exact results rounded once to nearest even, denormal results and overflow to infinity included. -/
theorem apply_roundsOnce (hf : f = .half ∨ f = .bfloat) (hx : x.isFinite = true)
    (hy : y.isFinite = true) :
    ∃ a b : ℚ, x.value? = some ((a : ℚ) : Extended) ∧ y.value? = some ((b : ℚ) : Extended) ∧
      (apply .add x y).RoundsTo (a + b) ∧ (apply .sub x y).RoundsTo (a - b) ∧
      (apply .mul x y).RoundsTo (a * b) ∧ (b ≠ 0 → (apply .div x y).RoundsTo (a / b)) := by
  obtain ⟨hnarrow, hfit, hleast⟩ : f.IsNarrow ∧ f.FitsTwice .single ∧
      Format.single.minExponent - Format.single.mantissaBits + 2 * (f.mantissaBits + 1) ≤
        f.minExponent - f.mantissaBits := by
    rcases hf with rfl | rfl
    · exact ⟨Format.half_isNarrow, Format.half_fitsTwice, by decide⟩
    · exact ⟨Format.bfloat_isNarrow, Format.bfloat_fitsTwice, by decide⟩
  have hbinary := hnarrow.toIsBinary
  have ha := Scalar.value?_of_finite ((Scalar.isFinite_iff x).1 hx)
  have hb := Scalar.value?_of_finite ((Scalar.isFinite_iff y).1 hy)
  exact ⟨_, _, ha, hb, (apply_add_isNearest hnarrow hfit ha hb).roundsTo hbinary,
    (apply_sub_isNearest hnarrow hfit ha hb).roundsTo hbinary,
    (apply_mul_isNearest hnarrow hfit ha hb hleast).roundsTo hbinary,
    fun hne => (apply_div_isNearest hnarrow hfit ha hb hne).roundsTo hbinary⟩

/-- Two denormals of bfloat: their product is too small for single precision too, and their quotient is
a periodic fraction. -/
theorem apply_roundsOnce_denormals :
    let x := Scalar.ofNat .bfloat 0x0001
    let y := Scalar.ofNat .bfloat 0x8003
    x.value? = some ((2 ^ (-133 : ℤ) : ℚ) : Extended) ∧
      y.value? = some ((-(3 * 2 ^ (-133 : ℤ)) : ℚ) : Extended) ∧
      (apply .mul x y).RoundsTo (2 ^ (-133 : ℤ) * -(3 * 2 ^ (-133 : ℤ))) ∧
      (apply .div x y).RoundsTo (2 ^ (-133 : ℤ) / -(3 * 2 ^ (-133 : ℤ))) := by
  intro x y
  have hx : x.value? = some ((2 ^ (-133 : ℤ) : ℚ) : Extended) := by
    have hdatum : x.datum = .finite ⟨false, 1, -133⟩ := by decide +kernel
    rw [Scalar.value?_of_datum hdatum, Exact.value]
    norm_num
  have hy : y.value? = some ((-(3 * 2 ^ (-133 : ℤ)) : ℚ) : Extended) := by
    have hdatum : y.datum = .finite ⟨true, 3, -133⟩ := by decide +kernel
    rw [Scalar.value?_of_datum hdatum, Exact.value]
    norm_num
  obtain ⟨a, b, ha, hb, -, -, hmul, hdiv⟩ :=
    apply_roundsOnce (x := x) (y := y) (.inr rfl) (by decide +kernel) (by decide +kernel)
  obtain rfl := Extended.coe_strictMono.injective (Option.some.inj (hx.symm.trans ha))
  obtain rfl := Extended.coe_strictMono.injective (Option.some.inj (hy.symm.trans hb))
  exact ⟨hx, hy, hmul, hdiv (neg_ne_zero.2 (by positivity))⟩

/-! ## The longer significand with the same exponents

The padded format has the exponents of single precision, so a product of its numbers may be too small for
single precision to hold it, although it is near a midpoint between two denormals.
-/

section

variable {x y : Tfloat}

/-- In the padded format, sum, difference and quotient of finite numbers are the exact results rounded
once to nearest even. A product is so exactly if single precision does not put it on a midpoint between two
denormals from the wrong side, as it never does with products of at least `2 ^ (-128)`. -/
theorem apply_roundsOnce_tfloat_iff (hx : x.isFinite = true) (hy : y.isFinite = true) :
    ∃ a b : ℚ, x.value? = some ((a : ℚ) : Extended) ∧ y.value? = some ((b : ℚ) : Extended) ∧
      (apply .add x y).RoundsTo (a + b) ∧ (apply .sub x y).RoundsTo (a - b) ∧
      (b ≠ 0 → (apply .div x y).RoundsTo (a / b)) ∧
      ((apply .mul x y).RoundsTo (a * b) ↔ ¬ Format.single.Misleads .tfloat (a * b)) ∧
      (2 ^ (-128 : ℤ) ≤ |a * b| → (apply .mul x y).RoundsTo (a * b)) := by
  have hnarrow := Format.tfloat_isNarrow
  have hbinary := hnarrow.toIsBinary
  have hsingle := Format.single_isNarrow.toIsBinary
  have hfit := Format.tfloat_fitsTwice
  have ha := Scalar.value?_of_finite ((Scalar.isFinite_iff x).1 hx)
  have hb := Scalar.value?_of_finite ((Scalar.isFinite_iff y).1 hy)
  obtain ⟨-, -, hamag⟩ := Scalar.exact_of_value?_eq ha
  obtain ⟨-, -, hbmag⟩ := Scalar.exact_of_value?_eq hb
  have hmul : (apply .mul x y).RoundsTo _ ↔ ¬ Format.single.Misleads .tfloat _ :=
    (Scalar.mul_isNearest hsingle ((x.value?_widen hnarrow).trans ha)
      ((y.value?_widen hnarrow).trans hb)).roundsTo_ofSingle_iff hnarrow hfit.mantissaBits_lt
  exact ⟨_, _, ha, hb, (apply_add_isNearest hnarrow hfit ha hb).roundsTo hbinary,
    (apply_sub_isNearest hnarrow hfit ha hb).roundsTo hbinary,
    fun hne => (apply_div_isNearest hnarrow hfit ha hb hne).roundsTo hbinary, hmul,
    fun hlarge => hmul.2 (hfit.not_misleads_mul_of_ge hbinary hsingle hlarge hamag hbmag)⟩

/-- The square of a number just above the root of the least product that is sure to be rounded once. -/
theorem apply_roundsOnce_tfloat_iff_square :
    let x := Scalar.ofNat .tfloat 0x1f802000
    x.value? = some ((1025 * 2 ^ (-74 : ℤ) : ℚ) : Extended) ∧
      (apply .mul x x).RoundsTo (1025 * 2 ^ (-74 : ℤ) * (1025 * 2 ^ (-74 : ℤ))) := by
  intro x
  have hx : x.value? = some ((1025 * 2 ^ (-74 : ℤ) : ℚ) : Extended) := by
    have hdatum : x.datum = .finite ⟨false, 1025, -74⟩ := by decide +kernel
    rw [Scalar.value?_of_datum hdatum, Exact.value]
    norm_num
  obtain ⟨a, b, ha, hb, -, -, -, -, hmul⟩ :=
    apply_roundsOnce_tfloat_iff (x := x) (y := x) (by decide +kernel) (by decide +kernel)
  obtain rfl := Scalar.value_unique hx ha
  obtain rfl := Scalar.value_unique hx hb
  exact ⟨hx, hmul (by norm_num [abs_of_pos])⟩

/-- A product just above half the least denormal: single precision puts it on the midpoint between zero
and the denormal, and the tie there goes to zero, although the denormal is nearer. -/
theorem apply_mul_tfloat_not_roundsTo :
    let x := Scalar.ofNat .tfloat 0x1d05c000
    let y := Scalar.ofNat .tfloat 0x1d750000
    x.value? = some ((1070 * 2 ^ (-79 : ℤ) : ℚ) : Extended) ∧
      y.value? = some ((1960 * 2 ^ (-79 : ℤ) : ℚ) : Extended) ∧
      apply .mul x y = Scalar.ofNat .tfloat 0 ∧
      ¬ (apply .mul x y).RoundsTo (1070 * 2 ^ (-79 : ℤ) * (1960 * 2 ^ (-79 : ℤ))) := by
  intro x y
  have hx : x.datum = .finite ⟨false, 1070, -79⟩ := by decide +kernel
  have hy : y.datum = .finite ⟨false, 1960, -79⟩ := by decide +kernel
  have hzero : (Scalar.ofNat .tfloat 0).datum = .finite ⟨false, 0, -136⟩ := by decide +kernel
  have hnext : (Scalar.ofNat .tfloat 0x2000).datum = .finite ⟨false, 1, -136⟩ := by decide +kernel
  have hresult : apply .mul x y = Scalar.ofNat .tfloat 0 := by decide +kernel
  refine ⟨?_, ?_, hresult, ?_⟩
  · rw [Scalar.value?_of_datum hx, Exact.value]
    norm_num
  · rw [Scalar.value?_of_datum hy, Exact.value]
    norm_num
  · rw [hresult]
    rintro ⟨-, hround⟩
    -- the claim to be the closest fails against the least denormal
    obtain ⟨-, hfinite⟩ := (hround (by positivity)).value_spec
    obtain ⟨q, hq, hclosest⟩ := hfinite (by decide +kernel)
    rw [Scalar.value?_of_datum hzero, Option.some_inj] at hq
    obtain rfl := Extended.coe_strictMono.injective hq
    have hnear := (hclosest _ ⟨_, Scalar.value?_of_datum hnext⟩).1
    norm_num [Exact.value, abs_of_pos, abs_of_neg] at hnear

end

end Narrow

end PrecisionAudit
