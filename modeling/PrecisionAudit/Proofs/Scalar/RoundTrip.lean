import PrecisionAudit.Narrow.Operators
import PrecisionAudit.Proofs.Scalar.Narrowing
import PrecisionAudit.Proofs.Scalar.Widening

/-!
# Widening and back

Narrowing undoes widening on every encoding and in every mode. Numbers come back bit for bit, also
by way of double precision; a NaN comes back with the quiet bit that its format's rule asks for.

## Main results

- `narrow_of_value?_eq`: whatever has the value of a narrow number is narrowed to its packed word.
- `shortenPayload_mul`: a payload that was extended by zeros is shortened without loss.
- `narrow_widen`: narrowing undoes widening.
-/

namespace PrecisionAudit

namespace Scalar

variable {f : Format}

/-! ## Numbers -/

/-- A single precision number with the sign and the value of a narrow number is narrowed to its
packed word. -/
theorem narrow_of_value?_eq (hf : f.IsNarrow) {x : Scalar f} {y : Single}
    (hsign : y.isNegative = x.isNegative) (hvalue : y.value? = x.value?) (hx : x.isNaN = false)
    (mode : RoundingMode) : (narrow f y mode).packed = x.packed := by
  have hlt := x.magnitude_lt
  rw [narrow_eq_convert_of_isNarrow hf, convert_of_value?_eq hf.toIsBinary hsign hvalue hx,
    packed_ofParts _ hlt, ← packed_eq]

/-- Rounding a widened number back from double precision gives the number itself. -/
theorem doubleToSingle_singleToDouble {x : Single} (hx : x.isNaN = false) :
    x.singleToDouble.doubleToSingle = ofParts .single x.isNegative x.magnitude :=
  convert_of_value?_eq Format.single_isNarrow.toIsBinary (isNegative_singleToDouble x)
    (value?_singleToDouble x) hx .nearestEven

/-- By way of double precision, a number comes back with the packed word it had. -/
theorem ofDouble_toDouble (hf : f.IsNarrow) {x : Scalar f} (hx : x.isNaN = false) :
    (Narrow.ofDouble f (Narrow.toDouble x)).packed = x.packed := by
  have hwiden : x.widen.isNaN = false := (isNaN_widen hf x).trans hx
  have hlt := x.widen.magnitude_lt
  have hsign := isNegative_ofParts x.widen.isNegative hlt
  have hvalue := value?_congr hsign (magnitude_ofParts x.widen.isNegative hlt)
  rw [Narrow.ofDouble, Narrow.toDouble, doubleToSingle_singleToDouble hwiden]
  exact narrow_of_value?_eq hf (hsign.trans (isNegative_widen hf x))
    (hvalue.trans (value?_widen hf x)) hx .nearestEven

/-! ## NaNs -/

/-- A payload that was extended by zeros is shortened without loss; only the quiet bit is added
where the rule of the format asks for it. -/
theorem shortenPayload_mul (source target : Format) (payload : ℕ) :
    shortenPayload source target
        (payload * 2 ^ (source.mantissaBits - target.mantissaBits)) =
      match target.nanRule with
      | .quiet => payload ||| target.quietBit
      | .saturate => payload := by
  have hkept := Nat.mul_div_cancel payload
    (Nat.two_pow_pos (source.mantissaBits - target.mantissaBits))
  have hrest := Nat.mul_mod_left payload (2 ^ (source.mantissaBits - target.mantissaBits))
  rw [shortenPayload, hkept, hrest]
  rfl

/-- The quiet bit of a packed word is the quiet bit of its mantissa. -/
theorem packed_or_quietBit (hf : f.IsBinary) {x : Scalar f} (hx : x.isNaN = true) :
    x.packed ||| f.quietBit = (if x.isNegative then f.signMask else 0) +
      (f.infinity + (x.mantissaField ||| f.quietBit)) := by
  have hmag := magnitude_of_infinity_le ((isNaN_iff x).1 hx).le
  have hquiet : f.quietBit < 2 ^ f.mantissaBits := hf.quietBit_lt
  have hmantissa : x.mantissaField < 2 ^ f.mantissaBits := x.mantissaField_lt
  -- what stands above the mantissa is a multiple of its span
  obtain ⟨upper, hupper⟩ : ∃ upper, (if x.isNegative then f.signMask else 0) + f.infinity =
      2 ^ f.mantissaBits * upper := by
    refine ⟨(if x.isNegative then 2 ^ f.exponentBits else 0) + f.exponentFieldMax, ?_⟩
    rw [f.signMask_eq, Format.infinity, Format.exponentMask, Format.mantissaSpan]
    cases x.isNegative with
    | false => simp [Nat.mul_comm]
    | true =>
      simp only [if_true]
      ring
  have hpacked : x.packed = 2 ^ f.mantissaBits * upper + x.mantissaField := by
    rw [packed_eq, hmag, ← hupper, Nat.add_assoc]
  rw [hpacked, ← Nat.add_assoc, hupper, Nat.two_pow_add_eq_or_of_lt hmantissa,
    Nat.two_pow_add_eq_or_of_lt (Nat.or_lt_two_pow hmantissa hquiet), Nat.or_assoc]

/-- A NaN comes back with its payload, and quiet if the rule of the format asks for it. -/
theorem narrow_widen_of_isNaN (hf : f.IsNarrow) {x : Scalar f} (hx : x.isNaN = true)
    (mode : RoundingMode) :
    (narrow f x.widen mode).packed =
      match f.nanRule with
      | .quiet => x.packed ||| f.quietBit
      | .saturate => x.packed := by
  obtain ⟨hsign, hnan, hpayload⟩ := widen_of_isNaN hf hx
  obtain ⟨hnarrowSign, hnarrowMag⟩ := narrow_of_isNaN hf hnan mode
  rw [hpayload, shortenPayload_mul] at hnarrowMag
  rw [packed_eq, hnarrowSign, hsign, hnarrowMag]
  cases f.nanRule with
  | quiet => exact (packed_or_quietBit hf.toIsBinary hx).symm
  | saturate =>
    have hmag := magnitude_of_infinity_le ((isNaN_iff x).1 hx).le
    rw [packed_eq x, hmag]

/-! ## All encodings -/

/-- Narrowing undoes widening: a number comes back with its packed word in every mode, and by way of
double precision too; a NaN comes back with its packed word, where the rule of the format asks for it
with the quiet bit set. -/
theorem narrow_widen (hf : f.IsNarrow) (mode : RoundingMode) (x : Scalar f) :
    (narrow f x.widen mode).packed =
        (if x.isNaN then
          match f.nanRule with
          | .quiet => x.packed ||| f.quietBit
          | .saturate => x.packed
        else x.packed) ∧
      (x.isNaN = false → (Narrow.ofDouble f (Narrow.toDouble x)).packed = x.packed) := by
  refine ⟨?_, fun hx => ofDouble_toDouble hf hx⟩
  cases hx : x.isNaN with
  | false =>
    exact narrow_of_value?_eq hf (isNegative_widen hf x) (value?_widen hf x) hx mode
  | true => exact narrow_widen_of_isNaN hf hx mode

/-- The least negative denormal of half precision by way of double precision, and a signaling NaN of
each rule. -/
theorem narrow_widen_denormal_signaling :
    (Narrow.ofDouble .half (Narrow.toDouble (ofNat .half 0x8001))).packed = 0x8001 ∧
      (narrow .half (ofNat .half 0xfc01).widen .upward).packed = 0xfe01 ∧
      (narrow .tfloat (ofNat .tfloat 0x7f803000).widen .towardZero).packed = 0x3fc01 :=
  ⟨(narrow_widen Format.half_isNarrow .nearestEven (ofNat .half 0x8001)).2 (by decide),
    (narrow_widen Format.half_isNarrow _ _).1, (narrow_widen Format.tfloat_isNarrow _ _).1⟩

end Scalar

end PrecisionAudit
