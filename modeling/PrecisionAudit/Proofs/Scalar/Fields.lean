import PrecisionAudit.Proofs.Format.Grid
import PrecisionAudit.Scalar.Basic

/-!
# Fields of a stored number

A packed word is a sign above a magnitude, and the magnitude alone says of which class a number
is: finite below the infinity of its format, NaN above it.

## Main results

- `packed_eq`: a packed word is its sign and its magnitude.
- `isNegative_ofParts`, `magnitude_ofParts`, `packed_ofParts`: what is stored is read back.
- `isNaN_iff`, `isInfinite_iff`, `isFinite_iff`, `isDenormal_iff`: the classes by magnitude.
- `magnitude_neg`, `magnitude_abs`, `magnitude_copySign`: what changes the sign keeps the magnitude.
-/

namespace PrecisionAudit

namespace Format

theorem signMask_eq (f : Format) : f.signMask = 2 ^ f.exponentBits * f.mantissaSpan := pow_add ..

theorem two_mul_signMask (f : Format) : 2 * f.signMask = 2 ^ f.width := by
  rw [signMask, width, ← pow_succ']
  congr 1
  omega

theorem signMask_pos (f : Format) : 0 < f.signMask := Nat.two_pow_pos _

theorem infinity_add_mantissaSpan (f : Format) : f.infinity + f.mantissaSpan = f.signMask := by
  have hpos : 0 < 2 ^ f.exponentBits := Nat.two_pow_pos _
  rw [infinity, exponentMask, exponentFieldMax, signMask_eq, ← Nat.succ_mul,
    Nat.succ_eq_add_one, Nat.sub_add_cancel hpos]

theorem infinity_lt_signMask (f : Format) : f.infinity < f.signMask := by
  have hsum := f.infinity_add_mantissaSpan
  have hpos := f.mantissaSpan_pos
  omega

theorem IsBinary.quietBit_lt {f : Format} (hf : f.IsBinary) : f.quietBit < f.mantissaSpan := by
  have hbits := hf.one_le_mantissaBits
  exact Nat.pow_lt_pow_right (by norm_num) (by omega)

theorem IsBinary.signMask_even {f : Format} (hf : f.IsBinary) : f.signMask % 2 = 0 := by
  rw [f.signMask_eq, Nat.mul_mod, hf.even_mantissaSpan, Nat.mul_zero, Nat.zero_mod]

theorem IsBinary.infinity_even {f : Format} (hf : f.IsBinary) : f.infinity % 2 = 0 := by
  rw [infinity, exponentMask, Nat.mul_mod, hf.even_mantissaSpan, Nat.mul_zero, Nat.zero_mod]

theorem IsBinary.infinity_pos {f : Format} (hf : f.IsBinary) : 0 < f.infinity :=
  Nat.mul_pos (by have := hf.three_le_exponentFieldMax; omega) f.mantissaSpan_pos

end Format

namespace Scalar

variable {f : Format}

/-! ## Packed words -/

theorem packed_lt (x : Scalar f) : x.packed < 2 ^ f.width := by
  rw [packed, Nat.div_lt_iff_lt_mul (Nat.two_pow_pos _), ← pow_add]
  exact x.bits.isLt

/-- Storing a packed word loses what lies beyond the width. -/
theorem packed_ofPacked (f : Format) (p : ℕ) : (ofPacked f p).packed = p % 2 ^ f.width := by
  rw [packed, toNat, ofPacked, ofNat, BitVec.toNat_ofNat, Format.storageWidth, pow_add,
    Nat.mul_mod_mul_right, Nat.mul_div_cancel _ (Nat.two_pow_pos _)]

theorem magnitude_lt (x : Scalar f) : x.magnitude < f.signMask := Nat.mod_lt _ f.signMask_pos

/-- A packed word is its sign and its magnitude. -/
theorem packed_eq (x : Scalar f) :
    x.packed = (if x.isNegative then f.signMask else 0) + x.magnitude := by
  have hlt := x.packed_lt
  have hwidth := f.two_mul_signMask
  unfold isNegative magnitude
  rcases Nat.lt_or_ge x.packed f.signMask with h | h
  · simp [Nat.not_le.2 h, Nat.mod_eq_of_lt h]
  · rw [Nat.mod_eq_sub_mod h, Nat.mod_eq_of_lt (by omega)]
    simp only [h, decide_true, if_true]
    omega

theorem packed_ofParts (negative : Bool) {m : ℕ} (hm : m < f.signMask) :
    (ofParts f negative m).packed = (if negative then f.signMask else 0) + m := by
  have hwidth := f.two_mul_signMask
  rw [ofParts, packed_ofPacked, Nat.mod_eq_of_lt]
  split <;> omega

/-- Without padding a number is its sign and its magnitude. -/
theorem ofParts_isNegative_magnitude (hpadding : f.paddingBits = 0) (x : Scalar f) :
    ofParts f x.isNegative x.magnitude = x := by
  rw [ofParts, ← packed_eq, ofPacked, packed, hpadding, pow_zero, Nat.div_one, Nat.mul_one, ofNat, toNat,
    BitVec.ofNat_toNat, BitVec.setWidth_eq]

/-- The sign bit does not touch the parity. -/
theorem packed_ofParts_mod_two (hf : f.IsBinary) (negative : Bool) {m : ℕ} (hm : m < f.signMask) :
    (ofParts f negative m).packed % 2 = m % 2 := by
  have hmask := hf.signMask_even
  rw [packed_ofParts negative hm]
  split <;> omega

@[simp]
theorem isNegative_ofParts (negative : Bool) {m : ℕ} (hm : m < f.signMask) :
    (ofParts f negative m).isNegative = negative := by
  rw [isNegative, packed_ofParts negative hm]
  cases negative <;> simp [hm]

@[simp]
theorem magnitude_ofParts (negative : Bool) {m : ℕ} (hm : m < f.signMask) :
    (ofParts f negative m).magnitude = m := by
  rw [magnitude, packed_ofParts negative hm]
  cases negative <;> simp [Nat.mod_eq_of_lt hm]

/-! ## Classes -/

theorem magnitude_eq (x : Scalar f) :
    x.magnitude = x.exponentField * f.mantissaSpan + x.mantissaField :=
  (Nat.div_add_mod' _ _).symm

theorem exponentField_le (x : Scalar f) : x.exponentField ≤ f.exponentFieldMax := by
  have hlt : x.exponentField < 2 ^ f.exponentBits := by
    rw [exponentField, Nat.div_lt_iff_lt_mul f.mantissaSpan_pos, ← f.signMask_eq]
    exact x.magnitude_lt
  exact Nat.le_sub_one_of_lt hlt

/-- The exponent field is all ones from the infinity on. -/
theorem exponentField_eq_max_iff (x : Scalar f) :
    x.exponentField = f.exponentFieldMax ↔ f.infinity ≤ x.magnitude := by
  rw [Format.infinity, Format.exponentMask, ← Nat.le_div_iff_mul_le f.mantissaSpan_pos]
  exact ⟨fun h => h.ge, fun h => le_antisymm x.exponentField_le h⟩

theorem isFinite_iff (x : Scalar f) : x.isFinite = true ↔ x.magnitude < f.infinity := by
  rw [isFinite, bne_iff_ne, Ne, exponentField_eq_max_iff, not_le]

theorem isInfinite_iff (x : Scalar f) : x.isInfinite = true ↔ x.magnitude = f.infinity := by
  rw [isInfinite, beq_iff_eq]

theorem isInfinite_ofParts_iff (negative : Bool) {m : ℕ} (hm : m ≤ f.infinity) :
    (ofParts f negative m).isInfinite = true ↔ m = f.infinity := by
  rw [isInfinite_iff, magnitude_ofParts negative (hm.trans_lt f.infinity_lt_signMask)]

/-- From the infinity on, the mantissa is what the magnitude has beyond it. -/
theorem magnitude_of_infinity_le {x : Scalar f} (hx : f.infinity ≤ x.magnitude) :
    x.magnitude = f.infinity + x.mantissaField := by
  rw [Format.infinity, Format.exponentMask, ← (x.exponentField_eq_max_iff).2 hx, ← magnitude_eq]

theorem isNaN_iff (x : Scalar f) : x.isNaN = true ↔ f.infinity < x.magnitude := by
  rw [isNaN, Bool.and_eq_true, beq_iff_eq, bne_iff_ne, exponentField_eq_max_iff]
  constructor
  · rintro ⟨hle, hmantissa⟩
    have hmag := magnitude_of_infinity_le hle
    omega
  · intro hlt
    have hmag := magnitude_of_infinity_le hlt.le
    exact ⟨hlt.le, by omega⟩

/-- The payload of a NaN is not empty. -/
theorem mantissaField_pos_of_isNaN {x : Scalar f} (hx : x.isNaN = true) : 0 < x.mantissaField := by
  have hlt := (isNaN_iff x).1 hx
  have hmag := magnitude_of_infinity_le hlt.le
  omega

theorem mantissaField_of_infinite {x : Scalar f} (hx : x.magnitude = f.infinity) :
    x.mantissaField = 0 := by
  have hmag := magnitude_of_infinity_le hx.ge
  omega

theorem not_isNaN_iff (x : Scalar f) : x.isNaN = false ↔ x.magnitude ≤ f.infinity := by
  rw [← Bool.not_eq_true, isNaN_iff, not_lt]

theorem isZero_iff (x : Scalar f) : x.isZero = true ↔ x.magnitude = 0 := by
  rw [isZero, beq_iff_eq]

/-- The denormals are the magnitudes between zero and the smallest normal number. -/
theorem isDenormal_iff (x : Scalar f) :
    x.isDenormal = true ↔ 0 < x.magnitude ∧ x.magnitude < f.mantissaSpan := by
  have hmag := x.magnitude_eq
  rw [isDenormal, Bool.and_eq_true, beq_iff_eq, bne_iff_ne]
  constructor
  · rintro ⟨hfield, hmantissa⟩
    rw [hfield, Nat.zero_mul, Nat.zero_add] at hmag
    exact ⟨by omega, hmag.trans_lt x.mantissaField_lt⟩
  · rintro ⟨hpos, hlt⟩
    have hfield : x.exponentField = 0 := Nat.div_eq_of_lt hlt
    rw [hfield, Nat.zero_mul, Nat.zero_add] at hmag
    exact ⟨hfield, by omega⟩

/-! ## Operations on fields -/

theorem magnitude_neg (x : Scalar f) : x.neg.magnitude = x.magnitude :=
  magnitude_ofParts _ x.magnitude_lt

theorem isNegative_neg (x : Scalar f) : x.neg.isNegative = !x.isNegative :=
  isNegative_ofParts _ x.magnitude_lt

theorem magnitude_abs (x : Scalar f) : x.abs.magnitude = x.magnitude :=
  magnitude_ofParts _ x.magnitude_lt

theorem isNegative_abs (x : Scalar f) : x.abs.isNegative = false :=
  isNegative_ofParts _ x.magnitude_lt

theorem magnitude_copySign (x y : Scalar f) : (x.copySign y).magnitude = x.magnitude :=
  magnitude_ofParts _ x.magnitude_lt

theorem isNegative_copySign (x y : Scalar f) : (x.copySign y).isNegative = y.isNegative :=
  isNegative_ofParts _ x.magnitude_lt

end Scalar

end PrecisionAudit
