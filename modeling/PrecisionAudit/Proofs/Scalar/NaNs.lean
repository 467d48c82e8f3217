import PrecisionAudit.Elementary.Power
import PrecisionAudit.Elementary.Trigonometric
import PrecisionAudit.Proofs.Scalar.Difference

/-!
# NaNs in operations

The operations of which the reference functions are made give a NaN where an operand that they look into is a
NaN. What the NaN is in detail, its payload, may differ.

## Main results

- `Scalar.isNaN_div`, `Scalar.isNaN_copySign`, …: arithmetic and signs.
- `Elementary.isNaN_keepingZero`, `Elementary.isNaN_atan2`, …: the shapes of the elementary functions.
-/

namespace PrecisionAudit

namespace Scalar

variable {f : Format} {x y : Scalar f}

/-! ## Arithmetic -/

theorem isNaN_div (hf : f.IsBinary) (h : x.isNaN = true ∨ y.isNaN = true) : (x.div y).isNaN = true := by
  have hpropagate := isNaN_propagate hf h
  unfold div
  rcases h with hx | hy
  · rw [datum_of_isNaN hx]
    exact hpropagate
  · rw [datum_of_isNaN hy]
    cases x.datum <;> exact hpropagate

theorem isNaN_recip (hf : f.IsBinary) (hx : x.isNaN = true) : x.recip.isNaN = true :=
  isNaN_div hf (.inr hx)

theorem isNaN_sqrt (hf : f.IsBinary) (hx : x.isNaN = true) : x.sqrt.isNaN = true := by
  rw [sqrt, datum_of_isNaN hx]
  exact isNaN_quieted hf hx

theorem isNaN_ceil (hf : f.IsBinary) (hx : x.isNaN = true) : x.ceil.isNaN = true := by
  rw [ceil, toIntegral, datum_of_isNaN hx]
  exact isNaN_quieted hf hx

/-- A number with another sign stays a NaN or not one. -/
theorem isNaN_copySign (x sign : Scalar f) : (x.copySign sign).isNaN = x.isNaN := by
  rw [Bool.eq_iff_iff, isNaN_iff, isNaN_iff, copySign, magnitude_ofParts _ x.magnitude_lt]

end Scalar

/-! ## Elementary functions -/

namespace Elementary

variable {f : Format} {x y : Scalar f} {infinite : Bool → Scalar f} {finite : Exact → Scalar f}

theorem isNaN_keepingZero (hf : f.IsBinary) (hx : x.isNaN = true) :
    (keepingZero x infinite finite).isNaN = true := by
  rw [keepingZero, Scalar.datum_of_isNaN hx]
  exact Scalar.isNaN_quieted hf hx

theorem isNaN_oneAtZero (hf : f.IsBinary) (hx : x.isNaN = true) :
    (oneAtZero x infinite finite).isNaN = true := by
  rw [oneAtZero, Scalar.datum_of_isNaN hx]
  exact Scalar.isNaN_quieted hf hx

theorem isNaN_logarithm (hf : f.IsBinary) (hx : x.isNaN = true) : (logarithm x finite).isNaN = true := by
  rw [logarithm, Scalar.datum_of_isNaN hx]
  exact Scalar.isNaN_quieted hf hx

theorem isNaN_acos (hf : f.IsBinary) (hx : x.isNaN = true) : (acos x).isNaN = true := by
  rw [acos, Scalar.datum_of_isNaN hx]
  exact Scalar.isNaN_quieted hf hx

theorem isNaN_acosh (hf : f.IsBinary) (hx : x.isNaN = true) : (acosh x).isNaN = true := by
  rw [acosh, Scalar.datum_of_isNaN hx]
  exact Scalar.isNaN_quieted hf hx

theorem isNaN_atan2 (hf : f.IsBinary) (h : x.isNaN = true ∨ y.isNaN = true) : (atan2 x y).isNaN = true := by
  rw [atan2, if_pos (by simpa using h)]
  exact Scalar.isNaN_propagate hf h

end Elementary

end PrecisionAudit
