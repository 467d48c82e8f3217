import PrecisionAudit.Narrow.Operators
import PrecisionAudit.Precision
import PrecisionAudit.Proofs.Scalar.Widening

/-!
# Comparison of narrow numbers

Two narrow numbers can be compared as they are, or with either of them brought to single or double
precision first. All these forms decide by the exact values, and for numbers that is the order of
the ordinals.

## Main results

- `Form.compare?_eq_cmp_value`: every form compares the exact values.
- `Precision.compare?_eq_cmp_ordinal`: in every working precision, the order of numbers is the order
  of their ordinals.
- `compare_agree`: all forms and all precisions together.
-/

namespace PrecisionAudit

namespace Narrow

variable {f : Format}

/-- Bringing a narrow number to double precision keeps its value. -/
theorem value?_toDouble (hf : f.IsNarrow) (x : Scalar f) : (toDouble x).value? = x.value? := by
  rw [toDouble, Scalar.value?_singleToDouble, Scalar.value?_widen hf]

/-- The forms in which two narrow numbers are compared: as they are, or with the right or the left
one widened. -/
inductive Form
  | plain
  | single
  | singleLeft
  | double
  | doubleLeft
  deriving DecidableEq, Repr

namespace Form

/-- The order of two narrow numbers in one of the forms. -/
def compare? : Form → Scalar f → Scalar f → Option Ordering
  | plain, x, y => Narrow.compare? x y
  | single, x, y => compareSingle? x y.widen
  | singleLeft, x, y => singleCompare? x.widen y
  | double, x, y => compareDouble? x (toDouble y)
  | doubleLeft, x, y => doubleCompare? (toDouble x) y

/-- Equality of two narrow numbers in one of the forms. -/
def numEq : Form → Scalar f → Scalar f → Bool
  | plain, x, y => Narrow.numEq x y
  | single, x, y => numEqSingle x y.widen
  | singleLeft, x, y => singleNumEq x.widen y
  | double, x, y => numEqDouble x (toDouble y)
  | doubleLeft, x, y => doubleNumEq (toDouble x) y

/-- Every form compares the exact values; a NaN on either side leaves them unordered. -/
theorem compare?_eq_cmp_value (hf : f.IsNarrow) (form : Form) (x y : Scalar f) :
    form.compare? x y = Option.map₂ cmp x.value? y.value? := by
  -- both sides are compared in one native precision, and both have kept their values on the way
  have hx := Scalar.value?_widen hf x
  have hy := Scalar.value?_widen hf y
  have hx' := value?_toDouble hf x
  have hy' := value?_toDouble hf y
  cases form with
  | plain => rw [compare?, Narrow.compare?, Scalar.compare?_eq_cmp_value, hx, hy]
  | single => rw [compare?, compareSingle?, Scalar.compare?_eq_cmp_value, hx, hy]
  | singleLeft => rw [compare?, singleCompare?, Scalar.compare?_eq_cmp_value, hx, hy]
  | double => rw [compare?, compareDouble?, Scalar.compare?_eq_cmp_value, hx', hy']
  | doubleLeft => rw [compare?, doubleCompare?, Scalar.compare?_eq_cmp_value, hx', hy']

/-- Numbers are ordered by their ordinals in every form. -/
theorem compare?_eq_cmp_ordinal (hf : f.IsNarrow) (form : Form) {x y : Scalar f}
    (hx : x.isNaN = false) (hy : y.isNaN = false) :
    form.compare? x y = some (cmp x.ordinal y.ordinal) := by
  rw [compare?_eq_cmp_value hf, ← Scalar.compare?_eq_cmp_value,
    Scalar.compare?_eq_cmp_ordinal hf.toIsBinary hx hy]

/-- Equality in a form says what the comparison in that form says. -/
theorem numEq_eq (form : Form) (x y : Scalar f) :
    form.numEq x y = (form.compare? x y == some .eq) := by
  cases form <;> rfl

/-- Numbers are equal in a form if they have the same ordinal. -/
theorem numEq_iff_ordinal (hf : f.IsNarrow) (form : Form) {x y : Scalar f} (hx : x.isNaN = false)
    (hy : y.isNaN = false) : form.numEq x y = true ↔ x.ordinal = y.ordinal := by
  rw [numEq_eq, compare?_eq_cmp_ordinal hf form hx hy, beq_iff_eq, Option.some_inj, cmp_eq_eq_iff]

end Form

end Narrow

/-! ## Working precisions -/

namespace Precision

theorem isBinary_format (p : Precision) : p.format.IsBinary := by
  cases p <;> decide

/-- In every working precision, numbers are compared by their exact values. -/
theorem compare?_eq_cmp_value (p : Precision) (x y : p.Value) :
    p.compare? x y = Option.map₂ cmp x.value? y.value? := by
  cases p with
  | half => exact Narrow.Form.plain.compare?_eq_cmp_value Format.half_isNarrow x y
  | bfloat => exact Narrow.Form.plain.compare?_eq_cmp_value Format.bfloat_isNarrow x y
  | tfloat => exact Narrow.Form.plain.compare?_eq_cmp_value Format.tfloat_isNarrow x y
  | single => exact Scalar.compare?_eq_cmp_value x y
  | double => exact Scalar.compare?_eq_cmp_value x y

/-- In every working precision, the order of numbers is the order of their ordinals. -/
theorem compare?_eq_cmp_ordinal (p : Precision) {x y : p.Value} (hx : x.isNaN = false)
    (hy : y.isNaN = false) : p.compare? x y = some (cmp x.ordinal y.ordinal) := by
  rw [compare?_eq_cmp_value, ← Scalar.compare?_eq_cmp_value,
    Scalar.compare?_eq_cmp_ordinal p.isBinary_format hx hy]

theorem le_iff_value (p : Precision) (x y : p.Value) :
    p.le x y = true ↔ ∃ v w, x.value? = some v ∧ y.value? = some w ∧ v ≤ w := by
  rw [le, compare?_eq_cmp_value, Extended.map₂_cmp_le_iff]

/-- What is at most a number is a number, and its ordinal is at most that of the other one. -/
theorem le_iff_ordinal (p : Precision) (x y : p.Value) :
    p.le x y = true ↔ x.isNaN = false ∧ y.isNaN = false ∧ x.ordinal ≤ y.ordinal := by
  unfold le
  cases hx : x.isNaN with
  | true =>
    rw [compare?_eq_cmp_value, Scalar.value?_of_isNaN hx]
    simp
  | false =>
    cases hy : y.isNaN with
    | true =>
      rw [compare?_eq_cmp_value, Scalar.value?_of_isNaN hy, Option.map₂_none_right]
      simp
    | false =>
      rw [p.compare?_eq_cmp_ordinal hx hy, le_iff_lt_or_eq, ← cmp_eq_lt_iff, ← cmp_eq_eq_iff]
      simp

end Precision

/-! ## One order -/

namespace Narrow

/-- All forms of comparison and of equality give one answer: the order of the exact values, which is
the order of the ordinals, and no order at all where there is a NaN. In every working precision, too,
numbers are ordered by their ordinals, and exactly the zeros have the ordinal zero. -/
theorem compare_agree :
    (∀ f : Format, f.IsNarrow → ∀ (form : Form) (x y : Scalar f),
      form.compare? x y = Option.map₂ cmp x.value? y.value? ∧
      form.numEq x y = (Option.map₂ cmp x.value? y.value? == some .eq) ∧
      (x.isNaN = true ∨ y.isNaN = true → form.compare? x y = none ∧ form.numEq x y = false) ∧
      (x.isNaN = false → y.isNaN = false →
        form.compare? x y = some (cmp x.ordinal y.ordinal) ∧
          (form.numEq x y = true ↔ x.ordinal = y.ordinal))) ∧
    ∀ (p : Precision) (x y : p.Value),
      (x.isNaN = false → y.isNaN = false → p.compare? x y = some (cmp x.ordinal y.ordinal)) ∧
        (x.ordinal = 0 ↔ x.isZero = true) := by
  refine ⟨fun f hf form x y => ?_, fun p x y => ⟨p.compare?_eq_cmp_ordinal, x.ordinal_eq_zero_iff⟩⟩
  have hvalue := form.compare?_eq_cmp_value hf x y
  have hequal := form.numEq_eq x y
  rw [hvalue] at hequal
  refine ⟨hvalue, hequal, ?_, fun hx hy =>
    ⟨form.compare?_eq_cmp_ordinal hf hx hy, form.numEq_iff_ordinal hf hx hy⟩⟩
  rintro (hx | hy)
  · rw [hequal, hvalue, Scalar.value?_of_isNaN hx]
    exact ⟨rfl, rfl⟩
  · rw [hequal, hvalue, Scalar.value?_of_isNaN hy, Option.map₂_none_right]
    exact ⟨rfl, rfl⟩

/-- The two zeros of the padded format, a NaN of half precision, and the two zeros of double
precision. -/
theorem compare_agree_zeros :
    Form.doubleLeft.numEq (Scalar.ofNat .tfloat 0x80000000) (Scalar.ofNat .tfloat 0x1fff) = true ∧
      Form.single.compare? (Scalar.ofNat .half 0x7e00) (Scalar.ofNat .half 0) = none ∧
      Precision.double.compare? (Scalar.ofNat .double 0) (Scalar.ofNat .double (2 ^ 63)) =
        some .eq :=
  ⟨((compare_agree.1 .tfloat Format.tfloat_isNarrow .doubleLeft _ _).2.2.2 (by decide)
      (by decide)).2.2 (by decide),
    ((compare_agree.1 .half Format.half_isNarrow .single _ _).2.2.1 (.inl (by decide))).1,
    (compare_agree.2 .double _ _).1 (by decide) (by decide)⟩

end Narrow

end PrecisionAudit
