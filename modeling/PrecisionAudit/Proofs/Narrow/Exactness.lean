import PrecisionAudit.Narrow.Functions
import PrecisionAudit.Proofs.Scalar.Integral
import PrecisionAudit.Proofs.Scalar.ThroughSingle
import PrecisionAudit.Proofs.Scalar.Widening

/-!
# Narrow operations that lose nothing

A remainder and a rounding to an integer start from narrow numbers and end on a number of the same narrow
format. Single precision computes it exactly, and bringing it back neither rounds nor overflows.

## Main results

- `Narrow.isExactNarrowing_ofSingle`: a narrow number comes back unchanged in every rounding mode.
- `Narrow.remainder_integerRule_exact`: remainders and integers are exact in every narrow format.
-/

namespace PrecisionAudit

namespace Narrow

variable {f : Format} {x y : Scalar f} {s : Single} {v a b : ℚ}

/-- The narrow number `r` has the value and the sign of the single precision number `s`, and is what
narrowing makes of it in every mode: nothing was rounded, and nothing became infinite. -/
structure IsExactNarrowing (s : Single) (r : Scalar f) : Prop where
  isFinite : r.isFinite = true
  value?_eq : r.value? = s.value?
  isNegative_eq : r.isNegative = s.isNegative
  narrow_eq : ∀ mode, Scalar.narrow f s mode = r

theorem isExactNarrowing_ofSingle (hf : f.IsNarrow) (hs : s.value? = some ((v : ℚ) : Extended)) {m : ℕ}
    (hm : m < f.infinity) (hv : |v| = f.magnitudeValue m) :
    IsExactNarrowing s (Scalar.ofSingle f s) := by
  obtain ⟨hfinite, -, hmag⟩ := Scalar.exact_of_value?_eq hs
  have hvalue : f.magnitudeValue m = Format.single.magnitudeValue s.magnitude := hv.symm.trans hmag
  have hnarrow (mode : RoundingMode) : Scalar.narrow f s mode = .ofParts f s.isNegative m := by
    rw [Scalar.narrow_eq_convert_of_isNarrow hf]
    exact Scalar.convert_of_magnitudeValue_eq hf.toIsBinary hfinite hm hvalue mode
  have hlt := hm.trans f.infinity_lt_signMask
  rw [Scalar.ofSingle, hnarrow]
  exact {
    isFinite := by rwa [Scalar.isFinite_iff, Scalar.magnitude_ofParts _ hlt]
    value?_eq := Scalar.value?_ofParts_eq hfinite hm hvalue
    isNegative_eq := Scalar.isNegative_ofParts _ hlt
    narrow_eq := hnarrow }

/-- The remainder of narrow numbers is the one that single precision gives. -/
theorem apply_rem_exact (hf : f.IsNarrow) (hx : x.value? = some ((a : ℚ) : Extended))
    (hy : y.value? = some ((b : ℚ) : Extended)) (hb : b ≠ 0) :
    (apply .rem x y).value? = some ((a - b * truncate (a / b) : ℚ) : Extended) ∧
      (apply .rem x y).isNegative = x.isNegative ∧
      IsExactNarrowing (x.widen.rem y.widen) (apply .rem x y) := by
  obtain ⟨hxfinite, -, ha⟩ := Scalar.exact_of_value?_eq hx
  obtain ⟨-, -, hb'⟩ := Scalar.exact_of_value?_eq hy
  obtain ⟨hrem, hsign⟩ := Scalar.value?_rem Format.single_isNarrow.toIsBinary
    ((x.value?_widen hf).trans hx) ((y.value?_widen hf).trans hy) hb
  -- the same remainder is a number of single precision and one of the narrow format
  obtain ⟨m, hm, hv⟩ := hf.toIsBinary.exists_magnitudeValue_eq_remainder ha hxfinite hb' hb
  have hexact : IsExactNarrowing (x.widen.rem y.widen) (apply .rem x y) :=
    isExactNarrowing_ofSingle hf hrem hm hv
  refine ⟨hexact.value?_eq.trans hrem, ?_, hexact⟩
  rw [hexact.isNegative_eq, hsign, x.isNegative_widen hf]

/-- The integer that a rule makes of a narrow number is the one that single precision gives. -/
theorem map_integerRule_exact (hf : f.IsNarrow) (hbits : (f.mantissaBits : ℤ) < f.maxExponent)
    (rule : IntegerRule) (hx : x.value? = some ((a : ℚ) : Extended)) :
    ∃ n : ℤ, rule.Rounds a n ∧ (map rule.apply x).value? = some ((n : ℚ) : Extended) ∧
      (map rule.apply x).isNegative = x.isNegative ∧
      IsExactNarrowing (rule.apply x.widen) (map rule.apply x) := by
  obtain ⟨hfinite, -, ha⟩ := Scalar.exact_of_value?_eq hx
  obtain ⟨n, hn, hvalue, hsign⟩ := rule.value?_apply Format.single_isNarrow.toIsBinary (by decide)
    ((x.value?_widen hf).trans hx)
  obtain ⟨m, hm, hv⟩ := hf.toIsBinary.exists_magnitudeValue_eq_rounds hbits ha hfinite hn
  have hexact : IsExactNarrowing _ (map rule.apply x) := isExactNarrowing_ofSingle hf hvalue hm hv
  refine ⟨n, hn, hexact.value?_eq.trans hvalue, ?_, hexact⟩
  rw [hexact.isNegative_eq, hsign, x.isNegative_widen hf]

/-- Remainders and roundings to an integer lose nothing in the narrow formats. The operator and the library
function give `a - b * truncate (a / b)` with the sign of the dividend, and the five rounding functions
give the integer that their rule names. Single precision has these numbers, and every mode narrows them
without rounding or overflow. -/
theorem remainder_integerRule_exact (hf : f = .half ∨ f = .bfloat ∨ f = .tfloat) (hx : x.isFinite = true) :
    ∃ a : ℚ, x.value? = some ((a : ℚ) : Extended) ∧
      (∀ y : Scalar f, y.isFinite = true → y.isZero = false → ∃ b : ℚ,
        b ≠ 0 ∧ y.value? = some ((b : ℚ) : Extended) ∧
        (∀ library : MathLibrary,
          library.binary? "fmod" = some (apply .rem : Scalar f → Scalar f → Scalar f)) ∧
        (apply .rem x y).value? = some ((a - b * truncate (a / b) : ℚ) : Extended) ∧
        (apply .rem x y).isNegative = x.isNegative ∧
        IsExactNarrowing (x.widen.rem y.widen) (apply .rem x y)) ∧
      ∀ rule : IntegerRule, ∃ n : ℤ, rule.Rounds a n ∧
        (∀ library : MathLibrary,
          library.unary? rule.name = some (map rule.apply : Scalar f → Scalar f)) ∧
        (map rule.apply x).value? = some ((n : ℚ) : Extended) ∧
        (map rule.apply x).isNegative = x.isNegative ∧
        IsExactNarrowing (rule.apply x.widen) (map rule.apply x) := by
  obtain ⟨hnarrow, hbits⟩ : f.IsNarrow ∧ (f.mantissaBits : ℤ) < f.maxExponent := by
    rcases hf with rfl | rfl | rfl
    · exact ⟨Format.half_isNarrow, by decide⟩
    · exact ⟨Format.bfloat_isNarrow, by decide⟩
    · exact ⟨Format.tfloat_isNarrow, by decide⟩
  have ha := Scalar.value?_of_finite ((Scalar.isFinite_iff x).1 hx)
  refine ⟨_, ha, fun y hy hnonzero => ?_, fun rule => ?_⟩
  · have hb := Scalar.value?_of_finite ((Scalar.isFinite_iff y).1 hy)
    have hne : f.gridValue y.ordinal ≠ 0 := by
      rw [← f.gridValue_zero, f.gridValue_strictMono.injective.ne_iff, Ne, y.ordinal_eq_zero_iff, hnonzero]
      exact Bool.false_ne_true
    exact ⟨_, hne, hb, fun _ => rfl, apply_rem_exact hnarrow ha hb hne⟩
  · obtain ⟨n, hn, hexact⟩ := map_integerRule_exact hnarrow hbits rule ha
    exact ⟨n, hn, fun _ => by cases rule <;> rfl, hexact⟩

/-- Minus five halves leaves minus the least denormal of half precision against three of them, and goes
to minus three, the integer away from zero. -/
theorem remainder_integerRule_exact_half :
    let x := Scalar.ofNat .half 0xc100
    let y := Scalar.ofNat .half 0x0003
    x.value? = some ((-(5 * 2 ^ (-1 : ℤ)) : ℚ) : Extended) ∧
      y.value? = some ((3 * 2 ^ (-24 : ℤ) : ℚ) : Extended) ∧
      (apply .rem x y).value? = some ((-2 ^ (-24 : ℤ) : ℚ) : Extended) ∧
      IsExactNarrowing (x.widen.rem y.widen) (apply .rem x y) ∧
      (map Scalar.roundAway x).value? = some ((-3 : ℚ) : Extended) := by
  intro x y
  have hx : x.value? = some ((-(5 * 2 ^ (-1 : ℤ)) : ℚ) : Extended) := by
    have hdatum : x.datum = .finite ⟨true, 5 * 2 ^ 8, -9⟩ := by decide +kernel
    rw [Scalar.value?_of_datum hdatum, Exact.value]
    norm_num
  have hy : y.value? = some ((3 * 2 ^ (-24 : ℤ) : ℚ) : Extended) := by
    have hdatum : y.datum = .finite ⟨false, 3, -24⟩ := by decide +kernel
    rw [Scalar.value?_of_datum hdatum, Exact.value]
    norm_num
  obtain ⟨a, ha, hrem, hrule⟩ := remainder_integerRule_exact (x := x) (.inl rfl) (by decide +kernel)
  obtain ⟨b, -, hb, -, hvalue, -, hexact⟩ := hrem y (by decide +kernel) (by decide +kernel)
  obtain ⟨n, ⟨hnear, htie⟩, -, hinteger, -⟩ := hrule .round
  obtain rfl := Scalar.value_unique hx ha
  obtain rfl := Scalar.value_unique hy hb
  have hquotient : truncate (-(5 * 2 ^ (-1 : ℤ)) / (3 * 2 ^ (-24 : ℤ))) = -13981013 := by
    norm_num [truncate, Int.ceil_eq_iff]
  have hn : n = -3 := by
    norm_num at hnear htie
    obtain ⟨hlow, hhigh⟩ := abs_le.1 hnear
    have hlow' : (-3 : ℚ) ≤ n := by linarith
    have hhigh' : (n : ℚ) ≤ -2 := by linarith
    obtain h | rfl : n = -3 ∨ n = -2 := by
      have h3 : -3 ≤ n := by exact_mod_cast hlow'
      have h2 : n ≤ -2 := by exact_mod_cast hhigh'
      omega
    · exact h
    · -- the other neighbour would be a tie toward zero
      norm_num [abs_of_neg] at htie
  refine ⟨hx, hy, ?_, hexact, ?_⟩
  · rw [hvalue, hquotient]
    norm_num
  · rw [← show ((n : ℤ) : ℚ) = -3 by simp [hn]]
    exact hinteger

end Narrow

end PrecisionAudit
