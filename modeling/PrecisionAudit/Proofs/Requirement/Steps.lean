import Mathlib
import PrecisionAudit.Proofs.Scalar.Integers
import PrecisionAudit.Proofs.Scalar.Steps
import PrecisionAudit.Requirement.Check

/-!
# Requirements on the number of steps

A requirement on the number of steps brings the distance of two numbers into double precision before it
is compared with the bound. Distances up to `2 ^ 53` are counted exactly there, and only double precision
has longer ones: a longer distance may be rounded down, to the bound itself at most.

## Main results

- `Requirement.check_ulpValue_of_le`: within the bound a number passes.
- `Requirement.check_ulpValue_iff_distance`: what passes, and where that is the exact comparison.
- `Requirement.check_ulpValue_beyond_bound`: a number beyond a long bound that passes.
-/

namespace PrecisionAudit

variable {p : Precision}

/-! ## Distances in double precision -/

/-- Only double precision has numbers that are more than `2 ^ 53` steps apart. -/
theorem Precision.distance_le (hp : p ≠ .double) (x y : p.Value) : x.distance y ≤ 2 ^ 53 := by
  have hlt := x.distance_lt_two_pow_width y
  have hwidth : p.format.width ≤ 53 := by
    cases p with
    | double => exact absurd rfl hp
    | half | bfloat | tfloat | single => decide
  exact hlt.le.trans (Nat.pow_le_pow_right (by norm_num) hwidth)

theorem Format.two_pow_lt_overflowThreshold : (2 : ℚ) ^ 64 < Format.double.overflowThreshold := by
  have hfactor : (1 : ℚ) < 2 - 2 ^ (-(Format.double.mantissaBits + 1 : ℤ)) := by
    have hlt : (2 : ℚ) ^ (-(Format.double.mantissaBits + 1 : ℤ)) < 1 :=
      zpow_lt_one_of_neg₀ (by norm_num) (by decide)
    linarith
  have hpow : (2 : ℚ) ^ (64 : ℤ) ≤ 2 ^ Format.double.maxExponent :=
    zpow_le_zpow_right₀ (by norm_num) (by decide)
  calc (2 : ℚ) ^ 64 = 1 * 2 ^ (64 : ℤ) := by norm_num
    _ < Format.double.overflowThreshold := mul_lt_mul hfactor hpow (by positivity) (by linarith)

/-- A distance in double precision, on the same side of every value. -/
theorem Precision.exists_value?_distance_eq (x y : p.Value) :
    ∃ q : ℚ, (Scalar.ofInt .double (x.distance y)).value? = some ((q : ℚ) : Extended) ∧
      ∀ w ∈ Format.double.values, (((x.distance y : ℚ) : Extended) ≤ w → ((q : ℚ) : Extended) ≤ w) ∧
        (w ≤ ((x.distance y : ℚ) : Extended) → w ≤ ((q : ℚ) : Extended)) := by
  obtain ⟨q, hq, hside⟩ := Scalar.exists_value?_ofInt_eq Format.double_isBinary (n := x.distance y)
    (lt_trans (by exact_mod_cast Scalar.distance_lt p.width_le x y) Format.two_pow_lt_overflowThreshold)
  refine ⟨q, hq, fun w hw => ?_⟩
  obtain rfl | rfl | ⟨v, rfl⟩ := w.eq_bot_or_eq_top_or_eq_coe
  · exact ⟨fun h => absurd h (Extended.bot_lt_coe _).not_ge, fun _ => bot_le⟩
  · exact ⟨fun _ => le_top, fun h => absurd h (Extended.coe_lt_top _).not_ge⟩
  · obtain ⟨hlow, hhigh⟩ := hside v hw
    exact ⟨fun h => Extended.coe_strictMono.monotone (hhigh (Extended.coe_strictMono.le_iff_le.1 h)),
      fun h => Extended.coe_strictMono.monotone (hlow (Extended.coe_strictMono.le_iff_le.1 h))⟩

/-! ## The verdict -/

namespace Requirement

variable {bound x r : p.Value} {w : Extended}

/-- The verdict on numbers is the comparison of their distance, in double precision, with the bound. -/
theorem check_ulpValue_iff_value (hx : x.isNaN = false) (hr : r.isNaN = false) :
    (ulpValue bound).check x r = true ↔
      ∃ v b, (Scalar.ofInt .double (x.distance r)).value? = some v ∧ bound.value? = some b ∧ v ≤ b := by
  have hdistance : x.distance? r = some (x.distance r) := by simp [Scalar.distance?, hx, hr]
  rw [check, if_neg (by simp [hr]), withinSteps, hdistance]
  dsimp only
  rw [Scalar.numLe_iff_value, Precision.value?_toDouble]

theorem check_ulpValue_iff (hx : x.isNaN = false) (hr : r.isNaN = false) (hbound : bound.value? = some w)
    {q : ℚ} (hq : (Scalar.ofInt .double (x.distance r)).value? = some ((q : ℚ) : Extended)) :
    (ulpValue bound).check x r = true ↔ ((q : ℚ) : Extended) ≤ w := by
  rw [check_ulpValue_iff_value hx hr, hq, hbound]
  simp

/-- A bound is a number of double precision, too. -/
theorem mem_values_double (hbound : bound.value? = some w) : w ∈ Format.double.values :=
  ⟨p.toDouble bound, (Precision.value?_toDouble bound).trans hbound⟩

/-- Within the bound a lane passes. -/
theorem check_ulpValue_of_le (hx : x.isNaN = false) (hr : r.isNaN = false)
    (hbound : bound.value? = some w) (hle : ((x.distance r : ℚ) : Extended) ≤ w) :
    (ulpValue bound).check x r = true := by
  obtain ⟨q, hq, hside⟩ := Precision.exists_value?_distance_eq x r
  rw [check_ulpValue_iff hx hr hbound hq]
  exact (hside w (mem_values_double hbound)).1 hle

/-- A lane that passes is within the bound, in double precision if the bound is below `2 ^ 53`. -/
theorem distance_le_of_check (hx : x.isNaN = false) (hr : r.isNaN = false)
    (hbound : bound.value? = some w) (hp : p = .double → w < ((2 ^ 53 : ℕ) : ℚ))
    (hcheck : (ulpValue bound).check x r = true) : ((x.distance r : ℚ) : Extended) ≤ w := by
  obtain ⟨q, hq, hside⟩ := Precision.exists_value?_distance_eq x r
  rw [check_ulpValue_iff hx hr hbound hq] at hcheck
  rcases le_or_gt (x.distance r) (2 ^ 53) with hshort | hlong
  · -- a short distance is counted exactly
    rw [Scalar.value?_ofInt Format.double_isBinary (by decide) hshort, Option.some_inj] at hq
    rwa [hq]
  · -- a long one stays above every bound that is short
    have hdouble : p = .double := by
      by_contra hne
      exact hlong.not_ge (Precision.distance_le hne x r)
    have hv := Scalar.natCast_mem_values Format.double_isBinary (by decide) (le_refl (2 ^ 53))
    have hq53 := (hside _ hv).2 (Extended.coe_strictMono.monotone (Nat.cast_le.2 hlong.le))
    have hlt := hq53.trans_lt (hcheck.trans_lt (hp hdouble))
    exact absurd hlt (lt_irrefl _)

/-- A number passes if its distance is within the bound, or is rounded to the bound in double precision.
Unless the bound is a double precision number of `2 ^ 53` or more, the second adds nothing. -/
theorem check_ulpValue_iff_distance (hx : x.isNaN = false) (hr : r.isNaN = false)
    (hbound : bound.isNaN = false) :
    ∃ w, bound.value? = some w ∧
      ((ulpValue bound).check x r = true ↔ ((x.distance r : ℚ) : Extended) ≤ w ∨
        (Scalar.ofInt .double (x.distance r)).value? = some w) ∧
      ((p = .double → w < ((2 ^ 53 : ℕ) : ℚ)) →
        ((ulpValue bound).check x r = true ↔ ((x.distance r : ℚ) : Extended) ≤ w)) := by
  have hw := Scalar.value?_of_not_isNaN p.isBinary_format hbound
  generalize p.format.valueAt bound.ordinal = w at hw
  obtain ⟨q, hq, hside⟩ := Precision.exists_value?_distance_eq x r
  have hiff := check_ulpValue_iff hx hr hw hq
  refine ⟨w, hw, ⟨fun hcheck => ?_, ?_⟩, fun hshort => ⟨distance_le_of_check hx hr hw hshort,
    check_ulpValue_of_le hx hr hw⟩⟩
  · rcases le_or_gt ((x.distance r : ℚ) : Extended) w with hle | hlt
    · exact .inl hle
    · -- the bound lies below the distance, and so not above its rounding
      have hge := (hside w (mem_values_double hw)).2 hlt.le
      exact .inr (hq.trans (congrArg some (le_antisymm (hiff.1 hcheck) hge)))
  · rintro (hle | heq)
    · exact check_ulpValue_of_le hx hr hw hle
    · rw [hq, Option.some_inj] at heq
      exact hiff.2 heq.le

/-- Under a bound of two steps in single precision, two steps pass and three do not. -/
theorem check_ulpValue_iff_distance_two :
    let one : Precision.single.Value := .ofNat .single 0x3f800000
    let bound : Precision.single.Value := .ofInt .single 2
    (ulpValue bound).check (.ofNat .single 0x3f800002) one = true ∧
      ¬ (ulpValue bound).check (.ofNat .single 0x3f800003) one = true := by
  intro one bound
  have htwo : bound.value? = some (((2 : ℕ) : ℚ) : Extended) :=
    Scalar.value?_ofInt (n := 2) Format.single_isNarrow.toIsBinary (by decide) (by decide)
  have hiff (x : Precision.single.Value) (hx : x.isNaN = false) :
      (ulpValue bound).check x one = true ↔ x.distance one ≤ 2 := by
    have hone : one.isNaN = false := by decide +kernel
    have hnumber : bound.isNaN = false := by decide +kernel
    obtain ⟨w, hw, -, hexact⟩ := check_ulpValue_iff_distance hx hone hnumber
    obtain rfl := Option.some.inj (htwo.symm.trans hw)
    rw [hexact (by simp), Extended.coe_strictMono.le_iff_le, Nat.cast_le]
  exact ⟨(hiff _ (by decide +kernel)).2 (by decide +kernel),
    fun h => absurd ((hiff _ (by decide +kernel)).1 h) (by decide +kernel)⟩

/-- In double precision a bound of `2 ^ 53` steps lets a number pass that is one step beyond it. -/
theorem check_ulpValue_beyond_bound :
    let one : Precision.double.Value := .ofNat .double 0x3ff0000000000000
    let beyond : Precision.double.Value := .ofNat .double 0x4010000000000001
    let bound : Precision.double.Value := .ofNat .double 0x4340000000000000
    bound.value? = some (((2 ^ 53 : ℕ) : ℚ) : Extended) ∧ beyond.distance one = 2 ^ 53 + 1 ∧
      (ulpValue bound).check beyond one = true := by
  intro one beyond bound
  refine ⟨?_, by decide +kernel, by decide +kernel⟩
  have hdatum : bound.datum = .finite ⟨false, 2 ^ 52, 1⟩ := by decide +kernel
  rw [Scalar.value?_of_datum hdatum, Exact.value]
  norm_num

end Requirement

end PrecisionAudit
