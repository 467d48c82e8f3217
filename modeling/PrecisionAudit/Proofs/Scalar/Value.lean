import Mathlib
import PrecisionAudit.Proofs.Scalar.Fields
import PrecisionAudit.Scalar.Order

/-!
# The value of a stored number

What a scalar denotes, as a rational number or an infinity. A NaN has no value; every other scalar
has the value that its ordinal has on the signed grid of its format, and comparing two scalars is
comparing their values.

## Main results

- `Scalar.value?_eq`: the value of a scalar is the place of its ordinal on the signed grid.
- `Format.valueAt_strictMonoOn`: larger ordinals are larger values, up to both infinities.
- `Format.mem_values_iff`: the values of a format are those of its ordinals.
- `Scalar.compare?_eq_cmp_value`: comparison is comparison of values.
- `Scalar.compare?_eq_cmp_ordinal`: comparison is comparison of ordinals.
-/

namespace PrecisionAudit

/-- The rational numbers between two infinities. -/
abbrev Extended := WithBot (WithTop ℚ)

namespace Extended

theorem bot_lt_coe (q : ℚ) : (⊥ : Extended) < (q : ℚ) := WithBot.bot_lt_coe _

theorem coe_lt_top (q : ℚ) : ((q : ℚ) : Extended) < ⊤ :=
  WithBot.coe_lt_coe.2 (WithTop.coe_lt_top q)

theorem coe_strictMono : StrictMono fun q : ℚ => ((q : ℚ) : Extended) := fun _ _ h =>
  WithBot.coe_lt_coe.2 (WithTop.coe_lt_coe.2 h)

theorem eq_bot_or_eq_top_or_eq_coe (v : Extended) :
    v = ⊥ ∨ v = ⊤ ∨ ∃ q : ℚ, v = ((q : ℚ) : Extended) := by
  induction v using WithBot.recBotCoe with
  | bot => exact .inl rfl
  | coe v =>
    induction v using WithTop.recTopCoe with
    | top => exact .inr (.inl rfl)
    | coe q => exact .inr (.inr ⟨q, rfl⟩)

/-- A rational number is none of the infinities. -/
theorem coe_ne_infinite (q : ℚ) (negative : Bool) :
    ((q : ℚ) : Extended) ≠ if negative then ⊥ else ⊤ := by
  cases negative with
  | false => exact (coe_lt_top q).ne
  | true => exact (bot_lt_coe q).ne'

end Extended

/-- The rational number that an exact number stands for. -/
def Exact.value (x : Exact) : ℚ := (if x.negative then -1 else 1) * (x.significand * 2 ^ x.exponent)

/-- The value that an encoding denotes. -/
def Datum.value? : Datum → Option Extended
  | nan => none
  | infinite negative => some (if negative then ⊥ else ⊤)
  | finite number => some ((number.value : ℚ) : Extended)

/-- The value of a scalar, if it is not a NaN. -/
def Scalar.value? {f : Format} (x : Scalar f) : Option Extended := x.datum.value?

namespace Format

variable {f : Format}

/-- All values of a format, both infinities included. -/
def values (f : Format) : Set Extended := { v | ∃ x : Scalar f, x.value? = some v }

/-- The number at a signed place of the grid. -/
def gridValue (f : Format) (n : ℤ) : ℚ :=
  if n < 0 then -f.magnitudeValue n.natAbs else f.magnitudeValue n.natAbs

/-- The value at an ordinal. -/
def valueAt (f : Format) (n : ℤ) : Extended :=
  if f.infinity ≤ n then ⊤ else if n ≤ -f.infinity then ⊥ else (f.gridValue n : ℚ)

/-! ## The signed grid -/

theorem gridValue_of_nonneg (f : Format) {n : ℤ} (h : 0 ≤ n) :
    f.gridValue n = f.magnitudeValue n.toNat := by
  rw [gridValue, if_neg (by omega), show n.natAbs = n.toNat by omega]

theorem gridValue_of_nonpos (f : Format) {n : ℤ} (h : n ≤ 0) :
    f.gridValue n = -f.magnitudeValue (-n).toNat := by
  rcases h.lt_or_eq with h | rfl
  · rw [gridValue, if_pos h, show n.natAbs = (-n).toNat by omega]
  · simp [gridValue]

@[simp]
theorem gridValue_zero (f : Format) : f.gridValue 0 = 0 := by simp [gridValue]

theorem gridValue_strictMono (f : Format) : StrictMono f.gridValue := by
  intro a b hab
  rcases lt_or_ge b 0 with hb | hb
  · -- both negative: the order of the magnitudes, turned around
    rw [f.gridValue_of_nonpos hb.le, f.gridValue_of_nonpos (hab.trans hb).le, neg_lt_neg_iff]
    exact f.magnitudeValue_strictMono (by omega)
  · rw [f.gridValue_of_nonneg hb]
    rcases lt_or_ge a 0 with ha | ha
    · -- across zero
      rw [f.gridValue_of_nonpos ha.le]
      have hpos : f.magnitudeValue 0 < f.magnitudeValue (-a).toNat :=
        f.magnitudeValue_strictMono (by omega)
      have hnonneg := f.magnitudeValue_nonneg b.toNat
      rw [magnitudeValue_zero] at hpos
      linarith
    · rw [f.gridValue_of_nonneg ha]
      exact f.magnitudeValue_strictMono (by omega)

/-- Larger ordinals are larger values, up to both infinities. -/
theorem valueAt_strictMonoOn (hf : f.IsBinary) :
    StrictMonoOn f.valueAt (Set.Icc (-f.infinity) f.infinity) := by
  have hpos := hf.infinity_pos
  rintro a ⟨halow, -⟩ b ⟨-, hbhigh⟩ hab
  have hatop : ¬ (f.infinity : ℤ) ≤ a := by omega
  have hbbot : ¬ b ≤ -(f.infinity : ℤ) := by omega
  rw [valueAt, valueAt, if_neg hatop, if_neg hbbot]
  split
  · split
    · exact bot_lt_top
    · exact Extended.bot_lt_coe _
  · split
    · exact Extended.coe_lt_top _
    · exact Extended.coe_strictMono (f.gridValue_strictMono hab)

end Format

/-! ## Values of scalars -/

namespace Scalar

variable {f : Format}

theorem natAbs_ordinal (x : Scalar f) : x.ordinal.natAbs = x.magnitude := by
  unfold ordinal
  split <;> omega

theorem exact_negative (x : Scalar f) : x.exact.negative = x.isNegative := by
  unfold exact
  split <;> rfl

/-- The exact number of an encoding has the value of its magnitude. -/
theorem exact_magnitudeValue (x : Scalar f) :
    (x.exact.significand : ℚ) * 2 ^ x.exact.exponent = f.magnitudeValue x.magnitude := by
  have hcount : f.gridCount x.magnitude = if x.exponentField = 0 then x.mantissaField else
      (f.mantissaSpan + x.mantissaField) * 2 ^ (x.exponentField - 1) := rfl
  unfold Format.magnitudeValue exact
  rw [hcount]
  split
  case isTrue => rfl
  case isFalse hfield =>
    have hexp : (x.exponentField : ℤ) - f.bias - f.mantissaBits =
        ((x.exponentField - 1 : ℕ) : ℤ) + (f.minExponent - f.mantissaBits) := by
      unfold Format.minExponent
      omega
    rw [hexp, zpow_add₀ (by norm_num : (2 : ℚ) ≠ 0), zpow_natCast]
    push_cast
    ring

theorem gridValue_ordinal (x : Scalar f) :
    f.gridValue x.ordinal = (if x.isNegative then -1 else 1) * f.magnitudeValue x.magnitude := by
  unfold ordinal
  cases x.isNegative with
  | false => simp [f.gridValue_of_nonneg (n := x.magnitude) (by omega)]
  | true => simp [f.gridValue_of_nonpos (n := -(x.magnitude : ℤ)) (by omega)]

/-- The exact number of an encoding is the place of its ordinal on the signed grid. -/
theorem value_exact (x : Scalar f) : x.exact.value = f.gridValue x.ordinal := by
  rw [Exact.value, exact_negative, exact_magnitudeValue, gridValue_ordinal]

theorem datum_of_finite {x : Scalar f} (hx : x.magnitude < f.infinity) :
    x.datum = .finite x.exact := by
  have hfield : ¬ x.exponentField = f.exponentFieldMax := by
    rw [exponentField_eq_max_iff]
    omega
  rw [datum, if_neg hfield]

theorem datum_of_infinite {x : Scalar f} (hx : x.magnitude = f.infinity) :
    x.datum = .infinite x.isNegative := by
  have hfield := (x.exponentField_eq_max_iff).2 hx.ge
  rw [datum, if_pos hfield, if_pos (mantissaField_of_infinite hx)]

theorem datum_of_isNaN {x : Scalar f} (hx : x.isNaN = true) : x.datum = .nan := by
  rw [isNaN, Bool.and_eq_true, beq_iff_eq, bne_iff_ne] at hx
  rw [datum, if_pos hx.1, if_neg hx.2]

theorem value?_of_datum {x : Scalar f} {number : Exact} (hx : x.datum = .finite number) :
    x.value? = some ((number.value : ℚ) : Extended) := by
  rw [value?, hx, Datum.value?]

theorem value?_of_finite {x : Scalar f} (hx : x.magnitude < f.infinity) :
    x.value? = some ((f.gridValue x.ordinal : ℚ) : Extended) := by
  rw [value?_of_datum (datum_of_finite hx), value_exact]

theorem value?_of_infinite {x : Scalar f} (hx : x.magnitude = f.infinity) :
    x.value? = some (if x.isNegative then ⊥ else ⊤) := by
  rw [value?, datum_of_infinite hx, Datum.value?]

theorem value?_of_isNaN {x : Scalar f} (hx : x.isNaN = true) : x.value? = none := by
  rw [value?, datum_of_isNaN hx, Datum.value?]

/-- A scalar has one value. -/
theorem value_unique {x : Scalar f} {a b : ℚ} (ha : x.value? = some ((a : ℚ) : Extended))
    (hb : x.value? = some ((b : ℚ) : Extended)) : a = b :=
  Extended.coe_strictMono.injective (Option.some.inj (ha.symm.trans hb))

/-- The value depends on the packed word only, not on the padding. -/
theorem value?_congr {x y : Scalar f} (hsign : x.isNegative = y.isNegative)
    (hmag : x.magnitude = y.magnitude) : x.value? = y.value? := by
  have hfield : x.exponentField = y.exponentField := by rw [exponentField, hmag, exponentField]
  have hmantissa : x.mantissaField = y.mantissaField := by rw [mantissaField, hmag, mantissaField]
  rw [value?, value?, datum, datum, exact, exact, hsign, hfield, hmantissa]

/-- The value of a scalar is the place of its ordinal. -/
theorem value?_eq (hf : f.IsBinary) (x : Scalar f) :
    x.value? = if x.isNaN then none else some (f.valueAt x.ordinal) := by
  have hpos := hf.infinity_pos
  have hnatAbs := x.natAbs_ordinal
  rcases lt_trichotomy x.magnitude f.infinity with h | h | h
  · -- finite: the ordinal lies strictly between those of the infinities
    have htop : ¬ (f.infinity : ℤ) ≤ x.ordinal := by omega
    have hbot : ¬ x.ordinal ≤ -(f.infinity : ℤ) := by omega
    rw [(x.not_isNaN_iff).2 h.le, value?_of_finite h, Format.valueAt, if_neg htop, if_neg hbot]
    rfl
  · rw [(x.not_isNaN_iff).2 h.le, value?_of_infinite h, Format.valueAt, ordinal]
    cases x.isNegative with
    | false => simp [h]
    | true =>
      have hlow : ¬ (f.infinity : ℤ) ≤ -f.infinity := by omega
      simp [h, hlow]
  · have hnan := (x.isNaN_iff).2 h
    rw [hnan, if_pos rfl, value?_of_isNaN hnan]

theorem value?_of_not_isNaN (hf : f.IsBinary) {x : Scalar f} (hx : x.isNaN = false) :
    x.value? = some (f.valueAt x.ordinal) := by
  rw [value?_eq hf, hx]
  rfl

/-- Exactly the NaNs have no value. -/
theorem value?_eq_none_iff (hf : f.IsBinary) (x : Scalar f) :
    x.value? = none ↔ x.isNaN = true := by
  rw [value?_eq hf]
  cases x.isNaN <;> simp

/-- Whether a number is a NaN is seen at its value. -/
theorem isNaN_eq_of_value?_eq (hf : f.IsBinary) {g : Format} (hg : g.IsBinary) {x : Scalar f} {y : Scalar g}
    (h : x.value? = y.value?) : x.isNaN = y.isNaN := by
  rw [Bool.eq_iff_iff, ← value?_eq_none_iff hf, ← value?_eq_none_iff hg, h]

theorem isNaN_of_value?_eq (hf : f.IsBinary) {x : Scalar f} {v : Extended} (hx : x.value? = some v) :
    x.isNaN = false := by
  rw [← Bool.not_eq_true, ← x.value?_eq_none_iff hf, hx]
  simp

theorem ordinal_eq_zero_iff (x : Scalar f) : x.ordinal = 0 ↔ x.isZero = true := by
  rw [isZero_iff, ← natAbs_ordinal, Int.natAbs_eq_zero]

/-- Ordinals of numbers lie between those of the infinities. -/
theorem ordinal_mem {x : Scalar f} (hx : x.isNaN = false) :
    x.ordinal ∈ Set.Icc (-f.infinity : ℤ) f.infinity := by
  have hmag := (x.not_isNaN_iff).1 hx
  have hnatAbs := x.natAbs_ordinal
  constructor <;> omega

/-- Numbers of the same value have the same place among the numbers. -/
theorem ordinal_eq_of_value?_eq (hf : f.IsBinary) {x y : Scalar f} (hx : x.isNaN = false)
    (h : x.value? = y.value?) : x.ordinal = y.ordinal := by
  have hy := (isNaN_eq_of_value?_eq hf hf h).symm.trans hx
  rw [value?_of_not_isNaN hf hx, value?_of_not_isNaN hf hy, Option.some_inj] at h
  exact (Format.valueAt_strictMonoOn hf).injOn (ordinal_mem hx) (ordinal_mem hy) h

/-- Only zeros have one place and two signs. -/
theorem isNegative_eq_of_ordinal_eq {x y : Scalar f} (h : x.ordinal = y.ordinal) (hx : x.ordinal ≠ 0) :
    x.isNegative = y.isNegative := by
  unfold ordinal at h hx
  cases hsign : x.isNegative <;> cases hsign' : y.isNegative <;> simp [hsign, hsign'] at h hx ⊢ <;> omega

/-- A magnitude up to infinity is stored as the number with that ordinal. -/
theorem ordinal_ofParts (negative : Bool) {m : ℕ} (hm : m ≤ f.infinity) :
    (ofParts f negative m).isNaN = false ∧
      (ofParts f negative m).ordinal = if negative then -(m : ℤ) else m := by
  have hlt := hm.trans_lt f.infinity_lt_signMask
  rw [not_isNaN_iff, ordinal, isNegative_ofParts _ hlt, magnitude_ofParts _ hlt]
  exact ⟨hm, rfl⟩

/-- Zero is a number, in the middle of all of them. -/
theorem ordinal_zero (f : Format) : (zero f).isNaN = false ∧ (zero f).ordinal = 0 := by
  have hparts : zero f = ofParts f false 0 := rfl
  rw [hparts]
  exact ordinal_ofParts false (Nat.zero_le f.infinity)

/-- Every place up to the infinities is the ordinal of a number. -/
theorem exists_ordinal_eq {n : ℤ} (hn : n ∈ Set.Icc (-f.infinity : ℤ) f.infinity) :
    ∃ x : Scalar f, x.isNaN = false ∧ x.ordinal = n := by
  obtain ⟨hlow, hhigh⟩ := hn
  have hmag : n.natAbs ≤ f.infinity := by omega
  obtain ⟨hnan, hord⟩ := ordinal_ofParts (decide (n < 0)) hmag
  refine ⟨_, hnan, hord.trans ?_⟩
  simp only [decide_eq_true_eq]
  split <;> omega

end Scalar

/-- The values of a format are those of its ordinals. -/
theorem Format.mem_values_iff {f : Format} (hf : f.IsBinary) (v : Extended) :
    v ∈ f.values ↔ ∃ n ∈ Set.Icc (-f.infinity : ℤ) f.infinity, f.valueAt n = v := by
  constructor
  · rintro ⟨x, hx⟩
    have hnan := Scalar.isNaN_of_value?_eq hf hx
    rw [Scalar.value?_of_not_isNaN hf hnan, Option.some_inj] at hx
    exact ⟨x.ordinal, Scalar.ordinal_mem hnan, hx⟩
  · rintro ⟨n, hn, rfl⟩
    obtain ⟨x, hnan, rfl⟩ := Scalar.exists_ordinal_eq hn
    exact ⟨x, Scalar.value?_of_not_isNaN hf hnan⟩

/-! ## Comparison -/

/-- Counted in a common unit, an exact number is its value. -/
theorem Exact.inUnits_mul (x : Exact) {unit : ℤ} (h : unit ≤ x.exponent) :
    (x.inUnits unit : ℚ) * 2 ^ unit = x.value := by
  have hexp : (2 : ℚ) ^ x.exponent = 2 ^ (x.exponent - unit).toNat * 2 ^ unit := by
    rw [← zpow_natCast, ← zpow_add₀ (by norm_num : (2 : ℚ) ≠ 0)]
    congr 1
    omega
  unfold inUnits value
  rw [hexp]
  split
  · push_cast
    ring
  · push_cast
    ring

/-- Comparing exact numbers is comparing their values. -/
theorem Exact.compare_eq_cmp (x y : Exact) : x.compare y = cmp x.value y.value := by
  have hx := x.inUnits_mul (min_le_left x.exponent y.exponent)
  have hy := y.inUnits_mul (min_le_right x.exponent y.exponent)
  -- counting in a common unit keeps the order
  have hmono : StrictMono fun n : ℤ => (n : ℚ) * 2 ^ min x.exponent y.exponent := fun a b hab =>
    mul_lt_mul_of_pos_right (Int.cast_lt.2 hab) (by positivity)
  rw [← hx, ← hy]
  exact (hmono.cmp_map_eq _ _).symm ▸ (cmp_eq_compare _ _).symm

/-- Comparing what two encodings denote is comparing their values. -/
theorem Datum.compare?_eq_map₂ (a b : Datum) :
    a.compare? b = Option.map₂ cmp a.value? b.value? := by
  have hends : (⊥ : Extended) < ⊤ := bot_lt_top
  cases a with
  | nan => cases b <;> rfl
  | infinite s =>
    cases b with
    | nan => cases s <;> rfl
    | infinite t =>
      cases s <;> cases t <;> simp [compare?, value?, hends.cmp_eq_lt, hends.cmp_eq_gt]
    | finite y => cases s <;> simp [compare?, value?, (Extended.bot_lt_coe _).cmp_eq_lt,
        (Extended.coe_lt_top _).cmp_eq_gt]
  | finite x =>
    cases b with
    | nan => rfl
    | infinite t => cases t <;> simp [compare?, value?, (Extended.bot_lt_coe _).cmp_eq_gt,
        (Extended.coe_lt_top _).cmp_eq_lt]
    | finite y =>
      simp only [compare?, value?, Option.map₂_some_some, Exact.compare_eq_cmp]
      exact congrArg some (Extended.coe_strictMono.cmp_map_eq _ _).symm

/-- A comparison that says less or equal has found two values in this order. -/
theorem Extended.map₂_cmp_le_iff (a b : Option Extended) :
    (Option.map₂ cmp a b == some .lt || Option.map₂ cmp a b == some .eq) = true ↔
      ∃ v w, a = some v ∧ b = some w ∧ v ≤ w := by
  cases a with
  | none => simp
  | some v =>
    cases b with
    | none => simp
    | some w =>
      rw [Option.map₂_some_some]
      simp [le_iff_lt_or_eq]

namespace Scalar

variable {f : Format}

/-- Comparison is comparison of values; a NaN is unordered. -/
theorem compare?_eq_cmp_value (x y : Scalar f) :
    x.compare? y = Option.map₂ cmp x.value? y.value? :=
  Datum.compare?_eq_map₂ _ _

theorem numLe_iff_value (x y : Scalar f) :
    x.numLe y = true ↔ ∃ v w, x.value? = some v ∧ y.value? = some w ∧ v ≤ w := by
  rw [numLe, compare?_eq_cmp_value, Extended.map₂_cmp_le_iff]

/-- Comparison of numbers is comparison of their ordinals. -/
theorem compare?_eq_cmp_ordinal (hf : f.IsBinary) {x y : Scalar f} (hx : x.isNaN = false)
    (hy : y.isNaN = false) : x.compare? y = some (cmp x.ordinal y.ordinal) := by
  rw [compare?_eq_cmp_value, value?_of_not_isNaN hf hx, value?_of_not_isNaN hf hy,
    Option.map₂_some_some,
    (Format.valueAt_strictMonoOn hf).cmp_map_eq (ordinal_mem hx) (ordinal_mem hy)]

end Scalar

end PrecisionAudit
