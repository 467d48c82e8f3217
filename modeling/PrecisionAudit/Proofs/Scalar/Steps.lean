import Mathlib
import PrecisionAudit.Proofs.Narrow.Comparison

/-!
# Representable steps

The distance of two numbers is the number of values of their format that lie between them, and for
the narrow formats it is also the number of times `nextAfter` has to be taken to get from one to the
other.

## Main results

- `Format.encard_values_between`: the values between two places of the grid are as many as the steps.
- `Scalar.ordinal_nextAfter`: one step moves the ordinal by one toward the target.
- `Narrow.ordinal_walk`: a walk moves straight to its target and stays there.
- `distance_counts_steps`: distance counts values and steps.
-/

namespace PrecisionAudit

/-! ## Counting values -/

namespace Format

variable {f : Format}

/-- The values between two places of the grid are those of the ordinals between them. -/
theorem values_between_eq_image (hf : f.IsBinary) {m n : ℤ}
    (hm : m ∈ Set.Icc (-f.infinity : ℤ) f.infinity)
    (hn : n ∈ Set.Icc (-f.infinity : ℤ) f.infinity) :
    { v ∈ f.values | min (f.valueAt m) (f.valueAt n) < v ∧ v ≤ max (f.valueAt m) (f.valueAt n) } =
      f.valueAt '' Set.Ioc (min m n) (max m n) := by
  have hmono := valueAt_strictMonoOn hf
  have hlow : min m n ∈ Set.Icc (-f.infinity : ℤ) f.infinity := by
    rcases min_choice m n with h | h <;> rwa [h]
  have hhigh : max m n ∈ Set.Icc (-f.infinity : ℤ) f.infinity := by
    rcases max_choice m n with h | h <;> rwa [h]
  rw [← hmono.monotoneOn.map_min hm hn, ← hmono.monotoneOn.map_max hm hn]
  ext v
  constructor
  · rintro ⟨hv, hlt, hle⟩
    obtain ⟨k, hk, rfl⟩ := (mem_values_iff hf v).1 hv
    exact ⟨k, ⟨(hmono.lt_iff_lt hlow hk).1 hlt, (hmono.le_iff_le hk hhigh).1 hle⟩, rfl⟩
  · rintro ⟨k, ⟨hlt, hle⟩, rfl⟩
    have hk : k ∈ Set.Icc (-f.infinity : ℤ) f.infinity :=
      ⟨hlow.1.trans hlt.le, hle.trans hhigh.2⟩
    exact ⟨(mem_values_iff hf _).2 ⟨k, hk, rfl⟩, (hmono.lt_iff_lt hlow hk).2 hlt,
      (hmono.le_iff_le hk hhigh).2 hle⟩

/-- The values between two places of the grid are as many as the steps between them. -/
theorem encard_values_between (hf : f.IsBinary) {m n : ℤ}
    (hm : m ∈ Set.Icc (-f.infinity : ℤ) f.infinity)
    (hn : n ∈ Set.Icc (-f.infinity : ℤ) f.infinity) :
    { v ∈ f.values | min (f.valueAt m) (f.valueAt n) < v ∧
      v ≤ max (f.valueAt m) (f.valueAt n) }.encard = (m - n).natAbs := by
  have hinj : Set.InjOn f.valueAt (Set.Ioc (min m n) (max m n)) := by
    refine (valueAt_strictMonoOn hf).injOn.mono fun k hk => ?_
    obtain ⟨hlow, hhigh⟩ := hk
    obtain ⟨hm1, hm2⟩ := hm
    obtain ⟨hn1, hn2⟩ := hn
    constructor <;> omega
  rw [values_between_eq_image hf hm hn, hinj.encard_image, ← Finset.coe_Ioc,
    Set.encard_coe_eq_coe_finsetCard, Int.card_Ioc]
  congr 1
  omega

/-- A place between two others has its value between theirs. -/
theorem valueAt_between (hf : f.IsBinary) {k m n : ℤ}
    (hm : m ∈ Set.Icc (-f.infinity : ℤ) f.infinity)
    (hn : n ∈ Set.Icc (-f.infinity : ℤ) f.infinity) (hk : k ∈ Set.uIcc m n) :
    f.valueAt k ∈ Set.uIcc (f.valueAt m) (f.valueAt n) := by
  have hsub : Set.uIcc m n ⊆ Set.Icc (-f.infinity : ℤ) f.infinity := Set.uIcc_subset_Icc hm hn
  exact ((valueAt_strictMonoOn hf).monotoneOn.mono hsub).mapsTo_uIcc hk

end Format

namespace Scalar

variable {f : Format}

/-! ## Bounds -/

/-- In a format of at most 64 bits an ordinal is a signed word, in whose range its negation is, too. -/
theorem natAbs_ordinal_lt (hwidth : f.width ≤ 64) (x : Scalar f) : x.ordinal.natAbs < 2 ^ 63 := by
  have hsign : f.signMask ≤ 2 ^ 63 := by
    refine Nat.pow_le_pow_right (by norm_num) ?_
    unfold Format.width at hwidth
    omega
  rw [natAbs_ordinal]
  exact x.magnitude_lt.trans_le hsign

/-- The distance is an unsigned word. -/
theorem distance_lt (hwidth : f.width ≤ 64) (x y : Scalar f) : x.distance y < 2 ^ 64 := by
  have hx := natAbs_ordinal_lt hwidth x
  have hy := natAbs_ordinal_lt hwidth y
  unfold distance
  omega

/-- The distance is less than the number of packed words. -/
theorem distance_lt_two_pow_width (x y : Scalar f) : x.distance y < 2 ^ f.width := by
  have hx := x.magnitude_lt
  have hy := y.magnitude_lt
  rw [← natAbs_ordinal] at hx hy
  rw [← f.two_mul_signMask, distance]
  omega

/-! ## Laws of the distance -/

theorem distance_comm (x y : Scalar f) : x.distance y = y.distance x := by
  unfold distance
  omega

/-- What lies between two numbers is not farther from the first than the second is. -/
theorem distance_le_of_mem_uIcc {x y z : Scalar f} (h : y.ordinal ∈ Set.uIcc x.ordinal z.ordinal) :
    y.distance x ≤ z.distance x := by
  rw [Set.mem_uIcc] at h
  unfold distance
  omega

/-! ## One step -/

/-- The direction from one ordinal to another. -/
theorem sign_sub_eq (m n : ℤ) :
    (n - m).sign = if m < n then 1 else if m = n then 0 else -1 := by
  rcases lt_trichotomy m n with hlt | rfl | hgt
  · rw [if_pos hlt, Int.sign_eq_one_of_pos (by omega)]
  · simp
  · rw [if_neg hgt.not_gt, if_neg hgt.ne', Int.sign_eq_neg_one_of_neg (by omega)]

/-- The comparisons that a step makes are comparisons of ordinals. -/
theorem numLt_widen_iff (hf : f.IsNarrow) {x y : Scalar f} (hx : x.isNaN = false)
    (hy : y.isNaN = false) : x.widen.numLt y.widen = true ↔ x.ordinal < y.ordinal := by
  have horder : x.widen.compare? y.widen = some (cmp x.ordinal y.ordinal) :=
    Narrow.Form.plain.compare?_eq_cmp_ordinal hf hx hy
  rw [numLt, horder, beq_iff_eq, Option.some_inj, cmp_eq_lt_iff]

/-- What a step does, by cases: it takes the target if there is no way to go, the least denormal of
the right sign if it starts at a zero, and otherwise the magnitude next to the one it starts at. -/
theorem nextAfter_eq (hf : f.IsNarrow) {x y : Scalar f} (hx : x.isNaN = false)
    (hy : y.isNaN = false) :
    x.nextAfter y =
      if x.ordinal = y.ordinal then y
      else if x.ordinal = 0 then ofParts f (decide (y.ordinal < 0)) 1
      else ofParts f x.isNegative
        (if decide (x.ordinal < y.ordinal) != x.isNegative then x.magnitude + 1
        else x.magnitude - 1) := by
  have hequal : x.widen.numEq y.widen = decide (x.ordinal = y.ordinal) := by
    rw [Bool.eq_iff_iff, decide_eq_true_iff]
    exact Narrow.Form.plain.numEq_iff_ordinal hf hx hy
  have hless : x.widen.numLt y.widen = decide (x.ordinal < y.ordinal) := by
    rw [Bool.eq_iff_iff, decide_eq_true_iff]
    exact numLt_widen_iff hf hx hy
  simp only [nextAfter, hx, hy, hequal, hless, ← ordinal_eq_zero_iff, Bool.or_false,
    Bool.false_eq_true, if_false, decide_eq_true_eq]
  by_cases heq : x.ordinal = y.ordinal
  · rw [if_pos heq, if_pos heq]
  rw [if_neg heq, if_neg heq]
  by_cases hzero : x.ordinal = 0
  · -- from zero, the direction is the sign of the target
    have hsign : (!decide (x.ordinal < y.ordinal)) = decide (y.ordinal < 0) := by
      rw [← decide_not, decide_eq_decide]
      omega
    rw [if_pos hzero, if_pos hzero, hsign]
  · rw [if_neg hzero, if_neg hzero]

/-- Off zero, the magnitude grows if the direction is away from zero and shrinks otherwise. Either
way the ordinal moves by one in that direction. -/
theorem ordinal_neighbour (x : Scalar f) (rising : Bool) (hne : x.ordinal ≠ 0)
    (hmag : x.magnitude ≤ f.infinity)
    (hroom : rising ≠ x.isNegative → x.magnitude < f.infinity) :
    let next := ofParts f x.isNegative
      (if rising != x.isNegative then x.magnitude + 1 else x.magnitude - 1)
    next.isNaN = false ∧ next.ordinal = if rising then x.ordinal + 1 else x.ordinal - 1 := by
  intro next
  -- there is a magnitude to shrink, and the grown one is not beyond infinity
  have hpos : 0 < x.magnitude := by
    have hnatAbs := x.natAbs_ordinal
    omega
  have hle : (if rising != x.isNegative then x.magnitude + 1 else x.magnitude - 1) ≤
      f.infinity := by
    split
    case isTrue haway => exact hroom (bne_iff_ne.1 haway)
    case isFalse => exact (Nat.sub_le _ _).trans hmag
  obtain ⟨hnan, hord⟩ := ordinal_ofParts x.isNegative hle
  refine ⟨hnan, hord.trans ?_⟩
  unfold ordinal
  cases rising with
  | true =>
    cases x.isNegative with
    | true =>
      simp only [bne_self_eq_false, Bool.false_eq_true, if_true, if_false]
      omega
    | false =>
      simp only [Bool.true_bne, Bool.not_false, Bool.false_eq_true, if_true, if_false]
      omega
  | false =>
    cases x.isNegative with
    | true =>
      simp only [Bool.false_bne, Bool.false_eq_true, if_true, if_false]
      omega
    | false =>
      simp only [bne_self_eq_false, Bool.false_eq_true, if_false]
      omega

/-- One step from a number toward another gives a number, and moves the ordinal by one toward that
of the target unless it is there already. -/
theorem ordinal_nextAfter (hf : f.IsNarrow) {x y : Scalar f} (hx : x.isNaN = false)
    (hy : y.isNaN = false) :
    (x.nextAfter y).isNaN = false ∧
      (x.nextAfter y).ordinal = x.ordinal + (y.ordinal - x.ordinal).sign := by
  rw [nextAfter_eq hf hx hy, sign_sub_eq]
  by_cases heq : x.ordinal = y.ordinal
  · -- the target is reached
    rw [if_pos heq, if_neg heq.not_lt, if_pos heq]
    exact ⟨hy, by omega⟩
  rw [if_neg heq, if_neg heq]
  by_cases hzero : x.ordinal = 0
  · -- off zero, to the least denormal
    obtain ⟨hnan, hord⟩ := ordinal_ofParts (f := f) (decide (y.ordinal < 0)) hf.infinity_pos
    rw [if_pos hzero]
    refine ⟨hnan, hord.trans ?_⟩
    rcases lt_or_gt_of_ne heq with hlt | hgt
    · have hpos : ¬ y.ordinal < 0 := by omega
      rw [decide_eq_false hpos, if_pos hlt, hzero]
      rfl
    · have hneg : y.ordinal < 0 := by omega
      rw [decide_eq_true hneg, if_neg hgt.not_gt, hzero]
      rfl
  · -- away from zero there is room, because the target lies further out
    have hroom : decide (x.ordinal < y.ordinal) ≠ x.isNegative → x.magnitude < f.infinity := by
      intro haway
      obtain ⟨hylow, hyhigh⟩ := ordinal_mem hy
      have hxord : x.ordinal = if x.isNegative then -(x.magnitude : ℤ) else x.magnitude := rfl
      cases hneg : x.isNegative with
      | false =>
        rw [hneg] at haway hxord
        have hlt : x.ordinal < y.ordinal := by simpa using haway
        simp only [Bool.false_eq_true, if_false] at hxord
        omega
      | true =>
        rw [hneg] at haway hxord
        have hle : y.ordinal ≤ x.ordinal := by simpa using haway
        simp only [if_true] at hxord
        omega
    obtain ⟨hnan, hord⟩ := x.ordinal_neighbour (decide (x.ordinal < y.ordinal)) hzero
      ((not_isNaN_iff x).1 hx) hroom
    rw [if_neg hzero]
    refine ⟨hnan, hord.trans ?_⟩
    rcases lt_or_gt_of_ne heq with hlt | hgt
    · rw [decide_eq_true hlt, if_pos hlt, if_pos rfl]
    · rw [decide_eq_false hgt.not_gt, if_neg hgt.not_gt, if_neg (by simp), Int.sub_eq_add_neg]

end Scalar

/-! ## Walks -/

namespace Narrow

variable {f : Format}

/-- The number reached by taking `n` steps from one number toward another. -/
def walk (x toward : Scalar f) (n : ℕ) : Scalar f := (fun z => z.nextAfter toward)^[n] x

theorem walk_succ (x y : Scalar f) (n : ℕ) : walk x y (n + 1) = (walk x y n).nextAfter y := by
  rw [walk, walk, Function.iterate_succ_apply']

theorem isNaN_walk (hf : f.IsNarrow) {x y : Scalar f} (hx : x.isNaN = false)
    (hy : y.isNaN = false) (n : ℕ) : (walk x y n).isNaN = false := by
  induction n with
  | zero => exact hx
  | succ n ih =>
    rw [walk_succ]
    exact (Scalar.ordinal_nextAfter hf ih hy).1

/-- A walk moves straight to its target, one ordinal a step, and stays there. -/
theorem ordinal_walk (hf : f.IsNarrow) {x y : Scalar f} (hx : x.isNaN = false)
    (hy : y.isNaN = false) (n : ℕ) :
    (walk x y n).ordinal =
      x.ordinal + (y.ordinal - x.ordinal).sign * (min n (x.distance y) : ℕ) := by
  induction n with
  | zero => simp [walk]
  | succ n ih =>
    have hstep := (Scalar.ordinal_nextAfter hf (isNaN_walk hf hx hy n) hy).2
    rw [walk_succ, hstep, ih, Scalar.sign_sub_eq, Scalar.sign_sub_eq, Scalar.distance]
    rcases lt_trichotomy x.ordinal y.ordinal with hlt | heq | hgt
    · -- rising: one up until the distance is used up
      simp only [hlt, if_true, one_mul]
      split_ifs <;> omega
    · simp [heq]
    · -- falling: one down until the distance is used up
      simp only [hgt.not_gt, hgt.ne', if_false]
      split_ifs <;> omega

/-- A walk is at its target exactly from the step on that its distance counts. -/
theorem numEq_walk_iff (hf : f.IsNarrow) {x y : Scalar f} (hx : x.isNaN = false)
    (hy : y.isNaN = false) (n : ℕ) : numEq (walk x y n) y = true ↔ x.distance y ≤ n := by
  have hequal : numEq (walk x y n) y = true ↔ (walk x y n).ordinal = y.ordinal :=
    Form.plain.numEq_iff_ordinal hf (isNaN_walk hf hx hy n) hy
  rw [hequal, ordinal_walk hf hx hy, Scalar.sign_sub_eq, Scalar.distance]
  -- rising, at rest or falling, the step number and the distance decide
  split_ifs <;> omega

/-- A walk stays between its ends. -/
theorem ordinal_walk_mem (hf : f.IsNarrow) {x y : Scalar f} (hx : x.isNaN = false)
    (hy : y.isNaN = false) (n : ℕ) : (walk x y n).ordinal ∈ Set.uIcc x.ordinal y.ordinal := by
  rw [Set.mem_uIcc, ordinal_walk hf hx hy, Scalar.sign_sub_eq, Scalar.distance]
  split_ifs <;> omega

/-- Before it is at its target, a walk moves by one ordinal a step and comes nearer by it. -/
theorem distance_walk_succ (hf : f.IsNarrow) {x y : Scalar f} (hx : x.isNaN = false)
    (hy : y.isNaN = false) {n : ℕ} (hn : n < x.distance y) :
    (walk x y (n + 1)).distance (walk x y n) = 1 ∧
      (walk x y (n + 1)).distance y + 1 = (walk x y n).distance y := by
  simp only [Scalar.distance, ordinal_walk hf hx hy, Scalar.sign_sub_eq] at hn ⊢
  split_ifs <;> omega

end Narrow

/-! ## Distance -/

theorem Precision.width_le (p : Precision) : p.format.width ≤ 64 := by
  cases p <;> decide

/-- In every working precision, the distance of two numbers is the number of values of the format
between them, one end included, and neither an ordinal nor a distance leaves its word. In the narrow
formats it is also the number of steps from one to the other: a walk reaches its target after that
many steps and no fewer, stays between its ends on the way, and each of the steps moves by one ordinal
and comes nearer by it. -/
theorem distance_counts_steps :
    (∀ (p : Precision) (x y : p.Value),
      x.ordinal.natAbs < 2 ^ 63 ∧ y.ordinal.natAbs < 2 ^ 63 ∧ x.distance y < 2 ^ 64 ∧
      (x.isNaN = false → y.isNaN = false → ∃ v w, x.value? = some v ∧ y.value? = some w ∧
        { u ∈ p.format.values | min v w < u ∧ u ≤ max v w }.encard = x.distance y)) ∧
    ∀ f : Format, f.IsNarrow → ∀ x y : Scalar f, x.isNaN = false → y.isNaN = false → ∀ n : ℕ,
      (Narrow.walk x y n).isNaN = false ∧
      (Narrow.numEq (Narrow.walk x y n) y = true ↔ x.distance y ≤ n) ∧
      (∃ u v w, (Narrow.walk x y n).value? = some u ∧ x.value? = some v ∧ y.value? = some w ∧
        u ∈ Set.uIcc v w) ∧
      (n < x.distance y →
        (Narrow.walk x y (n + 1)).distance (Narrow.walk x y n) = 1 ∧
          (Narrow.walk x y (n + 1)).distance y + 1 = (Narrow.walk x y n).distance y) := by
  constructor
  · intro p x y
    refine ⟨Scalar.natAbs_ordinal_lt p.width_le x, Scalar.natAbs_ordinal_lt p.width_le y,
      Scalar.distance_lt p.width_le x y, fun hx hy => ⟨_, _,
        Scalar.value?_of_not_isNaN p.isBinary_format hx,
        Scalar.value?_of_not_isNaN p.isBinary_format hy, ?_⟩⟩
    exact Format.encard_values_between p.isBinary_format (Scalar.ordinal_mem hx)
      (Scalar.ordinal_mem hy)
  · intro f hf x y hx hy n
    have hnan := Narrow.isNaN_walk hf hx hy n
    refine ⟨hnan, Narrow.numEq_walk_iff hf hx hy n, ⟨_, _, _,
      Scalar.value?_of_not_isNaN hf.toIsBinary hnan, Scalar.value?_of_not_isNaN hf.toIsBinary hx,
      Scalar.value?_of_not_isNaN hf.toIsBinary hy, ?_⟩, Narrow.distance_walk_succ hf hx hy⟩
    exact Format.valueAt_between hf.toIsBinary (Scalar.ordinal_mem hx) (Scalar.ordinal_mem hy)
      (Narrow.ordinal_walk_mem hf hx hy n)

/-- From one infinity to the other in the padded format, and across zero in half precision. -/
theorem distance_counts_steps_across_zero :
    (∃ v w, (Scalar.ofNat .tfloat 0xff800000).value? = some v ∧
      (Scalar.ofNat .tfloat 0x7f801fff).value? = some w ∧
      { u ∈ Format.tfloat.values | min v w < u ∧ u ≤ max v w }.encard = (522240 : ℕ)) ∧
    Narrow.numEq (Narrow.walk (Scalar.ofNat .half 0x8001) (Scalar.ofNat .half 2) 3)
      (Scalar.ofNat .half 2) = true := by
  constructor
  · exact (distance_counts_steps.1 .tfloat (Scalar.ofNat .tfloat 0xff800000)
      (Scalar.ofNat .tfloat 0x7f801fff)).2.2.2 (by decide) (by decide)
  · exact (distance_counts_steps.2 .half Format.half_isNarrow _ _ (by decide) (by decide) 3).2.1.2
      (by decide)

end PrecisionAudit
