import Mathlib
import PrecisionAudit.Rounding

/-!
# Selection of a neighbour on a grid

A rounding mode chooses between two neighbours of a grid of numbers. `RoundingMode.Selects` is
that choice on any increasing grid `g : ℕ → ℚ`: the number lies between `g k` and `g (k + 1)`, and
the mode says which of the two places stands for it. The integers are one such grid, the
magnitudes of a format another, and a choice on the first carries over to the second.

## Main results

- `roundQuotient_selects`: integer rounding selects on the grid of the integers.
- `Selects.transfer`: from the integers to a grid that is evenly spaced around the number.
- `Selects.le_of_le`, `Selects.ge_of_ge`: rounding never passes a place of the grid.
- `Selects.nearest`, `Selects.tie_even`: no place is closer, and ties end on an even place.
- `Selects.lt_iff`: the nearest place is found by comparing the number with midpoints.
-/

namespace PrecisionAudit

namespace RoundingMode

/-! ## The choice between two neighbours -/

/-- Whether a mode takes a number from its lower to its upper neighbour; `odd` says that the lower
place is odd. -/
def Raises (mode : RoundingMode) (negative : Bool) (lower upper v : ℚ) (odd : Prop) : Prop :=
  match mode with
  | nearestEven => upper - v < v - lower ∨ (upper - v = v - lower ∧ odd)
  | towardZero => False
  | upward | downward => mode.directedUp negative = true ∧ lower < v

/-- The place `m` of the grid `g` stands for the number `v` in a rounding mode. -/
def Selects (mode : RoundingMode) (negative : Bool) (g : ℕ → ℚ) (v : ℚ) (m : ℕ) : Prop :=
  ∃ k, g k ≤ v ∧ v < g (k + 1) ∧
    ((m = k + 1 ∧ mode.Raises negative (g k) (g (k + 1)) v (k % 2 = 1)) ∨
      (m = k ∧ ¬ mode.Raises negative (g k) (g (k + 1)) v (k % 2 = 1)))

/-- The increment of integer rounding is the choice between the integers around the quotient. -/
theorem incrementsAt_iff_raises (mode : RoundingMode) (negative : Bool) (num : ℕ) {den : ℕ}
    (hden : 0 < den) :
    mode.incrementsAt negative (num / den) (num % den) den = true ↔
      mode.Raises negative (num / den : ℕ) ((num / den : ℕ) + 1) ((num : ℚ) / den)
        (num / den % 2 = 1) := by
  have hden' : (0 : ℚ) < den := Nat.cast_pos.2 hden
  have hrest : (num : ℚ) / den - (num / den : ℕ) = (num % den : ℕ) / den := by
    have h : (num : ℚ) = den * (num / den : ℕ) + (num % den : ℕ) := by
      exact_mod_cast (Nat.div_add_mod num den).symm
    rw [sub_eq_iff_eq_add, div_eq_iff hden'.ne', add_mul, div_mul_cancel₀ _ hden'.ne']
    linarith
  -- from here on only the quotient and the remainder matter
  generalize num / den = k at *
  generalize num % den = r at *
  have hupper : (k : ℚ) + 1 - num / den = 1 - r / den := by linarith
  cases mode with
  | nearestEven =>
    have hlt : (1 : ℚ) - r / den < r / den ↔ den < 2 * r := by
      rw [sub_lt_iff_lt_add, ← add_div, lt_div_iff₀ hden', ← two_mul]
      exact_mod_cast by rw [Nat.one_mul]
    have heq : (1 : ℚ) - r / den = r / den ↔ 2 * r = den := by
      rw [sub_eq_iff_eq_add, ← add_div, eq_div_iff hden'.ne', ← two_mul, eq_comm]
      exact_mod_cast by rw [Nat.one_mul]
    simp [incrementsAt, Raises, hrest, hupper, hlt, heq]
  | towardZero => simp [incrementsAt, Raises]
  | upward | downward =>
    have hlt : (k : ℚ) < num / den ↔ r ≠ 0 := by
      rw [← sub_pos, hrest, div_pos_iff_of_pos_right hden', Nat.cast_pos, Nat.pos_iff_ne_zero]
    simp [incrementsAt, Raises, hlt]

/-- Integer rounding selects on the grid of the integers. -/
theorem roundQuotient_selects (mode : RoundingMode) (negative : Bool) (num : ℕ) {den : ℕ}
    (hden : 0 < den) :
    mode.Selects negative Nat.cast ((num : ℚ) / den) (mode.roundQuotient negative num den) := by
  have hden' : (0 : ℚ) < den := Nat.cast_pos.2 hden
  have hinc := mode.incrementsAt_iff_raises negative num hden
  refine ⟨num / den, Nat.cast_div_le, ?_, ?_⟩
  · rw [div_lt_iff₀ hden']
    exact_mod_cast Nat.mul_comm den _ ▸ Nat.lt_mul_div_succ num hden
  · rw [Nat.cast_add, Nat.cast_one, ← hinc]
    dsimp only [roundQuotient]
    split
    case isTrue h => exact .inl ⟨rfl, h⟩
    case isFalse h => exact .inr ⟨rfl, h⟩

namespace Selects

variable {mode : RoundingMode} {negative : Bool} {g : ℕ → ℚ} {v : ℚ} {m : ℕ}

/-- A choice between integers is the choice between the places of a grid that is evenly spaced
around the number, if the first of these places is even. -/
theorem transfer {q u : ℚ} {n base : ℕ} (hsel : mode.Selects negative Nat.cast q n) (hu : 0 < u)
    (hbase : base % 2 = 0)
    (hg : ∀ j : ℕ, (j : ℚ) ≤ q + 1 → q < j + 1 → g (base + j) = j * u) :
    mode.Selects negative g (q * u) (base + n) := by
  obtain ⟨k, hlow, hhigh, hchoice⟩ := hsel
  rw [Nat.cast_add, Nat.cast_one] at hhigh hchoice
  -- both neighbours of the integer lie on the evenly spaced part of the grid
  have hk : g (base + k) = k * u := hg k (by linarith) (by linarith)
  have hk' : g (base + k + 1) = (k + 1) * u := by
    have h := hg (k + 1) (by push_cast; linarith) (by push_cast; linarith)
    push_cast at h
    exact h
  have hodd : (base + k) % 2 = 1 ↔ k % 2 = 1 := by omega
  have hraise : mode.Raises negative (k * u) ((k + 1) * u) (q * u) ((base + k) % 2 = 1) ↔
      mode.Raises negative k (k + 1) q (k % 2 = 1) := by
    cases mode <;>
      simp only [Raises, hodd, ← sub_mul, mul_lt_mul_iff_of_pos_right hu, mul_left_inj' hu.ne']
  refine ⟨base + k, ?_, ?_, ?_⟩
  · rw [hk]
    exact mul_le_mul_of_nonneg_right hlow hu.le
  · rw [hk']
    exact mul_lt_mul_of_pos_right hhigh hu
  · rw [hk, hk', hraise]
    exact hchoice.imp (fun h => ⟨by omega, h.2⟩) (fun h => ⟨by omega, h.2⟩)

/-! ## Consequences of a choice -/

/-- Rounding does not pass a place above the number. -/
theorem le_of_le (hg : StrictMono g) (hsel : mode.Selects negative g v m) {j : ℕ}
    (hv : v ≤ g j) : m ≤ j := by
  obtain ⟨k, hlow, hhigh, ⟨rfl, hraise⟩ | ⟨rfl, -⟩⟩ := hsel
  · -- the upper neighbour is taken, so the number is not the lower one
    by_contra hj
    have hjk : j = k := by
      have := hg.le_iff_le.1 (hlow.trans hv)
      omega
    have hvk : v = g k := le_antisymm (hjk ▸ hv) hlow
    cases mode <;> simp only [Raises, hvk] at hraise <;> grind
  · exact hg.le_iff_le.1 (hlow.trans hv)

/-- Rounding does not pass a place below the number. -/
theorem ge_of_ge (hg : StrictMono g) (hsel : mode.Selects negative g v m) {j : ℕ}
    (hv : g j ≤ v) : j ≤ m := by
  obtain ⟨k, hlow, hhigh, hchoice⟩ := hsel
  have hjk : j < k + 1 := hg.lt_iff_lt.1 (hv.trans_lt hhigh)
  omega

/-- A number on the grid stands for itself. -/
theorem eq_of_eq (hg : StrictMono g) (hsel : mode.Selects negative g v m) {j : ℕ}
    (hv : v = g j) : m = j :=
  le_antisymm (hsel.le_of_le hg hv.le) (hsel.ge_of_ge hg hv.ge)

/-- A directed mode that raises ends at or above the number. -/
theorem le_of_directedUp (hsel : mode.Selects negative g v m)
    (hmode : mode.directedUp negative = true) : v ≤ g m := by
  obtain ⟨k, hlow, hhigh, ⟨rfl, -⟩ | ⟨rfl, hraise⟩⟩ := hsel
  · exact hhigh.le
  · cases mode <;> simp_all [Raises, directedUp]

/-- A mode other than to nearest that does not raise ends at or below the number. -/
theorem le_of_not_directedUp (hsel : mode.Selects negative g v m) (hne : mode ≠ .nearestEven)
    (hmode : mode.directedUp negative = false) : g m ≤ v := by
  obtain ⟨k, hlow, hhigh, ⟨rfl, hraise⟩ | ⟨rfl, -⟩⟩ := hsel
  · cases mode <;> simp_all [Raises, directedUp]
  · exact hlow

/-- Rounding to nearest leaves no place closer to the number. -/
theorem nearest (hg : StrictMono g) (hsel : nearestEven.Selects negative g v m) (j : ℕ) :
    |v - g m| ≤ |v - g j| := by
  obtain ⟨k, hlow, hhigh, hchoice⟩ := hsel
  -- every place lies outside the gap that the number falls into
  have hside : g j ≤ g k ∨ g (k + 1) ≤ g j := by
    rcases Nat.lt_or_ge k j with h | h
    · exact .inr (hg.monotone h)
    · exact .inl (hg.monotone h)
  rcases hchoice with ⟨rfl, hraise⟩ | ⟨rfl, hraise⟩ <;> simp only [Raises] at hraise <;> grind

/-- If another place is as close as the nearest one, the selected place is even. -/
theorem tie_even (hg : StrictMono g) (hsel : nearestEven.Selects negative g v m) {j : ℕ}
    (htie : |v - g j| = |v - g m|) (hne : j ≠ m) : m % 2 = 0 := by
  obtain ⟨k, hlow, hhigh, hchoice⟩ := hsel
  have hside : j = k ∨ j = k + 1 ∨ g j < g k ∨ g (k + 1) < g j := by
    rcases Nat.lt_trichotomy j k with h | h | h
    · exact .inr (.inr (.inl (hg h)))
    · exact .inl h
    · rcases Nat.lt_or_ge (k + 1) j with h' | h'
      · exact .inr (.inr (.inr (hg h')))
      · exact .inr (.inl (by omega))
  rcases hchoice with ⟨rfl, hraise⟩ | ⟨rfl, hraise⟩ <;> simp only [Raises] at hraise <;> grind

/-- The midpoint of two neighbours decides on which side of it the nearest place is. A number on the
midpoint goes up if the lower neighbour is odd. -/
theorem lt_iff (hg : StrictMono g) (hsel : nearestEven.Selects negative g v m) (j : ℕ) :
    j < m ↔ (g j + g (j + 1)) / 2 < v ∨ ((g j + g (j + 1)) / 2 = v ∧ j % 2 = 1) := by
  obtain ⟨k, hlow, hhigh, hchoice⟩ := hsel
  have hgap : g j < g (j + 1) := hg (Nat.lt_succ_self j)
  rcases Nat.lt_trichotomy j k with hjk | rfl | hkj
  · -- both neighbours are at most the number
    have hv := (hg.monotone hjk).trans hlow
    exact iff_of_true (by omega) (.inl (by linarith))
  · rcases hchoice with ⟨rfl, hraise⟩ | ⟨rfl, hraise⟩ <;> simp only [Raises] at hraise <;> grind
  · -- both neighbours are above the number
    have hv := hhigh.trans_le (hg.monotone hkj)
    refine iff_of_false (by omega) ?_
    rintro (h | ⟨h, -⟩) <;> linarith

/-- Between an odd place and the next one, the midpoint decides. -/
theorem le_iff_midpoint_le (hg : StrictMono g) (hsel : nearestEven.Selects negative g v m)
    {j : ℕ} (hodd : j % 2 = 1) : j + 1 ≤ m ↔ (g j + g (j + 1)) / 2 ≤ v := by
  rw [Nat.succ_le_iff, hsel.lt_iff hg, le_iff_lt_or_eq]
  simp [hodd]

end Selects

end RoundingMode

end PrecisionAudit
