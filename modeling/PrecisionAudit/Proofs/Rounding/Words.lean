import PrecisionAudit.Proofs.Rounding.Integral
import PrecisionAudit.Rounding.Word

/-!
# Rounding in machine words is exact

A 32-bit significand that is divided by a power of two ends on the integer that the mode stands for, whatever the shift.
A shift by nothing and a shift by more places than the significand has are decided by short cuts, and these give what
the division gives.

## Main definitions

- `RoundingMode.RoundsMagnitude`: the integer that a mode makes of a magnitude, for either sign.
- `RoundingMode.integerRule`: the way to make an integer of a signed number that a mode follows.

## Main results

- `RoundingMode.roundsMagnitude_iff`: rounding a quotient of numbers gives that integer, and no other one.
- `RoundingMode.roundWord_roundsExactly`: so does rounding in words, without overflow.
-/

namespace PrecisionAudit

namespace RoundingMode

variable {mode : RoundingMode} {negative : Bool} {q : ℚ} {num den m n : ℕ}

/-- The mode takes the magnitude `q` of a number, which is negative or not, to the magnitude `n`. The modes that round
toward one end of the line raise the magnitudes on one side of zero. -/
def RoundsMagnitude (mode : RoundingMode) (negative : Bool) (q : ℚ) (n : ℕ) : Prop :=
  match mode with
  | nearestEven => |q - n| ≤ 1 / 2 ∧ (|q - n| = 1 / 2 → Even n)
  | towardZero => n = ⌊q⌋₊
  | upward => n = if negative then ⌊q⌋₊ else ⌈q⌉₊
  | downward => n = if negative then ⌈q⌉₊ else ⌊q⌋₊

/-- The way to make an integer of a signed number that the mode follows. -/
def integerRule : RoundingMode → IntegerRule
  | nearestEven => .nearbyint
  | towardZero => .trunc
  | upward => .ceil
  | downward => .floor

/-- Between two integers that are equally close, only one is even. -/
theorem RoundsMagnitude.unique (hm : mode.RoundsMagnitude negative q m) (hn : mode.RoundsMagnitude negative q n) :
    m = n := by
  cases mode with
  | nearestEven =>
    obtain ⟨hm, hmeven⟩ := hm
    obtain ⟨hn, hneven⟩ := hn
    wlog hle : m ≤ n generalizing m n
    · exact (this hn hneven hm hmeven (le_of_not_ge hle)).symm
    rw [abs_le] at hm hn
    rcases hle.eq_or_lt with heq | hlt
    · exact heq
    -- two integers that close are neighbours, and the number is half-way between them
    have hcast : (m : ℚ) + 1 ≤ n := by exact_mod_cast hlt
    have hmeven' := Nat.even_iff.1 (hmeven (by rw [abs_of_nonneg] <;> linarith))
    have hneven' := Nat.even_iff.1 (hneven (by rw [abs_of_nonpos] <;> linarith))
    have hnext : n = m + 1 := by
      have : (n : ℚ) = (m + 1 : ℕ) := by push_cast; linarith
      exact_mod_cast this
    omega
  | towardZero | upward | downward => exact Eq.trans hm (Eq.symm hn)

theorem roundQuotient_eq_ceil (hmode : mode.directedUp negative = true) (hden : 0 < den) :
    mode.roundQuotient negative num den = ⌈(num : ℚ) / den⌉₊ := by
  have hnonneg : (0 : ℚ) ≤ (num : ℚ) / den := by positivity
  have hint : (mode.roundQuotient negative num den : ℤ) = ⌈(num : ℚ) / den⌉ :=
    natCast_roundQuotient_of_directedUp hmode hden
  rw [← Int.natCast_ceil_eq_ceil hnonneg] at hint
  exact_mod_cast hint

theorem roundQuotient_eq_floor (hne : mode ≠ .nearestEven) (hmode : mode.directedUp negative = false) (hden : 0 < den) :
    mode.roundQuotient negative num den = ⌊(num : ℚ) / den⌋₊ := by
  have hnonneg : (0 : ℚ) ≤ (num : ℚ) / den := by positivity
  have hint : (mode.roundQuotient negative num den : ℤ) = ⌊(num : ℚ) / den⌋ :=
    natCast_roundQuotient_of_not_directedUp hne hmode hden
  rw [← Int.natCast_floor_eq_floor hnonneg] at hint
  exact_mod_cast hint

theorem roundsMagnitude_roundQuotient (mode : RoundingMode) (negative : Bool) (num : ℕ) (hden : 0 < den) :
    mode.RoundsMagnitude negative (num / den) (mode.roundQuotient negative num den) := by
  cases mode with
  | nearestEven =>
    obtain ⟨hclose, heven⟩ := abs_sub_roundQuotient_le negative num hden
    exact ⟨hclose, fun htie => Nat.even_iff.2 (heven htie)⟩
  | towardZero => exact roundQuotient_eq_floor (by decide) rfl hden
  | upward =>
    cases negative with
    | false => exact roundQuotient_eq_ceil rfl hden
    | true => exact roundQuotient_eq_floor (by decide) rfl hden
  | downward =>
    cases negative with
    | false => exact roundQuotient_eq_floor (by decide) rfl hden
    | true => exact roundQuotient_eq_ceil rfl hden

/-- Rounding a quotient gives the integer that the mode stands for, and no other one. -/
theorem roundsMagnitude_iff (mode : RoundingMode) (negative : Bool) (num : ℕ) (hden : 0 < den) :
    mode.RoundsMagnitude negative (num / den) n ↔ n = mode.roundQuotient negative num den := by
  have hrounds := mode.roundsMagnitude_roundQuotient negative num hden
  exact ⟨fun h => h.unique hrounds, fun h => h ▸ hrounds⟩

/-- With its sign, the result is that of the rule that the mode follows. -/
theorem integerRule_rounds_roundQuotient (mode : RoundingMode) (negative : Bool) (num : ℕ) (hden : 0 < den) :
    mode.integerRule.Rounds ((if negative then -1 else 1) * (num / den))
      ((if negative then -1 else 1) * mode.roundQuotient negative num den) := by
  have hrounds := mode.integerRule.rounds_magnitude negative num hden
  cases mode <;> exact hrounds

/-- Every significand, shift, sign and mode has a rounded word, which no operation overflows on the way. It is the
integer that the mode makes of the magnitude, the one that it makes of the signed number, and also at the shifts that
take a short cut what the quotient and the remainder of the division decide. -/
theorem roundWord_roundsExactly (mode : RoundingMode) (negative : Bool) (significand : BitVec 32) (shift : ℕ) :
    mode.roundWord? negative significand shift = some (mode.roundWord negative significand shift) ∧
      (∀ n : ℕ, mode.RoundsMagnitude negative (significand.toNat / 2 ^ shift) n ↔
        n = (mode.roundWord negative significand shift).toNat) ∧
      mode.integerRule.Rounds ((if negative then -1 else 1) * (significand.toNat / 2 ^ shift))
        ((if negative then -1 else 1) * (mode.roundWord negative significand shift).toNat) ∧
      (mode.roundWord negative significand shift).toNat =
        mode.roundQuotient negative significand.toNat (2 ^ shift) := by
  have hpos : 0 < 2 ^ shift := Nat.two_pow_pos shift
  have hcast : ((2 ^ shift : ℕ) : ℚ) = 2 ^ shift := by push_cast; rfl
  refine ⟨mode.roundWord?_eq negative significand shift, fun n => ?_, ?_, mode.toNat_roundWord ..⟩
  · rw [toNat_roundWord, ← mode.roundsMagnitude_iff negative significand.toNat hpos, hcast]
  · rw [toNat_roundWord, ← hcast]
    exact mode.integerRule_rounds_roundQuotient negative significand.toNat hpos

/-- A half-way case goes to the even neighbour. -/
example : nearestEven.roundWord false 0b1011 1 = 0b110 := by decide

end RoundingMode

end PrecisionAudit
