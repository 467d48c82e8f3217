import PrecisionAudit.Rounding
import PrecisionAudit.Word

/-!
# Rounding in machine words

A significand of 32 bits is divided by a power of two and rounded to an integer in words of 64 bits.

* `RoundingMode.roundWord?`: the rounding, which has no result if an operation overflows its word.
* `RoundingMode.exists_roundWord?_eq`: none does, and the result is that of the division.
* `RoundingMode.roundWord`: the result.
-/

namespace PrecisionAudit

-- a power is that of the core library, whatever other instances are in scope
attribute [local instance (2000)] instPowNat

namespace RoundingMode

/-- Whether the kept word is incremented: `rest` is what was discarded and `half` half of the size of one unit. -/
def incrementsWord (mode : RoundingMode) (negative : Bool) (kept : BitVec 32) (rest half : BitVec 64) : Bool :=
  match mode with
  | nearestEven => half < rest || (rest == half && kept &&& 1 == 1)
  | towardZero => false
  | upward | downward => mode.directedUp negative && rest != 0

/-- Rounds the magnitude `significand / 2 ^ shift` to an integer. A shift by more places than the significand has
leaves less than half a unit. -/
def roundWord? (mode : RoundingMode) (negative : Bool) (significand : BitVec 32) (shift : Nat) : Option (BitVec 32) :=
  let wide := significand.setWidth 64
  if shift = 0 then
    some significand
  else if 32 < shift then
    some (if mode.directedUp negative && wide != 0 then 1 else 0)
  else do
    let kept ← Word.resize? 32 (← Word.shiftRight? wide shift)
    let half ← Word.shiftLeft? 1 (shift - 1)
    let unit ← Word.shiftLeft? 1 shift
    let rest := wide &&& (← Word.sub? unit 1)
    Word.add? kept (if mode.incrementsWord negative kept rest half then 1 else 0)

variable (mode : RoundingMode) (negative : Bool)

theorem bne_zero_eq {width : Nat} (w : BitVec width) : (w != 0) = (w.toNat != 0) := by
  rw [Bool.eq_iff_iff, bne_iff_ne, bne_iff_ne, ne_eq, ne_eq, ← BitVec.toNat_inj]
  exact Iff.rfl

/-- Comparing words is comparing the numbers that they hold. -/
theorem incrementsWord_eq (kept : BitVec 32) (rest half : BitVec 64) :
    mode.incrementsWord negative kept rest half =
      mode.incrementsAt negative kept.toNat rest.toNat (2 * half.toNat) := by
  have hlt : (half < rest) = (2 * half.toNat < 2 * rest.toNat) := by
    rw [BitVec.lt_def, Nat.mul_lt_mul_left Nat.two_pos]
  have htie : (rest == half) = (2 * rest.toNat == 2 * half.toNat) := by
    rw [Bool.eq_iff_iff, beq_iff_eq, beq_iff_eq, ← BitVec.toNat_inj]
    omega
  have hodd : (kept &&& 1 == 1) = (kept.toNat % 2 == 1) := by
    rw [Bool.eq_iff_iff, beq_iff_eq, beq_iff_eq, ← BitVec.toNat_inj, BitVec.toNat_and]
    exact Nat.and_one_is_mod kept.toNat ▸ Iff.rfl
  cases mode with
  | nearestEven => simp only [incrementsWord, incrementsAt, hlt, htie, hodd]
  | towardZero => rfl
  | upward | downward => simp only [incrementsWord, incrementsAt, bne_zero_eq]

/-- Masking the places below one unit leaves the remainder. -/
theorem exists_mask_eq (wide : BitVec 64) {shift : Nat} (h : shift ≤ 32) :
    ∃ unit mask, Word.shiftLeft? (1 : BitVec 64) shift = some unit ∧ Word.sub? unit 1 = some mask ∧
      (wide &&& mask).toNat = wide.toNat % 2 ^ shift := by
  obtain ⟨unit, hunit, heq⟩ := Word.exists_shiftLeft?_one_eq (show shift < 64 by omega)
  have hle : (1 : BitVec 64).toNat ≤ unit.toNat := heq ▸ Nat.two_pow_pos shift
  obtain ⟨mask, hmask, hmask'⟩ := Word.exists_sub?_eq hle
  refine ⟨unit, mask, hunit, hmask, ?_⟩
  have hone : (1 : BitVec 64).toNat = 1 := rfl
  rw [BitVec.toNat_and, hmask', heq, hone, Nat.and_two_pow_sub_one_eq_mod]

/-- No operation overflows its word, and the result is that of the division. -/
theorem exists_roundWord?_eq (significand : BitVec 32) (shift : Nat) :
    ∃ r, mode.roundWord? negative significand shift = some r ∧
      r.toNat = mode.roundQuotient negative significand.toNat (2 ^ shift) := by
  have hlt := significand.isLt
  have hwide : (significand.setWidth 64).toNat = significand.toNat :=
    BitVec.toNat_setWidth_of_le (by decide)
  unfold roundWord?
  generalize significand.setWidth 64 = wide at *
  dsimp only
  split
  case isTrue h0 =>
    subst h0
    exact ⟨significand, rfl, (mode.roundQuotient_one negative _).symm⟩
  case isFalse h0 =>
    split
    case isTrue hfar =>
      have htiny : 2 * significand.toNat < 2 ^ shift := by
        have hpow : 2 ^ (33 : Nat) ≤ 2 ^ shift := Nat.pow_le_pow_right Nat.two_pos hfar
        omega
      refine ⟨_, rfl, ?_⟩
      rw [mode.roundQuotient_of_two_mul_lt negative htiny, bne_zero_eq, hwide]
      split <;> rfl
    case isFalse hnear =>
      -- at least one place is dropped, so that an increment still fits
      have hdrop : significand.toNat / 2 ^ shift ≤ significand.toNat / 2 :=
        Nat.div_le_div_left (Nat.le_self_pow h0 2) Nat.two_pos
      obtain ⟨shifted, hshifted, hquotient⟩ := Word.exists_shiftRight?_eq wide (show shift < 64 by omega)
      rw [hwide] at hquotient
      obtain ⟨kept, hkept, heq⟩ := Word.exists_resize?_eq (show shifted.toNat < 2 ^ (32 : Nat) by omega)
      obtain ⟨half, hhalf, hhalf'⟩ := Word.exists_shiftLeft?_one_eq (show shift - 1 < 64 by omega)
      obtain ⟨unit, mask, hunit, hmask, hrest⟩ := exists_mask_eq wide (Nat.not_lt.1 hnear)
      rw [hwide] at hrest
      have hdouble : 2 * half.toNat = 2 ^ shift := by
        rw [hhalf', ← Nat.pow_succ', Nat.succ_eq_add_one, Nat.sub_add_cancel (Nat.pos_of_ne_zero h0)]
      have hincrement := mode.incrementsWord_eq negative kept (wide &&& mask) half
      rw [hdouble, hrest, heq, hquotient] at hincrement
      simp only [hshifted, hkept, hhalf, hunit, hmask, bind, Option.bind, hincrement, roundQuotient]
      rw [hquotient] at heq
      split
      case isTrue =>
        obtain ⟨r, hr, hsum⟩ := Word.exists_add?_eq (show kept.toNat + (1 : BitVec 32).toNat < 2 ^ (32 : Nat) by
          show kept.toNat + 1 < 2 ^ (32 : Nat)
          omega)
        exact ⟨r, hr, heq ▸ hsum⟩
      case isFalse =>
        obtain ⟨r, hr, hsum⟩ := Word.exists_add?_eq (show kept.toNat + (0 : BitVec 32).toNat < 2 ^ (32 : Nat) from
          kept.isLt)
        exact ⟨r, hr, heq ▸ hsum⟩

theorem isSome_roundWord? (significand : BitVec 32) (shift : Nat) :
    (mode.roundWord? negative significand shift).isSome := by
  obtain ⟨r, hr, -⟩ := mode.exists_roundWord?_eq negative significand shift
  exact hr ▸ rfl

/-- The magnitude `significand / 2 ^ shift`, rounded to an integer. -/
def roundWord (significand : BitVec 32) (shift : Nat) : BitVec 32 :=
  (mode.roundWord? negative significand shift).get (mode.isSome_roundWord? negative significand shift)

theorem roundWord?_eq (significand : BitVec 32) (shift : Nat) :
    mode.roundWord? negative significand shift = some (mode.roundWord negative significand shift) :=
  (Option.some_get _).symm

theorem toNat_roundWord (significand : BitVec 32) (shift : Nat) :
    (mode.roundWord negative significand shift).toNat =
      mode.roundQuotient negative significand.toNat (2 ^ shift) := by
  obtain ⟨r, hr, heq⟩ := mode.exists_roundWord?_eq negative significand shift
  rw [roundWord?_eq, Option.some_inj] at hr
  rw [hr, heq]

end RoundingMode

end PrecisionAudit
