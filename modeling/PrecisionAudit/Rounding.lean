/-!
# Rounding modes and integer rounding

A rounding mode decides which of the two neighbouring integers stands for a quotient. Signs are kept apart
from magnitudes, so every function here rounds a magnitude and is told whether the number is negative.

* `RoundingMode.parse?` / `RoundingMode.name`: the texts of the four modes.
* `RoundingMode.roundQuotient`: rounds `num / den` to an integer.
* `RoundingMode.roundShift`: the same for a division by a power of two, with short cuts for the shifts that
  discard nothing and those that discard everything; `RoundingMode.roundShift_eq_roundQuotient` says that they agree.
-/

namespace PrecisionAudit

-- a power is that of the core library, whatever other instances are in scope
attribute [local instance (2000)] instPowNat

/-- How a number between two representable neighbours is resolved. -/
inductive RoundingMode
  | nearestEven
  | towardZero
  | upward
  | downward
  deriving DecidableEq, Repr, Inhabited

namespace RoundingMode

/-- The name under which a mode is printed and stored. -/
def name : RoundingMode → String
  | nearestEven => "nearest-even"
  | towardZero => "toward-zero"
  | upward => "upward"
  | downward => "downward"

/-- All modes, in the order in which they are listed to a user. -/
def all : List RoundingMode := [nearestEven, towardZero, upward, downward]

/-- Reads a mode from its name or one of its short names. -/
def parse? : String → Option RoundingMode
  | "nearest-even" | "rne" | "nearest" => some nearestEven
  | "toward-zero" | "rtz" => some towardZero
  | "upward" | "rtp" => some upward
  | "downward" | "rtn" => some downward
  | _ => none

/-- Whether an inexact magnitude grows under a directed mode; the other modes never force it. -/
def directedUp (mode : RoundingMode) (negative : Bool) : Bool :=
  match mode with
  | upward => !negative
  | downward => negative
  | nearestEven | towardZero => false

/-- Whether the kept integer is incremented: `rest` is what was discarded and `whole` the size of one unit. -/
def incrementsAt (mode : RoundingMode) (negative : Bool) (kept rest whole : Nat) : Bool :=
  match mode with
  | nearestEven => whole < 2 * rest || (2 * rest == whole && kept % 2 == 1)
  | towardZero => false
  | upward | downward => mode.directedUp negative && rest != 0

/-- Rounds the magnitude `num / den` to an integer. -/
def roundQuotient (mode : RoundingMode) (negative : Bool) (num den : Nat) : Nat :=
  let kept := num / den
  let rest := num % den
  if mode.incrementsAt negative kept rest den then kept + 1 else kept

/-- Rounds the magnitude `significand / 2 ^ shift` to an integer. A shift by more than one place beyond the
leading bit leaves less than half a unit, which only a directed mode can round up. -/
def roundShift (mode : RoundingMode) (negative : Bool) (significand shift : Nat) : Nat :=
  if shift = 0 then
    significand
  else if significand.log2 + 1 < shift then
    if mode.directedUp negative && significand != 0 then 1 else 0
  else
    let kept := significand >>> shift
    let rest := significand % 2 ^ shift
    if mode.incrementsAt negative kept rest (2 ^ shift) then kept + 1 else kept

/-! ## The short cuts -/

variable (mode : RoundingMode) (negative : Bool)

/-- A number without a fraction is not rounded. -/
theorem roundQuotient_one (num : Nat) : mode.roundQuotient negative num 1 = num := by
  cases mode <;> simp [roundQuotient, incrementsAt, Nat.mod_one]

/-- Of less than half a unit nothing is kept, and only a directed mode rounds it up. -/
theorem roundQuotient_of_two_mul_lt {num den : Nat} (h : 2 * num < den) :
    mode.roundQuotient negative num den = if mode.directedUp negative && num != 0 then 1 else 0 := by
  rw [roundQuotient, Nat.div_eq_of_lt (by omega), Nat.mod_eq_of_lt (by omega)]
  cases mode with
  | nearestEven => simp [incrementsAt, directedUp, Nat.le_of_lt h]
  | towardZero => simp [incrementsAt, directedUp]
  | upward => simp [incrementsAt, directedUp]
  | downward => simp [incrementsAt, directedUp]

/-- The short cuts for shifts that discard nothing or everything agree with the division. -/
theorem roundShift_eq_roundQuotient (significand shift : Nat) :
    mode.roundShift negative significand shift = mode.roundQuotient negative significand (2 ^ shift) := by
  unfold roundShift
  split
  case isTrue h0 =>
    subst h0
    exact (mode.roundQuotient_one negative significand).symm
  case isFalse =>
    split
    case isTrue hfar =>
      have htiny : 2 * significand < 2 ^ shift := by
        calc 2 * significand < 2 * 2 ^ (significand.log2 + 1) := by have := @Nat.lt_log2_self significand; omega
          _ = 2 ^ (significand.log2 + 1 + 1) := by rw [Nat.pow_succ 2 (significand.log2 + 1), Nat.mul_comm]
          _ ≤ 2 ^ shift := Nat.pow_le_pow_right Nat.two_pos hfar
      exact (mode.roundQuotient_of_two_mul_lt negative htiny).symm
    case isFalse => rw [Nat.shiftRight_eq_div_pow, roundQuotient]

end RoundingMode

end PrecisionAudit
