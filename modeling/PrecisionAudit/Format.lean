import PrecisionAudit.Rounding.Word

/-!
# Binary formats

A format splits a word into a sign, an exponent field and a mantissa field, optionally above padding bits that
carry nothing. Exponents are biased, the smallest field value holds zeros and denormals, the largest one
infinities and NaNs.

* `Format`: the parameters, with the quantities derived from them.
* `Format.half`, `Format.bfloat`, `Format.tfloat`: the three narrow formats.
* `Format.single`, `Format.double`: the two native formats.
* `Format.encodeDyadic`, `Format.encodeRatio`: the one place where a number is rounded to a format.
-/

namespace PrecisionAudit

-- a power is that of the core library, whatever other instances are in scope
attribute [local instance (2000)] instPowNat

/-- What becomes of the payload when a NaN is brought into a format with a shorter mantissa. -/
inductive NanRule
  /-- The leading payload bits are kept and the quiet bit is set. -/
  | quiet
  /-- The leading payload bits are kept if nothing is lost; otherwise every payload bit is set. -/
  | saturate
  deriving DecidableEq, Repr, Inhabited

/-- A binary floating-point format. -/
structure Format where
  exponentBits : Nat
  mantissaBits : Nat
  /-- Low bits of a stored word that are not part of the number. -/
  paddingBits : Nat
  nanRule : NanRule
  deriving DecidableEq, Repr, Inhabited

namespace Format

/-- Bits of the packed word: sign, exponent field and mantissa field. -/
def width (f : Format) : Nat := 1 + f.exponentBits + f.mantissaBits

/-- Bits of the stored word, padding included. -/
def storageWidth (f : Format) : Nat := f.width + f.paddingBits

/-- The exponent field of numbers in `[1, 2)`. -/
def bias (f : Format) : Int := 2 ^ (f.exponentBits - 1) - 1

theorem bias_nonneg (f : Format) : 0 ≤ f.bias := by
  have : 0 < (2 : Int) ^ (f.exponentBits - 1) := Int.pow_pos (by decide)
  unfold bias
  omega

/-- The exponent of the smallest normal number. -/
def minExponent (f : Format) : Int := 1 - f.bias

/-- The exponent of the largest finite number. -/
def maxExponent (f : Format) : Int := f.bias

/-- The exponent field with every bit set, which marks infinities and NaNs. -/
def exponentFieldMax (f : Format) : Nat := 2 ^ f.exponentBits - 1

/-- One past the largest mantissa field, and the step from one exponent field to the next. -/
def mantissaSpan (f : Format) : Nat := 2 ^ f.mantissaBits

def mantissaMask (f : Format) : Nat := f.mantissaSpan - 1

def exponentMask (f : Format) : Nat := f.exponentFieldMax * f.mantissaSpan

def signMask (f : Format) : Nat := 2 ^ (f.exponentBits + f.mantissaBits)

def magnitudeMask (f : Format) : Nat := f.signMask - 1

/-- The magnitude of an infinity: every exponent bit and no mantissa bit. -/
def infinity (f : Format) : Nat := f.exponentMask

/-- The largest finite magnitude, one below infinity. -/
def maxFinite (f : Format) : Nat := f.exponentMask - 1

/-- The payload bit that marks a NaN as quiet. -/
def quietBit (f : Format) : Nat := 2 ^ (f.mantissaBits - 1)

/-! ## The formats in use -/

/-- Sixteen bits: five for the exponent, ten for the mantissa. -/
def half : Format := ⟨5, 10, 0, .quiet⟩

/-- The upper half of a single precision word. -/
def bfloat : Format := ⟨8, 7, 0, .saturate⟩

/-- Nineteen bits, kept at the top of a 32-bit word. -/
def tfloat : Format := ⟨8, 10, 13, .saturate⟩

/-- Native single precision. -/
def single : Format := ⟨8, 23, 0, .quiet⟩

/-- Native double precision. -/
def double : Format := ⟨11, 52, 0, .quiet⟩

/-! ## Rounding to a format -/

/-- The magnitude that stands for a number beyond the largest binade. -/
def overflow (f : Format) (mode : RoundingMode) (negative : Bool) : Nat :=
  match mode with
  | .nearestEven => f.infinity
  | .towardZero => f.maxFinite
  | .upward | .downward => if mode.directedUp negative then f.infinity else f.maxFinite

/-- The exponent of one unit in the last place of the binade `[2 ^ top, 2 ^ (top + 1))`. Below the smallest
normal number the unit no longer shrinks. -/
def unitExponent (f : Format) (top : Int) : Int := max top f.minExponent - f.mantissaBits

/-- What the exponent contributes to a magnitude. A normal significand brings its leading bit along, which
supplies the last increment of the exponent field. -/
def binadeBase (f : Format) (top : Int) : Nat := (top - f.minExponent).toNat * f.mantissaSpan

/-- The magnitude of a number of the binade `[2 ^ top, 2 ^ (top + 1))`, where `roundAt e` is the number divided
by `2 ^ e` and rounded to an integer. A carry out of the mantissa lands in the exponent field, up to infinity. -/
def assemble (f : Format) (mode : RoundingMode) (negative : Bool) (top : Int) (roundAt : Int → Nat) : Nat :=
  if f.maxExponent < top then
    f.overflow mode negative
  else
    f.binadeBase top + roundAt (f.unitExponent top)

/-- Up to the smallest normal binade all binades share a unit, so it does not matter for which of them a number is
taken. -/
theorem assemble_below (f : Format) (mode : RoundingMode) (negative : Bool) (roundAt : Int → Nat) {top : Int}
    (tiny : top ≤ f.minExponent) (finite : top ≤ f.maxExponent) :
    f.assemble mode negative top roundAt = roundAt (f.minExponent - f.mantissaBits) := by
  have base : f.binadeBase top = 0 := by
    rw [binadeBase, Int.toNat_eq_zero.2 (Int.sub_nonpos_of_le tiny), Nat.zero_mul]
  have unit : f.unitExponent top = f.minExponent - f.mantissaBits := by rw [unitExponent, Int.max_eq_right tiny]
  rw [assemble, if_neg (Int.not_lt.2 finite), base, unit, Nat.zero_add]

/-- `significand * 2 ^ (exponent - unit)`, rounded to an integer. -/
def roundAtUnit (mode : RoundingMode) (negative : Bool) (significand : Nat) (exponent unit : Int) : Nat :=
  if unit ≤ exponent then
    significand * 2 ^ (exponent - unit).toNat
  else
    mode.roundShift negative significand (unit - exponent).toNat

/-- The same for a significand that is a word, which is rounded in machine words. -/
def roundWordAtUnit (mode : RoundingMode) (negative : Bool) (significand : BitVec 32) (exponent unit : Int) : Nat :=
  if unit < exponent then
    significand.toNat * 2 ^ (exponent - unit).toNat
  else
    (mode.roundWord negative significand (unit - exponent).toNat).toNat

theorem roundWordAtUnit_eq (mode : RoundingMode) (negative : Bool) (significand : BitVec 32) (exponent : Int) :
    roundWordAtUnit mode negative significand exponent = roundAtUnit mode negative significand.toNat exponent := by
  funext unit
  unfold roundWordAtUnit roundAtUnit
  split
  case isTrue h => rw [if_pos (Int.le_of_lt h)]
  case isFalse h =>
    rw [RoundingMode.toNat_roundWord]
    split
    case isTrue hle =>
      -- at its own unit a significand has no fraction
      obtain rfl : unit = exponent := Int.le_antisymm hle (Int.not_lt.1 h)
      rw [Int.sub_self, Int.toNat_zero, Nat.pow_zero, Nat.mul_one, RoundingMode.roundQuotient_one]
    case isFalse => rw [RoundingMode.roundShift_eq_roundQuotient]

/-- The magnitude of `significand * 2 ^ exponent` in a format. -/
def encodeDyadic (f : Format) (mode : RoundingMode) (negative : Bool) (significand : Nat) (exponent : Int) : Nat :=
  if significand = 0 then
    0
  else
    f.assemble mode negative (significand.log2 + exponent) (roundAtUnit mode negative significand exponent)

/-- The exponent `t` with `2 ^ t ≤ num / den < 2 ^ (t + 1)`, for positive `num` and `den`. -/
def ratioExponent (num den : Nat) : Int :=
  let guess : Int := (num.log2 : Int) - den.log2
  let reached := if guess < 0 then den ≤ num * 2 ^ (-guess).toNat else den * 2 ^ guess.toNat ≤ num
  if reached then guess else guess - 1

/-- The magnitude of `num / den * 2 ^ exponent` in a format. -/
def encodeRatio (f : Format) (mode : RoundingMode) (negative : Bool) (num den : Nat) (exponent : Int) : Nat :=
  if num = 0 then
    0
  else
    f.assemble mode negative (ratioExponent num den + exponent) fun unit =>
      if unit ≤ exponent then
        mode.roundQuotient negative (num * 2 ^ (exponent - unit).toNat) den
      else
        mode.roundQuotient negative num (den * 2 ^ (unit - exponent).toNat)

end Format

end PrecisionAudit
