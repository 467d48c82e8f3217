import PrecisionAudit.Scalar.Exact

/-!
# Conversion between formats

* `Scalar.convert`: brings a scalar into another format, rounding once in a given mode. NaNs stay NaNs under the
  target's NaN rule.
* `Scalar.narrow`: single precision to a narrow format; `Scalar.narrow_eq_convert` says when this rounds once.
* `Scalar.widen`: a narrow format to single precision, by fields for normal numbers and by one exact product for
  denormals.
* `Scalar.singleToDouble`, `Scalar.doubleToSingle`: between the native formats.
* `Half.ofSingleStochastic`: rounding to half precision with random bits below the last kept place.
-/

namespace PrecisionAudit

-- a power is that of the core library, whatever other instances are in scope
attribute [local instance (2000)] instPowNat

namespace Scalar

variable {f g : Format}

/-- The payload of a NaN, brought from one mantissa width to another that is not longer. -/
def shortenPayload (source target : Format) (payload : Nat) : Nat :=
  let step := 2 ^ (source.mantissaBits - target.mantissaBits)
  let kept := payload / step
  match target.nanRule with
  | .quiet => kept ||| target.quietBit
  | .saturate => if payload % step = 0 then kept else target.mantissaMask

/-- The payload of a NaN in another format: extended by zeros, or shortened by the target's rule. -/
def convertPayload (source target : Format) (payload : Nat) : Nat :=
  if source.mantissaBits < target.mantissaBits then
    (payload * 2 ^ (target.mantissaBits - source.mantissaBits)) ||| target.quietBit
  else
    shortenPayload source target payload

/-- Brings a scalar into another format. -/
def convert (x : Scalar f) (g : Format) (mode : RoundingMode) : Scalar g :=
  match x.datum with
  | .nan => ofParts g x.isNegative (g.infinity + convertPayload f g x.mantissaField)
  | .infinite negative => infinity g negative
  | .finite number => number.round g mode

/-- Narrows a single precision number in machine words. A denormal keeps the exponent of the smallest normal number,
even in a format whose own exponents go further down. -/
def narrow (f : Format) (x : Single) (mode : RoundingMode) : Scalar f :=
  match x.datum with
  | .finite ⟨negative, significand, exponent⟩ =>
    if significand = 0 then
      ofParts f negative 0
    else
      ofParts f negative (f.assemble mode negative (exponent + Format.single.mantissaBits)
        (Format.roundWordAtUnit mode negative (.ofNat 32 significand) exponent))
  | .nan | .infinite _ => x.convert f mode

/-- A significand of single precision fits a word, so that it does not matter how it is rounded. -/
theorem narrow_of_datum_eq (f : Format) {x : Single} (mode : RoundingMode) {negative : Bool} {significand : Nat}
    {exponent : Int} (denotes : x.datum = .finite ⟨negative, significand, exponent⟩) (nonzero : significand ≠ 0)
    (short : significand < 2 * Format.single.mantissaSpan) :
    narrow f x mode = ofParts f negative (f.assemble mode negative (exponent + Format.single.mantissaBits)
      (Format.roundAtUnit mode negative significand exponent)) := by
  have span : 2 * Format.single.mantissaSpan < 2 ^ (32 : Nat) := by decide
  simp only [narrow, denotes, nonzero, if_false]
  rw [Format.roundWordAtUnit_eq, BitVec.toNat_ofNat, Nat.mod_eq_of_lt (Nat.lt_trans short span)]

/-- Only denormals are narrowed in another way than by rounding their values once. -/
theorem narrow_eq_ite (f : Format) (x : Single) (mode : RoundingMode) :
    narrow f x mode =
      if x.isDenormal then
        let unit := Format.single.minExponent - Format.single.mantissaBits
        ofParts f x.isNegative (f.assemble mode x.isNegative Format.single.minExponent
          (Format.roundAtUnit mode x.isNegative x.mantissaField unit))
      else
        x.convert f mode := by
  have below := mantissaField_lt x
  by_cases special : x.exponentField = Format.single.exponentFieldMax
  · -- infinities and NaNs
    have denormal : x.isDenormal = false := by
      rw [isDenormal, special]
      rfl
    rw [denormal, if_neg Bool.false_ne_true, narrow, datum, if_pos special]
    by_cases payload : x.mantissaField = 0
    · rw [if_pos payload]
    · rw [if_neg payload]
  have datum : x.datum = .finite x.exact := by rw [Scalar.datum, if_neg special]
  by_cases field : x.exponentField = 0
  · rw [exact, if_pos field] at datum
    by_cases mantissa : x.mantissaField = 0
    · -- zeros
      rw [mantissa] at datum
      simp [isDenormal, mantissa, narrow, convert, datum, Exact.round, Format.encodeDyadic]
    · rw [narrow_of_datum_eq f mode datum mantissa (by omega), Int.sub_add_cancel]
      simp [isDenormal, field, mantissa]
  · -- the leading bit of a normal significand says in which binade the number is
    rw [exact, if_neg field] at datum
    have span : Format.single.mantissaSpan = 2 ^ (23 : Nat) := rfl
    have leading : (Format.single.mantissaSpan + x.mantissaField).log2 = 23 :=
      (Nat.log2_eq_iff (by omega)).2 (by omega)
    have nonzero : Format.single.mantissaSpan + x.mantissaField ≠ 0 := by omega
    have denormal : x.isDenormal = false := by simp [isDenormal, field]
    rw [narrow_of_datum_eq f mode datum nonzero (by omega), denormal, if_neg Bool.false_ne_true, convert, datum,
      Int.add_comm]
    simp only [Exact.round, Format.encodeDyadic, nonzero, leading, if_false]
    rfl

/-- Narrowing rounds once, if the exponents of the format go no further down than those of single precision. -/
theorem narrow_eq_convert (x : Single) (mode : RoundingMode) (h : f.bias ≤ Format.single.bias) :
    narrow f x mode = x.convert f mode := by
  rw [narrow_eq_ite]
  split
  case isFalse => rfl
  case isTrue denormal =>
    obtain ⟨field, mantissa⟩ : x.exponentField = 0 ∧ x.mantissaField ≠ 0 := by
      simpa [isDenormal] using denormal
    have special : ¬ (0 : Nat) = Format.single.exponentFieldMax := by decide
    have datum : x.datum =
        .finite ⟨x.isNegative, x.mantissaField, Format.single.minExponent - Format.single.mantissaBits⟩ := by
      rw [Scalar.datum, exact, field, if_neg special, if_pos rfl]
    have below : x.mantissaField.log2 < 23 := (Nat.log2_lt mantissa).2 (mantissaField_lt x)
    have nonneg := f.bias_nonneg
    have least : Format.single.minExponent = -126 := rfl
    have width : (Format.single.mantissaBits : Int) = 23 := rfl
    have limit : Format.single.bias = 127 := rfl
    have lower : f.minExponent = 1 - f.bias := rfl
    have upper : f.maxExponent = f.bias := rfl
    simp only [convert, datum, Exact.round, Format.encodeDyadic, mantissa, if_false]
    rw [f.assemble_below mode _ _ (by omega) (by omega), f.assemble_below mode _ _ (by omega) (by omega)]

/-- Narrows to the nearest number of the format. -/
def ofSingle (f : Format) (x : Single) : Scalar f := narrow f x .nearestEven

/-- The widened number. Each field of a normal number, an infinity or a NaN moves to its place in single
precision; a denormal is its mantissa times the unit of its format, which single precision holds exactly. An exponent
field that is too large for its place overlaps the sign and loses what lies beyond. -/
def widen (x : Scalar f) : Single :=
  let mantissa := x.mantissaField * 2 ^ (Format.single.mantissaBits - f.mantissaBits)
  if x.exponentField = f.exponentFieldMax then
    ofParts .single x.isNegative (Format.single.infinity + mantissa)
  else if x.exponentField = 0 then
    x.exact.round .single .nearestEven
  else
    let fields : Nat := 2 ^ Format.single.exponentBits
    let field : Nat := ((x.exponentField - f.bias + Format.single.bias) % (2 * fields)).toNat
    ofParts .single (x.isNegative || fields ≤ field) (field % fields * Format.single.mantissaSpan + mantissa)

/-- Single precision widened to double precision. -/
def singleToDouble (x : Single) : Double := x.convert .double .nearestEven

/-- Double precision rounded to single precision. -/
def doubleToSingle (x : Double) : Single := x.convert .single .nearestEven

end Scalar

namespace Half

/-- The bits of a single precision significand that half precision drops. -/
def discardedSpan : Nat := 2 ^ (Format.single.mantissaBits - Format.half.mantissaBits)

/-- Rounds to half precision after adding the low bits of `random` below the last kept place. Numbers below the
normal range of half precision become zeros and numbers above it infinities; single precision denormals,
infinities and NaNs are rounded to nearest. -/
def ofSingleStochastic (value random : Single) : Half :=
  let field := value.exponentField
  if field = 0 ∨ field = Format.single.exponentFieldMax then
    .ofSingle .half value
  else
    let exponent : Int := field - Format.single.bias
    if exponent < Format.half.minExponent then
      .ofParts .half value.isNegative 0
    else if Format.half.maxExponent < exponent then
      .infinity .half value.isNegative
    else
      let dithered := value.mantissaField + random.toNat % discardedSpan
      let biased := (exponent + Format.half.bias).toNat
      .ofParts .half value.isNegative (biased * Format.half.mantissaSpan + dithered / discardedSpan)

end Half

end PrecisionAudit
