import PrecisionAudit.Narrow.Functions
import PrecisionAudit.Proofs.Scalar.Widening

/-!
# Padding is never read

A padded format keeps its numbers above some bits that carry nothing. Whatever is read off a number, and
whatever is computed from it, depends on the packed word alone: two operands that differ in their padding
only give the same answers and the same packed results. The results carry no padding of their own, save
that two operations may hand back one of their operands as it is. Nothing of this rests on what the
mathematical library computes: its functions may be any functions of single precision numbers.

## Layers

1. numbers: `Scalar.stripped` clears the padding, and what every definition on fields makes of it;
2. readings: `Narrow.Property` and `Narrow.Relation`, all that is read off one number or off two, with
   `Property.eval_stripped` and `Relation.eval_stripped`;
3. operations: `Narrow.Operation`, all that computes a number, with `Operation.packed_eval_stripped` and
   `Operation.eval_padding`.

## Main results

- `Narrow.padding_never_read`: readings and operations on numbers that agree up to their padding.
-/

namespace PrecisionAudit

namespace Scalar

variable {f g : Format} {x y : Scalar f}

/-! ## Numbers without padding -/

/-- The number with its padding cleared. -/
def stripped (x : Scalar f) : Scalar f := ofPacked f x.packed

/-- All padding bits are zero. -/
def HasZeroPadding (x : Scalar f) : Prop := x.toNat % 2 ^ f.paddingBits = 0

@[simp]
theorem packed_stripped (x : Scalar f) : x.stripped.packed = x.packed := by
  rw [stripped, packed_ofPacked, Nat.mod_eq_of_lt x.packed_lt]

@[simp]
theorem isNegative_stripped (x : Scalar f) : x.stripped.isNegative = x.isNegative := by
  simp [isNegative]

@[simp]
theorem magnitude_stripped (x : Scalar f) : x.stripped.magnitude = x.magnitude := by
  simp [magnitude]

@[simp]
theorem exponentField_stripped (x : Scalar f) : x.stripped.exponentField = x.exponentField := by
  simp [exponentField]

@[simp]
theorem mantissaField_stripped (x : Scalar f) : x.stripped.mantissaField = x.mantissaField := by
  simp [mantissaField]

@[simp]
theorem isNaN_stripped (x : Scalar f) : x.stripped.isNaN = x.isNaN := by simp [isNaN]

@[simp]
theorem isInfinite_stripped (x : Scalar f) : x.stripped.isInfinite = x.isInfinite := by
  simp [isInfinite]

@[simp]
theorem isFinite_stripped (x : Scalar f) : x.stripped.isFinite = x.isFinite := by simp [isFinite]

@[simp]
theorem isDenormal_stripped (x : Scalar f) : x.stripped.isDenormal = x.isDenormal := by
  simp [isDenormal]

@[simp]
theorem isZero_stripped (x : Scalar f) : x.stripped.isZero = x.isZero := by simp [isZero]

@[simp]
theorem toBool_stripped (x : Scalar f) : x.stripped.toBool = x.toBool := by simp [toBool]

@[simp]
theorem ordinal_stripped (x : Scalar f) : x.stripped.ordinal = x.ordinal := by simp [ordinal]

@[simp]
theorem exact_stripped (x : Scalar f) : x.stripped.exact = x.exact := by simp [exact]

@[simp]
theorem widen_stripped (x : Scalar f) : x.stripped.widen = x.widen := by simp [widen]

/-! ## What is stored without padding -/

theorem hasZeroPadding_ofPacked (f : Format) (p : ℕ) : (ofPacked f p).HasZeroPadding := by
  have hdvd : 2 ^ f.paddingBits ∣ 2 ^ f.storageWidth :=
    Nat.pow_dvd_pow 2 (Nat.le_add_left f.paddingBits f.width)
  rw [HasZeroPadding, toNat, ofPacked, ofNat, BitVec.toNat_ofNat, Nat.mod_mod_of_dvd _ hdvd,
    Nat.mul_mod_left]

theorem hasZeroPadding_ofParts (f : Format) (negative : Bool) (m : ℕ) :
    (ofParts f negative m).HasZeroPadding := hasZeroPadding_ofPacked f _

theorem hasZeroPadding_convert (x : Scalar f) (g : Format) (mode : RoundingMode) :
    (x.convert g mode).HasZeroPadding := by
  unfold convert
  split <;> exact hasZeroPadding_ofParts g _ _

theorem hasZeroPadding_narrow (f : Format) (x : Single) (mode : RoundingMode) :
    (narrow f x mode).HasZeroPadding := by
  rw [narrow_eq_ite]
  split
  · exact hasZeroPadding_ofParts f _ _
  · exact hasZeroPadding_convert x f mode

theorem hasZeroPadding_ofSingle (f : Format) (x : Single) : (ofSingle f x).HasZeroPadding :=
  hasZeroPadding_narrow f x .nearestEven

end Scalar

namespace Narrow

open Scalar

variable {f : Format} {β : Type} {library : MathLibrary}

/-! ## Readings -/

/-- What is read off one narrow number: its class, its place, its widened value, and what it gives
together with a native number. -/
inductive Property : Type → Type 1
  | isNaN : Property Bool
  | isInfinite : Property Bool
  | isFinite : Property Bool
  | isDenormal : Property Bool
  | isZero : Property Bool
  | isNegative : Property Bool
  | toBool : Property Bool
  | ordinal : Property ℤ
  | exponent : Property ℤ
  | widen : Property Single
  | toDouble : Property Double
  | compareSingle (y : Single) : Property (Option Ordering)
  | singleCompare (x : Single) : Property (Option Ordering)
  | compareDouble (y : Double) : Property (Option Ordering)
  | doubleCompare (x : Double) : Property (Option Ordering)
  | numEqSingle (y : Single) : Property Bool
  | singleNumEq (x : Single) : Property Bool
  | numEqDouble (y : Double) : Property Bool
  | doubleNumEq (x : Double) : Property Bool
  | applySingle (op : Operator) (y : Single) : Property Single
  | singleApply (op : Operator) (x : Single) : Property Single
  | applyDouble (op : Operator) (y : Double) : Property Double
  | doubleApply (op : Operator) (x : Double) : Property Double

def Property.eval (library : MathLibrary) (x : Scalar f) : Property β → β
  | isNaN => x.isNaN
  | isInfinite => x.isInfinite
  | isFinite => x.isFinite
  | isDenormal => x.isDenormal
  | isZero => x.isZero
  | isNegative => x.isNegative
  | toBool => x.toBool
  | ordinal => x.ordinal
  | exponent => library.exponentOf x
  | widen => x.widen
  | toDouble => Narrow.toDouble x
  | compareSingle y => compareSingle? x y
  | singleCompare y => singleCompare? y x
  | compareDouble y => compareDouble? x y
  | doubleCompare y => doubleCompare? y x
  | numEqSingle y => Narrow.numEqSingle x y
  | singleNumEq y => Narrow.singleNumEq y x
  | numEqDouble y => Narrow.numEqDouble x y
  | doubleNumEq y => Narrow.doubleNumEq y x
  | applySingle op y => Narrow.applySingle op x y
  | singleApply op y => Narrow.singleApply op y x
  | applyDouble op y => Narrow.applyDouble op x y
  | doubleApply op y => Narrow.doubleApply op y x

/-- How two narrow numbers stand to each other. -/
inductive Relation : Type → Type 1
  | compare : Relation (Option Ordering)
  | numEq : Relation Bool
  | sameOrBothNaN : Relation Bool
  | distance : Relation ℕ
  | distance? : Relation (Option ℕ)

def Relation.eval (x y : Scalar f) : Relation β → β
  | compare => Narrow.compare? x y
  | numEq => Narrow.numEq x y
  | sameOrBothNaN => x.sameOrBothNaN y
  | distance => x.distance y
  | distance? => x.distance? y

theorem Property.eval_stripped (x : Scalar f) (q : Property β) :
    q.eval library x.stripped = q.eval library x := by
  cases q <;>
    simp [eval, MathLibrary.exponentOf, Narrow.toDouble, compareSingle?, singleCompare?, compareDouble?,
      doubleCompare?, Narrow.numEqSingle, Narrow.singleNumEq, Narrow.numEqDouble, Narrow.doubleNumEq,
      Narrow.applySingle, Narrow.singleApply, Narrow.applyDouble, Narrow.doubleApply]

theorem Relation.eval_stripped (x y : Scalar f) (q : Relation β) :
    q.eval x.stripped y.stripped = q.eval x y := by
  cases q <;>
    simp [eval, Narrow.compare?, Narrow.numEq, Scalar.sameOrBothNaN, Scalar.distance, Scalar.distance?]

/-! ## Operations -/

/-- All operations with a narrow result, on operands of any kind. What else an operation takes, a native
number or the name of a library function, belongs to the operation. -/
inductive Operation (α : Type)
  | narrow (mode : RoundingMode) (x : Single)
  | ofDouble (x : Double)
  | ofInt (n : ℤ)
  | apply (op : Operator) (x y : α)
  | assignSingle (op : Operator) (x : α) (y : Single)
  | applyInt (op : Operator) (x : α) (n : ℤ)
  | intApply (op : Operator) (n : ℤ) (y : α)
  | sum (xs : List α)
  | product (xs : List α)
  | neg (x : α)
  | abs (x : α)
  | copySign (x sign : α)
  | nextAfter (x toward : α)
  | flushToZero (x : α)
  | unary (name : String) (x : α)
  | binary (name : String) (x y : α)
  | fma (x y z : α)
  | powInt (x : α) (n : ℤ)
  | scaleBy (x : α) (n : ℤ)

namespace Operation

variable {α γ δ : Type}

/-- The same operation on other operands. -/
def map (g : α → γ) : Operation α → Operation γ
  | narrow mode x => narrow mode x
  | ofDouble x => ofDouble x
  | ofInt n => ofInt n
  | apply op x y => apply op (g x) (g y)
  | assignSingle op x y => assignSingle op (g x) y
  | applyInt op x n => applyInt op (g x) n
  | intApply op n y => intApply op n (g y)
  | sum xs => sum (xs.map g)
  | product xs => product (xs.map g)
  | neg x => neg (g x)
  | abs x => abs (g x)
  | copySign x sign => copySign (g x) (g sign)
  | nextAfter x toward => nextAfter (g x) (g toward)
  | flushToZero x => flushToZero (g x)
  | unary name x => unary name (g x)
  | binary name x y => binary name (g x) (g y)
  | fma x y z => fma (g x) (g y) (g z)
  | powInt x n => powInt (g x) n
  | scaleBy x n => scaleBy (g x) n

/-- The result; `none` if there is no library function of the name. -/
def eval (library : MathLibrary) : Operation (Scalar f) → Option (Scalar f)
  | narrow mode x => some (.narrow f x mode)
  | ofDouble x => some (Narrow.ofDouble f x)
  | ofInt n => some (Narrow.ofInt f n)
  | apply op x y => some (Narrow.apply op x y)
  | assignSingle op x y => some (Narrow.assignSingle op x y)
  | applyInt op x n => some (Narrow.applyInt op x n)
  | intApply op n y => some (Narrow.intApply op n y)
  | sum xs => some (Narrow.sum xs)
  | product xs => some (Narrow.product xs)
  | neg x => some x.neg
  | abs x => some x.abs
  | copySign x sign => some (x.copySign sign)
  | nextAfter x toward => some (x.nextAfter toward)
  | flushToZero x => some x.flushToZero
  | unary name x => (library.unary? name).map (· x)
  | binary name x y => (library.binary? name).map (· x y)
  | fma x y z => some (Narrow.fma x y z)
  | powInt x n => some (Narrow.powInt x n)
  | scaleBy x n => some (library.scaleBy x n)

/-- The result is an operand as it is: the target of a step that is there already, or a number that is
no denormal where denormals are flushed. -/
def HandsBack : Operation (Scalar f) → Prop
  | nextAfter x toward => Narrow.numEq x toward = true
  | flushToZero x => x.isDenormal = false
  | _ => False

theorem map_map (g : α → γ) (h : γ → δ) (o : Operation α) : (o.map g).map h = o.map (h ∘ g) := by
  cases o <;> simp [map]

end Operation

theorem foldl_apply_stripped (op : Operator) (xs : List (Scalar f)) (acc : Scalar f) :
    (xs.map stripped).foldl (apply op) acc = xs.foldl (apply op) acc := by
  have happly (x y : Scalar f) : apply op x y.stripped = apply op x y := by simp [apply, map₂]
  rw [List.foldl_map]
  simp only [happly]

/-- A step that has arrived gives its target, padding and all; every other step is found from fields. -/
theorem packed_nextAfter_stripped (x y : Scalar f) :
    (x.stripped.nextAfter y.stripped).packed = (x.nextAfter y).packed := by
  simp only [Scalar.nextAfter, isNaN_stripped, widen_stripped, isZero_stripped, isNegative_stripped,
    magnitude_stripped]
  split
  · rfl
  · split
    · exact packed_stripped y
    · rfl

theorem packed_flushToZero_stripped (x : Scalar f) :
    x.stripped.flushToZero.packed = x.flushToZero.packed := by
  simp only [Scalar.flushToZero, isDenormal_stripped, isNegative_stripped]
  split
  · rfl
  · exact packed_stripped x

/-- Clearing the padding of the operands leaves the packed result as it is. -/
theorem Operation.packed_eval_stripped (o : Operation (Scalar f)) :
    ((o.map stripped).eval library).map packed = (o.eval library).map packed := by
  -- all but the first two work on fields or on widened numbers, where nothing changes
  cases o with
  | nextAfter x toward => exact congrArg some (packed_nextAfter_stripped x toward)
  | flushToZero x => exact congrArg some (packed_flushToZero_stripped x)
  | sum xs | product xs => exact congrArg (some ∘ packed) (foldl_apply_stripped _ xs _)
  | narrow | ofDouble | ofInt => rfl
  | neg | abs | copySign => simp [map, eval, Scalar.neg, Scalar.abs, Scalar.copySign]
  | apply | assignSingle | applyInt | intApply | fma | powInt | scaleBy =>
    simp [map, eval, Narrow.apply, Narrow.assignSingle, Narrow.applyInt, Narrow.intApply, Narrow.fma,
      Narrow.powInt, MathLibrary.scaleBy, Narrow.map, Narrow.map₂]
  | unary name x => simp [map, eval, MathLibrary.unary?, Narrow.map, Function.comp_def]
  | binary name x y => simp [map, eval, MathLibrary.binary?, Narrow.map₂, Function.comp_def]

theorem hasZeroPadding_foldl_apply (op : Operator) (xs : List (Scalar f)) {acc : Scalar f}
    (hacc : acc.HasZeroPadding) : (xs.foldl (apply op) acc).HasZeroPadding := by
  induction xs generalizing acc with
  | nil => exact hacc
  | cons x xs ih => exact ih (hasZeroPadding_ofSingle f _)

/-- Unless it hands an operand back, an operation stores its result without padding. -/
theorem Operation.hasZeroPadding_of_eval {o : Operation (Scalar f)} {z : Scalar f}
    (h : o.eval library = some z) (hback : ¬ o.HandsBack) : z.HasZeroPadding := by
  cases o with
  | nextAfter x toward =>
    cases h
    dsimp only [Scalar.nextAfter]
    split
    · exact hasZeroPadding_ofSingle f _
    · split
      case isTrue hequal => exact absurd hequal hback
      case isFalse =>
        split
        · exact hasZeroPadding_ofParts f _ _
        · exact hasZeroPadding_ofParts f _ _
  | flushToZero x =>
    cases h
    have hdenormal : x.isDenormal = true := by simpa [HandsBack] using hback
    rw [Scalar.flushToZero, if_pos hdenormal]
    exact hasZeroPadding_ofParts f _ _
  | sum xs =>
    cases h
    exact hasZeroPadding_foldl_apply _ xs (hasZeroPadding_ofPacked f 0)
  | product xs =>
    cases h
    exact hasZeroPadding_foldl_apply _ xs (hasZeroPadding_ofSingle f _)
  | narrow mode x =>
    cases h
    exact hasZeroPadding_narrow f x mode
  | neg | abs | copySign =>
    cases h
    exact hasZeroPadding_ofParts f _ _
  | ofDouble | ofInt | apply | assignSingle | applyInt | intApply | fma | powInt | scaleBy =>
    cases h
    exact hasZeroPadding_ofSingle f _
  | unary name x =>
    obtain ⟨fn, hfn, rfl⟩ := Option.map_eq_some_iff.1 h
    obtain ⟨fn, -, rfl⟩ := Option.map_eq_some_iff.1 hfn
    exact hasZeroPadding_ofSingle f _
  | binary name x y =>
    obtain ⟨fn, hfn, rfl⟩ := Option.map_eq_some_iff.1 h
    obtain ⟨fn, -, rfl⟩ := Option.map_eq_some_iff.1 hfn
    exact hasZeroPadding_ofSingle f _

/-- A NaN equals nothing. -/
theorem isNaN_of_numEq (hf : f.IsNarrow) {x y : Scalar f} (h : numEq x y = true) :
    x.isNaN = false ∧ y.isNaN = false := by
  rw [← isNaN_widen hf x, ← isNaN_widen hf y]
  rw [numEq, Scalar.numEq, compare?_eq_cmp_value] at h
  constructor
  · by_contra hx
    rw [value?_of_isNaN (Bool.eq_true_of_not_eq_false hx)] at h
    cases h
  · by_contra hy
    rw [value?_of_isNaN (Bool.eq_true_of_not_eq_false hy), Option.map₂_none_right] at h
    cases h

theorem nextAfter_of_numEq (hf : f.IsNarrow) {x y : Scalar f} (h : numEq x y = true) :
    x.nextAfter y = y := by
  obtain ⟨hx, hy⟩ := isNaN_of_numEq hf h
  have hequal : x.widen.numEq y.widen = true := h
  simp [Scalar.nextAfter, hx, hy, hequal]

theorem flushToZero_of_not_isDenormal {x : Scalar f} (h : x.isDenormal = false) : x.flushToZero = x := by
  rw [Scalar.flushToZero, h]
  rfl

/-! ## Two runs -/

/-- Only the packed word of a number is ever read, whatever the functions of the mathematical library are.
Readings of numbers that agree up to their padding are equal, and operations on such numbers have the same
packed results, which come with zero padding. A step that has arrived and a flush that has nothing to do
hand their operand back, with the padding it has. -/
theorem padding_never_read (hf : f.IsNarrow) (library : MathLibrary) :
    (∀ (β : Type) (q : Property β) (x x' : Scalar f), x.packed = x'.packed →
      q.eval library x = q.eval library x') ∧
    (∀ (β : Type) (q : Relation β) (x x' y y' : Scalar f), x.packed = x'.packed →
      y.packed = y'.packed → q.eval x y = q.eval x' y') ∧
    (∀ o o' : Operation (Scalar f), o.map packed = o'.map packed →
      (o.eval library).map packed = (o'.eval library).map packed) ∧
    (∀ (o : Operation (Scalar f)) (z : Scalar f), o.eval library = some z → ¬ o.HandsBack →
      z.HasZeroPadding) ∧
    (∀ x y : Scalar f, (numEq x y = true → x.nextAfter y = y) ∧
      (y.HasZeroPadding → (x.nextAfter y).HasZeroPadding)) ∧
    ∀ x : Scalar f, (x.isDenormal = false → x.flushToZero = x) ∧
      (x.HasZeroPadding → x.flushToZero.HasZeroPadding) := by
  refine ⟨?_, ?_, ?_, ?_, ?_, ?_⟩
  · intro β q x x' hx
    rw [← q.eval_stripped x, stripped, hx, ← q.eval_stripped x', stripped]
  · intro β q x x' y y' hx hy
    rw [← q.eval_stripped x y, stripped, stripped, hx, hy, ← q.eval_stripped x' y', stripped, stripped]
  · intro o o' h
    -- both operations become the same one on numbers without padding
    have hstripped : o.map stripped = o'.map stripped := by
      have h' := congrArg (Operation.map (ofPacked f)) h
      rwa [Operation.map_map, Operation.map_map] at h'
    rw [← o.packed_eval_stripped, hstripped, o'.packed_eval_stripped]
  · intro o z h hback
    exact o.hasZeroPadding_of_eval h hback
  · intro x y
    refine ⟨nextAfter_of_numEq hf, fun hy => ?_⟩
    by_cases hequal : numEq x y = true
    · rwa [nextAfter_of_numEq hf hequal]
    · have hstep : (Operation.nextAfter x y).eval library = some (x.nextAfter y) := rfl
      exact Operation.hasZeroPadding_of_eval hstep hequal
  · intro x
    refine ⟨flushToZero_of_not_isDenormal, fun hx => ?_⟩
    by_cases hdenormal : x.isDenormal = false
    · rwa [flushToZero_of_not_isDenormal hdenormal]
    · have hflush : (Operation.flushToZero x).eval library = some x.flushToZero := rfl
      exact Operation.hasZeroPadding_of_eval hflush hdenormal

/-- One and minus two, each with two paddings, and a library whose results are rounded once. -/
theorem padding_never_read_one :
    let one := Scalar.ofNat .tfloat 0x3f801fff
    let one' := Scalar.ofNat .tfloat 0x3f800000
    let two := Scalar.ofNat .tfloat 0xc0000001
    let two' := Scalar.ofNat .tfloat 0xc0001000
    Format.tfloat.paddingBits = 13 ∧ toDouble one = toDouble one' ∧ exponentOf one = exponentOf one' ∧
      one.distance two = one'.distance two' ∧
        (sum [one, two]).packed = (sum [one', two']).packed ∧ (sum [one, two]).HasZeroPadding ∧
          (scaleBy one 4).packed = (scaleBy one' 4).packed ∧ (scaleBy one 4).HasZeroPadding ∧
            one'.nextAfter one = one := by
  intro one one' two two'
  have hone : one.packed = one'.packed := by decide
  have htwo : two.packed = two'.packed := by decide
  obtain ⟨hproperty, hrelation, hoperation, hpadding, hstep, -⟩ :=
    padding_never_read Format.tfloat_isNarrow .rounded
  refine ⟨rfl, hproperty _ .toDouble _ _ hone, hproperty _ .exponent _ _ hone,
    hrelation _ .distance _ _ _ _ hone htwo, ?_, ?_, ?_, ?_, ?_⟩
  · refine Option.some.inj (hoperation (.sum [one, two]) (.sum [one', two']) ?_)
    simp [Operation.map, hone, htwo]
  · exact hpadding (.sum [one, two]) _ rfl id
  · refine Option.some.inj (hoperation (.scaleBy one 4) (.scaleBy one' 4) ?_)
    simp [Operation.map, hone]
  · exact hpadding (.scaleBy one 4) _ rfl id
  · exact (hstep one' one).1 (by decide +kernel)

end Narrow

end PrecisionAudit
