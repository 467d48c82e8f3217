import PrecisionAudit.Proofs.Batch.WellFormed
import PrecisionAudit.Proofs.Scalar.Integers
import PrecisionAudit.Proofs.Scalar.NaNs
import PrecisionAudit.Proofs.Scalar.RoundTrip

/-!
# References in working precisions

A reference in a working precision takes its arguments to double precision, down to the format in which the
function is computed, and its value the same way back. For the precisions that have references at all these ways
change nothing: double precision stays what it is, and single precision is widened and rounded back, twice, to the
very number it was. So the reference is the value of the function in the format itself, whatever the function is;
only a NaN may come out with another payload.

Of a NaN among the arguments the functions see no more than its sign, so that the payloads that are lost on the way
are not missed either.

## Main results

- `Scalar.sameArgument_throughDouble`: the way of an argument.
- `MathFunction.eval?_of_sameArguments`: functions do not look at payloads.
- `MathFunction.reference_workingPrecision`: references are values of the function, or missing with the bound.
-/

namespace PrecisionAudit

namespace Scalar

variable {f : Format} {x x' y y' z : Scalar f}

/-! ## Numbers up to payloads -/

/-- The same number, or no number both times. -/
def SameNumber (x y : Scalar f) : Prop := x = y ∨ (x.isNaN = true ∧ y.isNaN = true)

/-- The same number, or a NaN of the same sign. -/
structure SameArgument (x y : Scalar f) : Prop where
  number : x.SameNumber y
  sign : x.isNegative = y.isNegative

theorem SameNumber.refl (x : Scalar f) : x.SameNumber x := .inl rfl

theorem SameNumber.trans (hxy : x.SameNumber y) (hyz : y.SameNumber z) : x.SameNumber z := by
  rcases hxy with rfl | ⟨hx, hy⟩
  · exact hyz
  · rcases hyz with rfl | ⟨-, hz⟩
    · exact .inr ⟨hx, hy⟩
    · exact .inr ⟨hx, hz⟩

/-- A function that makes NaNs of NaNs does not tell them apart. -/
theorem SameNumber.map {F : Scalar f → Scalar f} (hF : ∀ {x}, x.isNaN = true → (F x).isNaN = true)
    (h : x.SameNumber y) : (F x).SameNumber (F y) := by
  rcases h with rfl | ⟨hx, hy⟩
  · exact .refl _
  · exact .inr ⟨hF hx, hF hy⟩

theorem SameNumber.map₂ {F : Scalar f → Scalar f → Scalar f}
    (hF : ∀ {x y}, x.isNaN = true ∨ y.isNaN = true → (F x y).isNaN = true)
    (hx : x.SameNumber x') (hy : y.SameNumber y') : (F x y).SameNumber (F x' y') := by
  rcases hx with rfl | ⟨hx, hx'⟩
  · rcases hy with rfl | ⟨hy, hy'⟩
    · exact .refl _
    · exact .inr ⟨hF (.inr hy), hF (.inr hy')⟩
  · exact .inr ⟨hF (.inl hx), hF (.inl hx')⟩

/-- The sign is taken of a NaN like of any other number. -/
theorem SameArgument.copySign (hx : x.SameArgument x') (hy : y.SameArgument y') :
    (x.copySign y).SameNumber (x'.copySign y') := by
  rcases hx.number with rfl | ⟨hx, hx'⟩
  · exact .inl (by rw [Scalar.copySign, Scalar.copySign, hy.sign])
  · exact .inr ⟨(isNaN_copySign x y).trans hx, (isNaN_copySign x' y').trans hx'⟩

/-! ## To double precision and back -/

/-- Single precision widened to double precision and rounded back. -/
def throughDouble (x : Single) : Single := x.singleToDouble.doubleToSingle

theorem throughDouble_of_not_isNaN {x : Single} (hx : x.isNaN = false) : x.throughDouble = x := by
  rw [throughDouble, doubleToSingle_singleToDouble hx, ofParts_isNegative_magnitude rfl]

/-- On its way through double precision a number stays the same, and a NaN keeps its sign. -/
theorem sameArgument_throughDouble (x : Single) : x.throughDouble.SameArgument x where
  number := by
    cases hx : x.isNaN with
    | false => exact .inl (throughDouble_of_not_isNaN hx)
    | true =>
      -- neither cast makes a number of a NaN
      refine .inr ⟨?_, hx⟩
      rw [throughDouble, doubleToSingle, isNaN_convert_eq Format.single_isNarrow.toIsBinary]
      exact (singleToDouble_of_isNaN hx).2
  sign := by
    rw [throughDouble, doubleToSingle, isNegative_convert_eq Format.single_isNarrow.toIsBinary,
      isNegative_singleToDouble]

end Scalar

open Scalar (SameNumber SameArgument)

namespace MathFunction

variable {f : Format} {fn : MathFunction} {p : Precision} {args args' : List (Scalar f)}

/-! ## Functions on NaNs -/

/-- Functions do not look at the payload of a NaN: a NaN gives a NaN, except that `copysign` takes its sign. -/
theorem eval?_of_sameArguments (hf : f.IsBinary) (fn : MathFunction)
    (h : List.Forall₂ SameArgument args args') :
    Option.Rel SameNumber (fn.eval? args) (fn.eval? args') := by
  cases h with
  | nil => cases fn <;> exact .none
  | @cons x x' rest rest' hx hrest =>
    have hhalfTurns {a : Scalar f} (ha : a.isNaN = true) : a.halfTurns.isNaN = true :=
      Scalar.isNaN_div hf (.inl ha)
    -- the functions differ in which of the arguments they look into, and how
    cases fn with
    | acos => exact .some (hx.number.map (Elementary.isNaN_acos hf))
    | acosh => exact .some (hx.number.map (Elementary.isNaN_acosh hf))
    | acospi => exact .some ((hx.number.map (Elementary.isNaN_acos hf)).map hhalfTurns)
    | asin | asinh | atan | atanh | cbrt | sin =>
      exact .some (hx.number.map (Elementary.isNaN_keepingZero hf))
    | asinpi | atanpi => exact .some ((hx.number.map (Elementary.isNaN_keepingZero hf)).map hhalfTurns)
    | cos | exp => exact .some (hx.number.map (Elementary.isNaN_oneAtZero hf))
    | log => exact .some (hx.number.map (Elementary.isNaN_logarithm hf))
    | ceil => exact .some (hx.number.map (Scalar.isNaN_ceil hf))
    | inv => exact .some (hx.number.map (Scalar.isNaN_recip hf))
    | sqrt => exact .some (hx.number.map (Scalar.isNaN_sqrt hf))
    | rsqrt => exact .some ((hx.number.map (Scalar.isNaN_sqrt hf)).map (Scalar.isNaN_recip hf))
    | atan2 =>
      cases hrest with
      | nil => exact .none
      | cons hy => exact .some (hx.number.map₂ (Elementary.isNaN_atan2 hf) hy.number)
    | atan2pi =>
      cases hrest with
      | nil => exact .none
      | cons hy => exact .some ((hx.number.map₂ (Elementary.isNaN_atan2 hf) hy.number).map hhalfTurns)
    | copysign =>
      cases hrest with
      | nil => exact .none
      | cons hy => exact .some (hx.copySign hy)

/-! ## Any function in place of a reference function -/

/-- What is taken for the value of a function, in every format. -/
abbrev Interpretation := (f : Format) → List (Scalar f) → Option (Scalar f)

/-- The value of a function as it is interpreted, at the right number of arguments. -/
def valueUnder (fn : MathFunction) (eval : Interpretation) (args : List (Scalar f)) :
    Except AuditError (Scalar f) :=
  if args.length ≠ fn.arity then
    .error (.arity fn args.length)
  else
    .ok ((eval f args).getD (.defaultNaN f))

/-- The reference in a working precision for a function as it is interpreted. -/
def referenceUnder (fn : MathFunction) (eval : Interpretation) (p : Precision) (args : List p.Value) :
    Except AuditError p.Value := do
  let _ ← fn.bound p
  let wide := args.map p.toDouble
  let result ← if p = .double then fn.valueUnder eval wide
    else (fn.valueUnder eval (wide.map Scalar.doubleToSingle)).map Scalar.singleToDouble
  return p.ofDouble result

theorem value_eq_valueUnder (args : List (Scalar f)) :
    fn.value args = fn.valueUnder (fun _ => fn.eval?) args := rfl

theorem reference_eq_referenceUnder (args : List p.Value) :
    fn.reference p args = fn.referenceUnder (fun _ => fn.eval?) p args := rfl

/-! ## Outcomes up to payloads -/

/-- The same error, or the same number up to the payload of a NaN. -/
inductive SameOutcome : Except AuditError (Scalar f) → Except AuditError (Scalar f) → Prop
  | ok {x y : Scalar f} (h : x.SameNumber y) : SameOutcome (.ok x) (.ok y)
  | error (error : AuditError) : SameOutcome (.error error) (.error error)

/-- A way through double precision behind a computation changes no outcome. -/
theorem SameOutcome.throughDouble {result result' : Except AuditError Single} (h : SameOutcome result result') :
    SameOutcome (result.map Scalar.throughDouble) result' := by
  cases h with
  | ok h => exact .ok ((Scalar.sameArgument_throughDouble _).number.trans h)
  | error error => exact .error error

theorem sameOutcome_valueUnder {eval : Interpretation} (hlength : args.length = args'.length)
    (h : Option.Rel SameNumber (eval f args) (eval f args')) :
    SameOutcome (fn.valueUnder eval args) (fn.valueUnder eval args') := by
  unfold valueUnder
  rw [hlength]
  split
  case isTrue => exact .error _
  case isFalse =>
    generalize eval f args = value, eval f args' = value' at h
    cases h with
    | some h => exact .ok h
    | none => exact .ok (.refl _)

/-! ## Gaps in the table of bounds -/

theorem bound_eq_error_iff {error : AuditError} :
    fn.bound p = .error error ↔ fn.hasBound p = false ∧ error = .unknownType fn p := by
  unfold bound
  split
  case isTrue hbound => simp [hbound]
  case isFalse hbound => simp [hbound, eq_comm]

theorem requirement_eq_error_iff {error : AuditError} :
    fn.requirement p = .error error ↔ fn.bound p = .error error := by
  rw [requirement, bind_eq_error_iff]
  constructor
  · rintro (h | ⟨steps, -, ⟨⟩⟩)
    exact h
  · exact .inl

theorem referenceUnder_of_gap {error : AuditError} (hgap : fn.bound p = .error error) (eval : Interpretation)
    (args : List p.Value) : fn.referenceUnder eval p args = .error error := by
  rw [referenceUnder, hgap]
  rfl

theorem referenceUnder_of_bound {bound : Double} (hbound : fn.bound p = .ok bound) (eval : Interpretation)
    (args : List p.Value) :
    fn.referenceUnder eval p args =
      (if p = .double then fn.valueUnder eval (args.map p.toDouble)
        else (fn.valueUnder eval ((args.map p.toDouble).map Scalar.doubleToSingle)).map
          Scalar.singleToDouble).map p.ofDouble := by
  unfold referenceUnder
  rw [hbound]
  dsimp only [Bind.bind, Except.bind]
  split
  · cases fn.valueUnder eval (args.map p.toDouble) <;> rfl
  · cases fn.valueUnder eval ((args.map p.toDouble).map Scalar.doubleToSingle) <;> rfl

theorem valueUnder_ne_unknownType (eval : Interpretation) (args : List (Scalar f)) :
    fn.valueUnder eval args ≠ .error (.unknownType fn p) := by
  unfold valueUnder
  split
  · rintro ⟨⟩
  · rintro ⟨⟩

/-- It is only for want of a bound that a reference fails for its precision. -/
theorem referenceUnder_eq_unknownType_iff {eval : Interpretation} {args : List p.Value} :
    fn.referenceUnder eval p args = .error (.unknownType fn p) ↔
      ∃ error, fn.bound p = .error error := by
  cases hbound : fn.bound p with
  | error error =>
    obtain ⟨-, rfl⟩ := bound_eq_error_iff.1 hbound
    exact iff_of_true (referenceUnder_of_gap hbound eval args) ⟨_, rfl⟩
  | ok bound =>
    refine iff_of_false ?_ nofun
    rw [referenceUnder_of_bound hbound, map_eq_error_iff]
    split
    · exact valueUnder_ne_unknownType eval _
    · rw [map_eq_error_iff]
      exact valueUnder_ne_unknownType eval _

/-! ## Single and double precision -/

theorem referenceUnder_single (eval : Interpretation) (args : List Single) :
    fn.referenceUnder eval .single args =
      (fn.valueUnder eval (args.map Scalar.throughDouble)).map Scalar.throughDouble := by
  have hbound : fn.bound .single = .ok (.ofInt .double fn.stepBound) := bound_eq_ok_iff.2 ⟨rfl, rfl⟩
  have hargs : (args.map Precision.single.toDouble).map Scalar.doubleToSingle =
      args.map Scalar.throughDouble := List.map_map
  rw [referenceUnder_of_bound hbound, if_neg (by decide), hargs]
  cases fn.valueUnder eval (args.map Scalar.throughDouble) <;> rfl

theorem referenceUnder_double {bound : Double} (hbound : fn.bound .double = .ok bound)
    (eval : Interpretation) (args : List Double) :
    fn.referenceUnder eval .double args = fn.valueUnder eval args := by
  have hargs : args.map Precision.double.toDouble = args := List.map_id args
  rw [referenceUnder_of_bound hbound, if_pos rfl, hargs]
  cases fn.valueUnder eval args <;> rfl

/-- The reference in single or double precision is the value of the function there, and the wrong number of
arguments is the same error; only a NaN may have another payload, and in double precision not even that. Nothing
of this depends on what the functions are: with any others in their place it holds for all arguments but NaNs.
Where the function has no bound there is no reference, whatever the arguments are, just as there is no
requirement. -/
theorem reference_workingPrecision (fn : MathFunction) :
    ((∃ bound, fn.bound .single = .ok bound) ∧
      ∀ args : List Single, SameOutcome (fn.reference .single args) (fn.value args)) ∧
    ((∃ bound, fn.bound .double = .ok bound) →
      ∀ args : List Double, fn.reference .double args = fn.value args) ∧
    (∀ eval : Interpretation,
      (∀ args : List Single, (∀ x ∈ args, x.isNaN = false) →
        SameOutcome (fn.referenceUnder eval .single args) (fn.valueUnder eval args)) ∧
      ((∃ bound, fn.bound .double = .ok bound) →
        ∀ args : List Double, fn.referenceUnder eval .double args = fn.valueUnder eval args)) ∧
    ∀ p,
      (∀ error, fn.bound p = .error error → error = .unknownType fn p) ∧
      (∀ error, fn.requirement p = .error error ↔ fn.bound p = .error error) ∧
      ∀ args, fn.reference p args = .error (.unknownType fn p) ↔ ∃ error, fn.bound p = .error error := by
  have hsingle := Format.single_isNarrow.toIsBinary
  refine ⟨⟨⟨_, bound_eq_ok_iff.2 ⟨rfl, rfl⟩⟩, fun args => ?_⟩, ?_, fun eval => ⟨fun args hargs => ?_, ?_⟩,
    fun p => ⟨?_, fun error => requirement_eq_error_iff, fun args => ?_⟩⟩
  · rw [reference_eq_referenceUnder, value_eq_valueUnder, referenceUnder_single]
    refine (sameOutcome_valueUnder (List.length_map _) (eval?_of_sameArguments hsingle fn ?_)).throughDouble
    exact List.forall₂_map_left_iff.2
      (List.forall₂_same.2 fun x _ => Scalar.sameArgument_throughDouble x)
  · rintro ⟨bound, hbound⟩ args
    exact referenceUnder_double hbound (fun _ => fn.eval?) args
  · -- numbers come back as they were, so that no function sees a difference
    have hsame : args.map Scalar.throughDouble = args :=
      (List.map_congr_left fun x hx => Scalar.throughDouble_of_not_isNaN (hargs x hx)).trans args.map_id
    rw [referenceUnder_single, hsame]
    refine (sameOutcome_valueUnder rfl ?_).throughDouble
    cases eval .single args with
    | none => exact .none
    | some x => exact .some (.refl x)
  · rintro ⟨bound, hbound⟩ args
    exact referenceUnder_double hbound eval args
  · intro error herror
    exact (bound_eq_error_iff.1 herror).2
  · rw [reference_eq_referenceUnder]
    exact referenceUnder_eq_unknownType_iff

/-- The least denormal under the sign of a zero, a missing argument, a function that is none of the reference
functions, and a function without a bound in double precision. -/
theorem reference_workingPrecision_copysign :
    let least := Scalar.ofNat .single 1
    let negativeZero := Scalar.ofNat .single 0x80000000
    let first : Interpretation := fun _ args => args.head?
    SameOutcome (copysign.reference .single [least, negativeZero]) (.ok (.ofNat .single 0x80000001)) ∧
      copysign.reference .double [.ofNat .double 1] = .error (.arity .copysign 1) ∧
      SameOutcome (copysign.referenceUnder first .single [least, negativeZero]) (.ok least) ∧
      cos.reference .double [] = .error (.unknownType .cos .double) := by
  intro least negativeZero first
  obtain ⟨⟨-, hsingle⟩, hdouble, hunder, -⟩ := reference_workingPrecision copysign
  obtain ⟨-, -, -, hgap⟩ := reference_workingPrecision cos
  refine ⟨?_, hdouble ⟨_, rfl⟩ _, (hunder first).1 _ ?_, ((hgap .double).2.2 []).2 ⟨_, rfl⟩⟩
  · have hvalue : copysign.value [least, negativeZero] = .ok (.ofNat .single 0x80000001) := by
      decide +kernel
    exact hvalue ▸ hsingle [least, negativeZero]
  · simp only [List.forall_mem_cons, List.not_mem_nil, false_implies, implies_true, and_true]
    decide +kernel

end MathFunction

end PrecisionAudit
