import PrecisionAudit.Precision

/-!
# Operators on narrow numbers

A narrow number takes part in arithmetic as its widened value. With a narrow operand the result is narrowed again,
an integer operand is first brought into the narrow format, and with a native operand the result stays native.

* `Operator`: the five operators and what they do in one format.
* `Narrow.apply`, `Narrow.applySingle`, `Narrow.applyDouble`, `Narrow.applyInt` and their mirrored forms.
* `Narrow.sum`, `Narrow.product`: folds from the left.
* `Narrow.compare?`, `Narrow.numEq` and their forms with a native operand on either side.
-/

namespace PrecisionAudit

/-- An arithmetic operator. -/
inductive Operator
  | add
  | sub
  | mul
  | div
  | rem
  deriving DecidableEq, Repr, Inhabited

namespace Operator

def parse? : String → Option Operator
  | "+" => some add
  | "-" => some sub
  | "*" => some mul
  | "/" => some div
  | "%" => some rem
  | _ => none

/-- The operator in one format, rounded once. -/
def eval {f : Format} : Operator → Scalar f → Scalar f → Scalar f
  | add => Scalar.add
  | sub => Scalar.sub
  | mul => Scalar.mul
  | div => Scalar.div
  | rem => Scalar.rem

end Operator

namespace Narrow

variable {f : Format}

/-- A narrow number in double precision. -/
def toDouble (x : Scalar f) : Double := x.widen.singleToDouble

/-- A double precision number in a narrow format, through single precision. -/
def ofDouble (f : Format) (x : Double) : Scalar f := .ofSingle f x.doubleToSingle

/-- The narrow number that an integer operand stands for, through single precision. -/
def ofInt (f : Format) (n : Int) : Scalar f := .ofSingle f (.ofInt .single n)

/-- A function of single precision numbers, on narrow numbers. -/
def map (fn : Single → Single) (x : Scalar f) : Scalar f := .ofSingle f (fn x.widen)

/-- A function of two single precision numbers, on narrow numbers. -/
def map₂ (fn : Single → Single → Single) (x y : Scalar f) : Scalar f := .ofSingle f (fn x.widen y.widen)

/-! ## Arithmetic -/

def apply (op : Operator) (x y : Scalar f) : Scalar f := map₂ op.eval x y

/-- Replaces a narrow number by its combination with a single precision operand. -/
def assignSingle (op : Operator) (x : Scalar f) (y : Single) : Scalar f := .ofSingle f (op.eval x.widen y)

def applySingle (op : Operator) (x : Scalar f) (y : Single) : Single := op.eval x.widen y

def singleApply (op : Operator) (x : Single) (y : Scalar f) : Single := op.eval x y.widen

def applyDouble (op : Operator) (x : Scalar f) (y : Double) : Double := op.eval (toDouble x) y

def doubleApply (op : Operator) (x : Double) (y : Scalar f) : Double := op.eval x (toDouble y)

def applyInt (op : Operator) (x : Scalar f) (n : Int) : Scalar f := apply op x (ofInt f n)

def intApply (op : Operator) (n : Int) (y : Scalar f) : Scalar f := apply op (ofInt f n) y

/-- The sum from the left, starting at zero. -/
def sum (xs : List (Scalar f)) : Scalar f := xs.foldl (apply .add) (.zero f)

/-- The product from the left, starting at one. -/
def product (xs : List (Scalar f)) : Scalar f := xs.foldl (apply .mul) (.ofSingle f (.one .single))

/-! ## Comparison -/

/-- The order of two narrow numbers. -/
def compare? (x y : Scalar f) : Option Ordering := x.widen.compare? y.widen

def compareSingle? (x : Scalar f) (y : Single) : Option Ordering := x.widen.compare? y

def singleCompare? (x : Single) (y : Scalar f) : Option Ordering := x.compare? y.widen

def compareDouble? (x : Scalar f) (y : Double) : Option Ordering := (toDouble x).compare? y

def doubleCompare? (x : Double) (y : Scalar f) : Option Ordering := x.compare? (toDouble y)

/-- Equality of two narrow numbers. -/
def numEq (x y : Scalar f) : Bool := x.widen.numEq y.widen

def numEqSingle (x : Scalar f) (y : Single) : Bool := x.widen.numEq y

def singleNumEq (x : Single) (y : Scalar f) : Bool := x.numEq y.widen

def numEqDouble (x : Scalar f) (y : Double) : Bool := (toDouble x).numEq y

def doubleNumEq (x : Double) (y : Scalar f) : Bool := x.numEq (toDouble y)

end Narrow

end PrecisionAudit
