import PrecisionAudit.Device.Error
import PrecisionAudit.Scalar.Basic

/-!
# Elements of buffers

A buffer holds bytes. An element of a buffer is a word of whole bytes, the least significant first; a narrow number is
its stored word.

* `Element`: the types of elements.
* `littleEndian`, `ofLittleEndian`: a number and its bytes, each recovered from the other.
* `Element.byteLength`, `Element.encode`, `Element.decode`: lists of elements and their bytes.
-/

namespace PrecisionAudit

-- a power is that of the core library, whatever other instances are in scope
attribute [local instance (2000)] instPowNat

/-- The number of bytes that a device can address. -/
def addressSpace : Nat := 2 ^ (64 : Nat)

/-! ## Words and bytes -/

/-- The lowest bytes of a number, the least significant first. -/
def littleEndian : Nat → Nat → List UInt8
  | 0, _ => []
  | size + 1, n => UInt8.ofNat n :: littleEndian size (n / 256)

/-- The number that bytes stand for. -/
def ofLittleEndian : List UInt8 → Nat
  | [] => 0
  | b :: rest => b.toNat + 256 * ofLittleEndian rest

@[simp] theorem length_littleEndian (size n : Nat) : (littleEndian size n).length = size := by
  induction size generalizing n with
  | zero => rfl
  | succ size ih => simp [littleEndian, ih]

/-- Bytes keep a number up to what does not fit into them. -/
theorem ofLittleEndian_littleEndian (size n : Nat) : ofLittleEndian (littleEndian size n) = n % 256 ^ size := by
  induction size generalizing n with
  | zero => simp [littleEndian, ofLittleEndian, Nat.mod_one]
  | succ size ih => simp [littleEndian, ofLittleEndian, ih, Nat.pow_succ', Nat.mod_mul]

/-- The number that bytes stand for has those bytes. -/
theorem littleEndian_ofLittleEndian (bytes : List UInt8) :
    littleEndian bytes.length (ofLittleEndian bytes) = bytes := by
  induction bytes with
  | nil => rfl
  | cons b rest ih =>
    have low : UInt8.ofNat (b.toNat + 256 * ofLittleEndian rest) = b :=
      UInt8.toNat_inj.1 (by simp)
    have high : (b.toNat + 256 * ofLittleEndian rest) / 256 = ofLittleEndian rest := by
      have := b.toNat_lt
      omega
    simp [littleEndian, ofLittleEndian, low, high, ih]

/-- A type of elements. -/
inductive Element
  | int8 | int16 | int32 | int64
  | uint8 | uint16 | uint32 | uint64
  | single | double
  | half | bfloat | tfloat
  deriving DecidableEq, Repr, Inhabited

namespace Element

/-- The number of bytes of an element. -/
@[reducible] def size : Element → Nat
  | int8 | uint8 => 1
  | int16 | uint16 | half | bfloat => 2
  | int32 | uint32 | single | tfloat => 4
  | int64 | uint64 | double => 8

/-- An element as a word. -/
abbrev Word (e : Element) := BitVec (8 * e.size)

/-- The bytes of one element. -/
def bytes (e : Element) (word : e.Word) : List UInt8 := littleEndian e.size word.toNat

/-- The element that bytes stand for. -/
def ofBytes (e : Element) (bytes : List UInt8) : e.Word := BitVec.ofNat _ (ofLittleEndian bytes)

@[simp] theorem length_bytes (e : Element) (word : e.Word) : (e.bytes word).length = e.size := length_littleEndian _ _

/-- An element survives the way through its bytes. -/
@[simp] theorem ofBytes_bytes (e : Element) (word : e.Word) : e.ofBytes (e.bytes word) = word := by
  refine BitVec.eq_of_toNat_eq ?_
  have fits : word.toNat < 256 ^ e.size := by
    have := word.isLt
    rwa [Nat.pow_mul] at this
  simp [ofBytes, bytes, ofLittleEndian_littleEndian, Nat.mod_eq_of_lt fits]

/-! ## Lists of elements -/

/-- The number of bytes of so many elements. -/
def byteLength (e : Element) (count : Nat) : Except DeviceError Nat :=
  if addressSpace ≤ count * e.size then .error (.sizeOverflow count e.size) else .ok (count * e.size)

/-- The bytes of a list of elements. -/
def encode (e : Element) (words : List e.Word) : Except DeviceError (List UInt8) := do
  let _ ← e.byteLength words.length
  return words.flatMap e.bytes

/-- So many elements from the front of some bytes. -/
def take (e : Element) : Nat → List UInt8 → List e.Word
  | 0, _ => []
  | count + 1, bytes => e.ofBytes (bytes.take e.size) :: take e count (bytes.drop e.size)

/-- The elements that bytes stand for. -/
def decode (e : Element) (bytes : List UInt8) : Except DeviceError (List e.Word) :=
  if bytes.length % e.size ≠ 0 then
    .error (.misaligned bytes.length e.size)
  else
    .ok (e.take (bytes.length / e.size) bytes)

end Element

/-! ## Numbers as elements -/

/-- The number of a format that a word stands for. -/
def Scalar.ofWord (f : Format) {width : Nat} (word : BitVec width) : Scalar f := .ofNat f word.toNat

/-- The word of a number. -/
def Scalar.word {f : Format} (width : Nat) (x : Scalar f) : BitVec width := BitVec.ofNat _ x.toNat

end PrecisionAudit
