import Mathlib.Algebra.Group.Nat.Defs
import PrecisionAudit.Proofs.Device.Arguments

/-!
# Elements and their bytes

A list of elements and its bytes say the same: each is recovered from the other, for every type of elements
and every word. The same holds of an element that is bound to a kernel. A body that asks for it as another
type of the same size gets the same bytes, and one that asks for another size is refused.

## Main results

- `Element.decode_flatMap_bytes`, `Element.exists_of_dvd`: the two ways round, for lists.
- `Binding.presents_of_holds`: what a body finds where an element is bound.
- `Element.roundTrips`: both for every type of elements.
-/

namespace PrecisionAudit

/-! ## Bytes of one element -/

theorem ofLittleEndian_lt (bytes : List UInt8) : ofLittleEndian bytes < 256 ^ bytes.length := by
  induction bytes with
  | nil => exact Nat.one_pos
  | cons b rest ih =>
    have hb := b.toNat_lt
    rw [ofLittleEndian, List.length_cons, Nat.pow_succ]
    omega

namespace Element

variable {e u : Element}

theorem size_pos (e : Element) : 0 < e.size := by cases e <;> decide

/-- Bytes survive the way through the element that they stand for. -/
theorem bytes_ofBytes {bytes : List UInt8} (hlength : bytes.length = e.size) :
    e.bytes (e.ofBytes bytes) = bytes := by
  have hlt : ofLittleEndian bytes < 2 ^ (8 * e.size) := by
    rw [← hlength, Nat.pow_mul]
    exact ofLittleEndian_lt bytes
  rw [Element.bytes, ofBytes, BitVec.toNat_ofNat, Nat.mod_eq_of_lt hlt, ← hlength,
    littleEndian_ofLittleEndian]

/-! ## Bytes of lists -/

@[simp]
theorem length_flatMap_bytes (words : List e.Word) :
    (words.flatMap e.bytes).length = words.length * e.size := by
  induction words with
  | nil => simp
  | cons word rest ih =>
    rw [List.flatMap_cons, List.length_append, length_bytes, ih, List.length_cons, Nat.succ_mul,
      Nat.add_comm]

/-- The elements at the front of bytes are those whose bytes come first. -/
theorem take_append (words : List e.Word) (tail : List UInt8) :
    e.take words.length (words.flatMap e.bytes ++ tail) = words := by
  induction words with
  | nil => rfl
  | cons word rest ih =>
    rw [List.flatMap_cons, List.append_assoc, List.length_cons, take,
      List.take_left' (e.length_bytes word), List.drop_left' (e.length_bytes word), ofBytes_bytes, ih]

/-- The bytes of all elements are all bytes. -/
theorem flatMap_take {count : ℕ} {bytes : List UInt8} (hlength : bytes.length = count * e.size) :
    (e.take count bytes).flatMap e.bytes = bytes := by
  induction count generalizing bytes with
  | zero => exact (List.eq_nil_of_length_eq_zero (by omega)).symm
  | succ count ih =>
    rw [Nat.succ_mul] at hlength
    have hfront : (bytes.take e.size).length = e.size := by
      rw [List.length_take]
      omega
    have hrest : (bytes.drop e.size).length = count * e.size := by
      rw [List.length_drop]
      omega
    rw [take, List.flatMap_cons, bytes_ofBytes hfront, ih hrest, List.take_append_drop]

theorem byteLength_of_lt {count : ℕ} (h : count * e.size < addressSpace) :
    e.byteLength count = .ok (count * e.size) := if_neg (Nat.not_le.2 h)

theorem byteLength_of_le {count : ℕ} (h : addressSpace ≤ count * e.size) :
    e.byteLength count = .error (.sizeOverflow count e.size) := if_pos h

theorem encode_of_lt {words : List e.Word} (h : words.length * e.size < addressSpace) :
    e.encode words = .ok (words.flatMap e.bytes) := by
  rw [encode, byteLength_of_lt h]
  rfl

theorem encode_of_le {words : List e.Word} (h : addressSpace ≤ words.length * e.size) :
    e.encode words = .error (.sizeOverflow words.length e.size) := by
  rw [encode, byteLength_of_le h]
  rfl

theorem decode_flatMap_bytes (words : List e.Word) : e.decode (words.flatMap e.bytes) = .ok words := by
  have htake := take_append words []
  rw [List.append_nil] at htake
  rw [decode, length_flatMap_bytes, Nat.mul_mod_left, if_neg (not_not.2 rfl),
    Nat.mul_div_cancel _ e.size_pos, htake]

/-- Bytes are refused if they are not those of whole elements. -/
theorem decode_eq_error_iff {bytes : List UInt8} :
    e.decode bytes = .error (.misaligned bytes.length e.size) ↔ ¬ e.size ∣ bytes.length := by
  rw [decode, Nat.dvd_iff_mod_eq_zero]
  split
  case isTrue h => simpa using h
  case isFalse h => simpa using h

/-- Otherwise they are the bytes of a list. -/
theorem exists_of_dvd {bytes : List UInt8} (h : e.size ∣ bytes.length) :
    ∃ words, e.decode bytes = .ok words ∧ words.flatMap e.bytes = bytes := by
  refine ⟨e.take (bytes.length / e.size) bytes, ?_, flatMap_take (Nat.div_mul_cancel h).symm⟩
  rw [decode, Nat.mod_eq_zero_of_dvd h, if_neg (not_not.2 rfl)]

end Element

/-! ## Elements bound to kernels -/

/-- The arguments that an element is bound as: its bytes, or for some types an argument of that type. -/
inductive KernelArgument.Holds : KernelArgument → (e : Element) → e.Word → Prop
  | encoded (e : Element) (word : e.Word) : Holds (.scalar e word) e word
  | int32 (value : BitVec 32) : Holds (.int32 value) .int32 value
  | int64 (value : BitVec 64) : Holds (.int64 value) .int64 value
  | uint32 (value : BitVec 32) : Holds (.uint32 value) .uint32 value
  | uint64 (value : BitVec 64) : Holds (.uint64 value) .uint64 value
  | single (value : BitVec 32) : Holds (.single value) .single value
  | double (value : BitVec 64) : Holds (.double value) .double value

theorem KernelArgument.Holds.scalarBytes?_eq {argument : KernelArgument} {e : Element} {word : e.Word}
    (holds : argument.Holds e word) : argument.scalarBytes? = some (e.bytes word) := by
  cases holds <;> rfl

namespace Binding

/-- What a body finds at a position where an element is bound. -/
structure Presents (b : Binding) (index : ℕ) (e : Element) (word : e.Word) : Prop where
  scalar_eq : b.scalar index e = .ok word
  /-- Any type of the same size has a word of the same bytes. -/
  sameSize : ∀ u : Element, u.size = e.size →
    ∃ other, b.scalar index u = .ok other ∧ u.bytes other = e.bytes word
  otherSize_iff : ∀ u : Element,
    b.scalar index u = .error (.sizeMismatch u.size e.size) ↔ u.size ≠ e.size

variable {b b' : Binding} {index index' : ℕ} {argument : KernelArgument} {e : Element} {word : e.Word}

/-- An element is looked up by its bytes. -/
theorem scalar_of_holds (hargument : b.argument index = .ok argument) (holds : argument.Holds e word)
    (u : Element) :
    b.scalar index u =
      if e.size ≠ u.size then .error (.sizeMismatch u.size e.size) else .ok (u.ofBytes (e.bytes word)) := by
  simp only [scalar, hargument, bind, Except.bind, holds.scalarBytes?_eq, Element.length_bytes]
  rfl

theorem presents_of_holds (hargument : b.argument index = .ok argument)
    (holds : argument.Holds e word) : b.Presents index e word where
  scalar_eq := by rw [scalar_of_holds hargument holds, if_neg (not_not.2 rfl), Element.ofBytes_bytes]
  sameSize u hsize := by
    have hlength : (e.bytes word).length = u.size := by rw [Element.length_bytes, hsize]
    refine ⟨u.ofBytes (e.bytes word), ?_, Element.bytes_ofBytes hlength⟩
    rw [scalar_of_holds hargument holds, if_neg (not_not.2 hsize.symm)]
  otherSize_iff u := by
    rw [scalar_of_holds hargument holds]
    split
    case isTrue h => simpa using Ne.symm h
    case isFalse h => simpa using (not_not.1 h).symm

end Binding

/-! ## Round trips -/

/-- A stored number and its word say the same. -/
theorem Scalar.ofWord_word {f : Format} {width : ℕ} (hwidth : f.storageWidth = width) (x : Scalar f) :
    Scalar.ofWord f (x.word width) = x := by
  subst hwidth
  simp [ofWord, word, ofNat, toNat]

theorem Scalar.word_ofWord {f : Format} {width : ℕ} (hwidth : f.storageWidth = width)
    (word : BitVec width) : (Scalar.ofWord f word).word width = word := by
  subst hwidth
  simp [ofWord, Scalar.word, ofNat, toNat]

/-- For every type of elements: the bytes of a list are as many as announced and give it back, unless it is
too long for the memory; bytes give a list with exactly these bytes, unless they are not those of whole
elements; a narrow number is its stored word, padding included; and an element that is bound to a kernel is
found unchanged, in whatever form it has been bound. -/
theorem Element.roundTrips (e : Element) :
    (∀ words : List e.Word,
      (words.length * e.size < addressSpace → ∃ bytes, e.encode words = .ok bytes ∧
        e.byteLength words.length = .ok bytes.length ∧ e.decode bytes = .ok words) ∧
      (addressSpace ≤ words.length * e.size →
        e.encode words = .error (.sizeOverflow words.length e.size) ∧
        e.byteLength words.length = .error (.sizeOverflow words.length e.size))) ∧
    (∀ bytes : List UInt8,
      (e.decode bytes = .error (.misaligned bytes.length e.size) ↔ ¬ e.size ∣ bytes.length) ∧
      (e.size ∣ bytes.length → ∃ words, e.decode bytes = .ok words ∧ words.flatMap e.bytes = bytes ∧
        (bytes.length < addressSpace → e.encode words = .ok bytes))) ∧
    (∀ f : Format, f.storageWidth = 8 * e.size →
      (∀ x : Scalar f, Scalar.ofWord f (x.word (8 * e.size)) = x) ∧
      ∀ word : e.Word, (Scalar.ofWord f word).word (8 * e.size) = word) ∧
    (∀ (argument : KernelArgument) (word : e.Word), argument.Holds e word →
      (∀ (b : Binding) (index : ℕ), b.argument index = .ok argument → b.Presents index e word ∧
        ∀ (b' : Binding) (index' : ℕ), b'.argument index' = .ok (.scalar e word) →
          ∀ u, b.scalar index u = b'.scalar index' u) ∧
      ∀ (d d' : HostDevice) (handle : KernelHandle) (index : ℕ),
        d.setArgument handle index argument = (.ok (), d') → ∀ (launch : Launch) (body : Kernel)
          (b : Binding), d'.Executes handle launch body b → b.Presents index e word) := by
  refine ⟨fun words => ⟨fun hfits => ?_, fun hlong => ⟨encode_of_le hlong, byteLength_of_le hlong⟩⟩,
    fun bytes => ⟨decode_eq_error_iff, fun haligned => ?_⟩,
    fun f hwidth => ⟨Scalar.ofWord_word hwidth, Scalar.word_ofWord hwidth⟩,
    fun argument word holds => ⟨fun b index hargument => ?_, ?_⟩⟩
  · refine ⟨_, encode_of_lt hfits, ?_, decode_flatMap_bytes words⟩
    rw [length_flatMap_bytes, byteLength_of_lt hfits]
  · obtain ⟨words, hdecode, rfl⟩ := exists_of_dvd haligned
    rw [length_flatMap_bytes]
    exact ⟨words, hdecode, rfl, encode_of_lt⟩
  · refine ⟨Binding.presents_of_holds hargument holds, fun b' index' hargument' u => ?_⟩
    rw [Binding.scalar_of_holds hargument holds, Binding.scalar_of_holds hargument' (.encoded e word)]
  · intro d d' handle index hset launch body b hexecutes
    exact Binding.presents_of_holds (HostDevice.argument_of_setArgument hset hexecutes.prepared) holds

/-- A signalling NaN with a payload in its padding and a word that is padding only; a signalling NaN bound to
a kernel as an argument of its type. -/
theorem Element.roundTrips_tfloat :
    let words : List Element.tfloat.Word := [0x7f802345#32, 0x00000abc#32]
    let d := HostDevice.fresh.after [.register "k" fun _ => pure (), .createKernel "k"]
    (∃ bytes, Element.tfloat.encode words = .ok bytes ∧ Element.tfloat.byteLength 2 = .ok bytes.length ∧
        Element.tfloat.decode bytes = .ok words) ∧
      Element.tfloat.decode [1, 2, 3] = .error (.misaligned 3 4) ∧
      Scalar.ofWord .tfloat (Scalar.word 32 (⟨0xabc#32⟩ : Tfloat)) = ⟨0xabc#32⟩ ∧
      ∃ d' body b, d.setArgument ⟨1, "k"⟩ 0 (.single 0x7f800001#32) = (.ok (), d') ∧
        d'.Executes ⟨1, "k"⟩ (.line 1) body b ∧ b.Presents 0 .single 0x7f800001#32 := by
  intro words d
  obtain ⟨hlists, hbytes, hnumbers, -⟩ := Element.roundTrips .tfloat
  obtain ⟨-, -, -, hbound⟩ := Element.roundTrips .single
  have hset : d.setArgument ⟨1, "k"⟩ 0 (.single 0x7f800001#32) = (.ok (), _) := rfl
  have hexecutes := HostDevice.executes_iff.2
    (show ((d.setArgument ⟨1, "k"⟩ 0 (.single 0x7f800001#32)).2).prepare ⟨1, "k"⟩ (.line 1) = .ok _ from rfl)
  refine ⟨(hlists words).1 (by decide), (hbytes [1, 2, 3]).1.2 (by decide),
    (hnumbers .tfloat rfl).1 _, _, _, _, hset, hexecutes, ?_⟩
  exact (hbound _ _ (.single _)).2 _ _ _ _ hset _ _ _ hexecutes

end PrecisionAudit
