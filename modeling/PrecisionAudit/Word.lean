/-!
# Machine words

Arithmetic on unsigned words of a fixed width. An operation has no result if the number that it stands for does not
fit the width, or if a shift has as many places as the word or more. Nothing wraps around and nothing is cut off.

* `Word.add?`, `Word.sub?`: sum and difference.
* `Word.shiftLeft?`, `Word.shiftRight?`: product with a power of two, and quotient by one.
* `Word.resize?`: the same number in another width.

Each has a lemma that says when there is a result, and which number it holds.
-/

namespace PrecisionAudit

-- a power is that of the core library, whatever other instances are in scope
attribute [local instance (2000)] instPowNat

namespace Word

variable {width : Nat}

def add? (a b : BitVec width) : Option (BitVec width) := if a.toNat + b.toNat < 2 ^ width then some (a + b) else none

def sub? (a b : BitVec width) : Option (BitVec width) := if b.toNat ≤ a.toNat then some (a - b) else none

def shiftLeft? (a : BitVec width) (places : Nat) : Option (BitVec width) :=
  if places < width ∧ a.toNat * 2 ^ places < 2 ^ width then some (a <<< places) else none

def shiftRight? (a : BitVec width) (places : Nat) : Option (BitVec width) :=
  if places < width then some (a >>> places) else none

def resize? (target : Nat) (a : BitVec width) : Option (BitVec target) :=
  if a.toNat < 2 ^ target then some (a.setWidth target) else none

theorem exists_add?_eq {a b : BitVec width} (h : a.toNat + b.toNat < 2 ^ width) :
    ∃ c, add? a b = some c ∧ c.toNat = a.toNat + b.toNat :=
  ⟨a + b, if_pos h, BitVec.toNat_add_of_lt h⟩

theorem exists_sub?_eq {a b : BitVec width} (h : b.toNat ≤ a.toNat) :
    ∃ c, sub? a b = some c ∧ c.toNat = a.toNat - b.toNat :=
  ⟨a - b, if_pos h, BitVec.toNat_sub_of_le h⟩

theorem exists_shiftLeft?_eq {a : BitVec width} {places : Nat} (hplaces : places < width)
    (h : a.toNat * 2 ^ places < 2 ^ width) : ∃ c, shiftLeft? a places = some c ∧ c.toNat = a.toNat * 2 ^ places := by
  refine ⟨a <<< places, if_pos ⟨hplaces, h⟩, ?_⟩
  rw [BitVec.toNat_shiftLeft, Nat.shiftLeft_eq, Nat.mod_eq_of_lt h]

/-- A single bit has room at every place of a word. -/
theorem exists_shiftLeft?_one_eq {places : Nat} (h : places < width) :
    ∃ c, shiftLeft? (1 : BitVec width) places = some c ∧ c.toNat = 2 ^ places := by
  have hone : (1 : BitVec width).toNat = 1 := BitVec.toNat_one (Nat.zero_lt_of_lt h)
  have hfits : (1 : BitVec width).toNat * 2 ^ places < 2 ^ width := by
    rw [hone, Nat.one_mul]
    exact Nat.pow_lt_pow_right (by decide) h
  obtain ⟨c, hc, heq⟩ := exists_shiftLeft?_eq h hfits
  rw [hone, Nat.one_mul] at heq
  exact ⟨c, hc, heq⟩

theorem exists_shiftRight?_eq (a : BitVec width) {places : Nat} (hplaces : places < width) :
    ∃ c, shiftRight? a places = some c ∧ c.toNat = a.toNat / 2 ^ places := by
  refine ⟨a >>> places, if_pos hplaces, ?_⟩
  rw [BitVec.toNat_ushiftRight, Nat.shiftRight_eq_div_pow]

theorem exists_resize?_eq {a : BitVec width} {target : Nat} (h : a.toNat < 2 ^ target) :
    ∃ c, resize? target a = some c ∧ c.toNat = a.toNat := by
  refine ⟨a.setWidth target, if_pos h, ?_⟩
  rw [BitVec.toNat_setWidth, Nat.mod_eq_of_lt h]

end Word

end PrecisionAudit
