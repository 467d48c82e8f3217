import Mathlib.Data.List.Forall2
import Mathlib.Data.Nat.Digits.Defs
import Mathlib.Tactic.IntervalCases
import PrecisionAudit.Text.Hex

/-!
# Hexadecimal numerals

What a text in base sixteen denotes does not depend on the way in which it is read: its digits are looked up in a table
and weighed by their places. A mark and a plus sign may stand before them. Reading gives the number that is denoted if
it is below the bound, and fails otherwise; the digits that are printed denote the number that they are made of.

## Main definitions

- `Hex.IsNumeral`: the characters are the digits of a number.
- `Hex.Denotes`: the text is a numeral, perhaps after a mark and a sign.
- `Hex.Spelling`: another way to write a number that is printed after the mark `0x`.

## Main results

- `Hex.readWord_of_denotes`, `Hex.readWord_eq_ok_iff`: reading a word.
- `Hex.Denotes.unique`: a text denotes one number at most.
- `Hex.isNumeral_digitChars`: the printed digits, in either case.
- `Hex.Spelling.denotes_respell`: every spelling denotes the same number.
-/

namespace PrecisionAudit

namespace Hex

variable {bound value n m : ℕ} {c : Char} {d : ℕ} {cs : List Char} {ds : List ℕ} {text : String}

/-! ## Digits -/

/-- The digits in the order of their values. -/
def digitTable (upper : Bool) : List Char :=
  (if upper then "0123456789ABCDEF" else "0123456789abcdef").toList

/-- The character is a digit of the value `d`, in one of the cases. -/
def IsDigit (c : Char) (d : ℕ) : Prop := ∃ upper, (digitTable upper)[d]? = some c

instance : Decidable (IsDigit c d) := inferInstanceAs (Decidable (∃ upper, (digitTable upper)[d]? = some c))

theorem IsDigit.lt (h : IsDigit c d) : d < 16 := by
  obtain ⟨upper, h⟩ := h
  obtain ⟨hd, -⟩ := List.getElem?_eq_some_iff.1 h
  cases upper <;> exact hd

/-- A range of code points that are digits of consecutive values. -/
theorem isDigit_of_range (first count value : ℕ)
    (hrange : ∀ i < count, IsDigit (Char.ofNat (first + i)) (value + i))
    (hlow : first ≤ c.toNat) (hhigh : c.toNat < first + count) : IsDigit c (value + (c.toNat - first)) := by
  have hdigit := hrange (c.toNat - first) (by omega)
  rwa [Nat.add_sub_cancel' hlow, Char.ofNat_toNat] at hdigit

theorem isDigit_of_digitValue?_eq_some (h : digitValue? c = some d) : IsDigit c d := by
  unfold digitValue? at h
  split at h
  case isTrue hdecimal =>
    obtain ⟨hlow, hhigh⟩ : 48 ≤ c.toNat ∧ c.toNat ≤ 57 := hdecimal
    obtain rfl : 0 + (c.toNat - 48) = d := by simpa using h
    exact isDigit_of_range 48 10 0 (by decide) hlow (by omega)
  case isFalse =>
    split at h
    case isTrue hlower =>
      obtain ⟨hlow, hhigh⟩ : 97 ≤ c.toNat ∧ c.toNat ≤ 102 := hlower
      obtain rfl : 10 + (c.toNat - 97) = d := by simp at h; omega
      exact isDigit_of_range 97 6 10 (by decide) hlow (by omega)
    case isFalse =>
      split at h
      case isTrue hupper =>
        obtain ⟨hlow, hhigh⟩ : 65 ≤ c.toNat ∧ c.toNat ≤ 70 := hupper
        obtain rfl : 10 + (c.toNat - 65) = d := by simp at h; omega
        exact isDigit_of_range 65 6 10 (by decide) hlow (by omega)
      case isFalse => cases h

/-- The value that is computed from the code point is the one in the table. -/
theorem digitValue?_eq_some_iff : digitValue? c = some d ↔ IsDigit c d := by
  refine ⟨isDigit_of_digitValue?_eq_some, fun h => ?_⟩
  have hd := h.lt
  obtain ⟨upper, h⟩ := h
  cases upper <;> interval_cases d <;> cases h <;> rfl

theorem isDigit_digitChar (upper : Bool) (hd : d < 16) : IsDigit (digitChar upper d) d := by
  cases upper <;> interval_cases d <;> decide

theorem IsDigit.toUpper (h : IsDigit c d) : IsDigit c.toUpper d := by
  have hd := h.lt
  obtain ⟨upper, h⟩ := h
  cases upper <;> interval_cases d <;> cases h <;> decide

/-- A digit is none of the characters that are no digits: a sign, a space, the letter of a mark. -/
theorem IsDigit.ne {e : Char} (h : IsDigit c d) (he : digitValue? e = none) : c ≠ e := by
  rintro rfl
  rw [digitValue?_eq_some_iff.2 h] at he
  cases he

/-! ## Numerals -/

/-- The characters are the digits of the number `n`, the most significant first. -/
def IsNumeral (cs : List Char) (n : ℕ) : Prop :=
  cs ≠ [] ∧ ∃ ds : List ℕ, List.Forall₂ IsDigit cs ds ∧ n = Nat.ofDigits 16 ds.reverse

/-- What can stand before the digits to say that they are in base sixteen. -/
inductive Mark
  | none
  | lower
  | upper
  deriving DecidableEq, Repr

def Mark.chars : Mark → List Char
  | none => []
  | lower => ['0', 'x']
  | upper => ['0', 'X']

/-- The text denotes the number `n`: it is a numeral, perhaps after a mark and a plus sign. -/
def Denotes (text : String) (n : ℕ) : Prop :=
  ∃ (mark : Mark) (plus : Bool) (cs : List Char),
    text.toList = mark.chars ++ ((if plus then ['+'] else []) ++ cs) ∧ IsNumeral cs n

/-- The number that digits make after one that has been read before them. -/
def accumulate (value : ℕ) (ds : List ℕ) : ℕ := ds.foldl (fun v d => v * 16 + d) value

theorem le_accumulate (value : ℕ) (ds : List ℕ) : value ≤ accumulate value ds := by
  induction ds generalizing value with
  | nil => exact le_rfl
  | cons d ds ih => exact le_trans (by omega) (ih (value * 16 + d))

theorem accumulate_zero (ds : List ℕ) : accumulate 0 ds = Nat.ofDigits 16 ds.reverse := by
  rw [Nat.ofDigits_eq_foldr, List.foldr_reverse, accumulate]
  simp only [Nat.cast_id, Nat.mul_comm, Nat.add_comm]

/-- Reading stops when what has been read reaches the bound, and then every number with more digits reaches it too. -/
theorem readDigits_eq_ite (h : List.Forall₂ IsDigit cs ds) (hvalue : value < bound) :
    readDigits bound value cs =
      if accumulate value ds < bound then .ok (accumulate value ds) else .error .tooLarge := by
  induction h generalizing value with
  | nil => exact (if_pos hvalue).symm
  | @cons c d cs ds hdigit _ ih =>
    rw [readDigits, digitValue?_eq_some_iff.2 hdigit]
    dsimp only
    rw [show accumulate value (d :: ds) = accumulate (value * 16 + d) ds from rfl]
    split
    -- what has been read does not shrink, whatever digits follow
    case isTrue hlarge => rw [if_neg (not_lt.2 (hlarge.trans (le_accumulate _ ds)))]
    case isFalse hsmall => exact ih (not_le.1 hsmall)

theorem exists_digits_of_readDigits_eq_ok (h : readDigits bound value cs = .ok n) :
    ∃ ds, List.Forall₂ IsDigit cs ds := by
  induction cs generalizing value with
  | nil => exact ⟨[], .nil⟩
  | cons c cs ih =>
    rw [readDigits] at h
    split at h
    case h_1 => cases h
    case h_2 d hdigit =>
      split at h
      case isTrue => cases h
      case isFalse =>
        obtain ⟨ds, hds⟩ := ih h
        exact ⟨d :: ds, .cons (digitValue?_eq_some_iff.1 hdigit) hds⟩

/-- Digits alone give the number of the numeral, if it is below the bound. -/
theorem IsNumeral.readDigits_eq (h : IsNumeral cs n) (hbound : 0 < bound) :
    readDigits bound 0 cs = if n < bound then .ok n else .error .tooLarge := by
  obtain ⟨-, ds, hds, rfl⟩ := h
  rw [readDigits_eq_ite hds hbound, accumulate_zero]

theorem isNumeral_of_readDigits_eq_ok (hne : cs ≠ []) (hbound : 0 < bound) (h : readDigits bound 0 cs = .ok n) :
    IsNumeral cs n ∧ n < bound := by
  obtain ⟨ds, hds⟩ := exists_digits_of_readDigits_eq_ok h
  have hnumeral : IsNumeral cs (Nat.ofDigits 16 ds.reverse) := ⟨hne, ds, hds, rfl⟩
  rw [hnumeral.readDigits_eq hbound] at h
  split at h
  case isTrue hlt => cases h; exact ⟨hnumeral, hlt⟩
  case isFalse => cases h

/-! ## Reading -/

/-- A numeral has digits only. -/
theorem IsNumeral.ne {e : Char} (h : IsNumeral cs n) (hc : c ∈ cs) (he : digitValue? e = none) : c ≠ e := by
  obtain ⟨-, ds, hds, -⟩ := h
  obtain ⟨i, hi, rfl⟩ := List.getElem_of_mem hc
  exact (hds.get hi (hds.length_eq ▸ hi)).ne he

theorem stripMark_append (mark : Mark) (hcs : ∀ c ∈ cs, c ≠ 'x' ∧ c ≠ 'X') : stripMark (mark.chars ++ cs) = cs := by
  cases mark with
  | none =>
    rw [Mark.chars, List.nil_append]
    unfold stripMark
    split
    case h_1 => exact absurd rfl (hcs 'x' (by simp)).1
    case h_2 => exact absurd rfl (hcs 'X' (by simp)).2
    case h_3 => rfl
  | lower | upper => rfl

/-- What is left without the mark had that mark before it. -/
theorem exists_mark_append_stripMark (cs : List Char) : ∃ mark : Mark, mark.chars ++ stripMark cs = cs := by
  unfold stripMark
  split
  case h_1 => exact ⟨.lower, rfl⟩
  case h_2 => exact ⟨.upper, rfl⟩
  case h_3 => exact ⟨.none, rfl⟩

theorem readNumber_append (plus : Bool) (h : IsNumeral cs n) :
    readNumber bound ((if plus then ['+'] else []) ++ cs) = readDigits bound 0 cs := by
  obtain ⟨c, rest, rfl⟩ := List.exists_cons_of_ne_nil h.1
  cases plus with
  | true => rfl
  | false =>
    have hsign : c ≠ '+' := h.ne List.mem_cons_self rfl
    show readNumber bound (c :: rest) = _
    unfold readNumber
    split
    case h_1 heq => cases heq
    case h_2 heq => exact absurd (List.cons.inj heq).1 hsign
    case h_3 heq => exact absurd (List.cons.inj heq).1 hsign
    case h_4 => rfl

theorem exists_sign_of_readNumber_eq_ok (h : readNumber bound cs = .ok n) :
    ∃ (plus : Bool) (rest : List Char),
      cs = (if plus then ['+'] else []) ++ rest ∧ rest ≠ [] ∧ readDigits bound 0 rest = .ok n := by
  unfold readNumber at h
  split at h
  case h_1 => cases h
  case h_2 => cases h
  case h_3 rest hne => exact ⟨true, rest, rfl, fun hnil => hne (by rw [hnil]), h⟩
  case h_4 hne _ _ => exact ⟨false, cs, rfl, hne, h⟩

/-- Every text that denotes a number is read, and gives the number if it is below the bound. -/
theorem Denotes.readNumber_eq (h : Denotes text n) (hbound : 0 < bound) :
    readNumber bound (stripMark text.toList) = if n < bound then .ok n else .error .tooLarge := by
  obtain ⟨mark, plus, cs, htext, hnumeral⟩ := h
  rw [htext, stripMark_append mark, readNumber_append plus hnumeral, hnumeral.readDigits_eq hbound]
  intro c hc
  rcases List.mem_append.1 hc with hplus | hdigit
  · cases plus <;> simp_all
  · exact ⟨hnumeral.ne hdigit rfl, hnumeral.ne hdigit rfl⟩

theorem denotes_of_readNumber_eq_ok (hbound : 0 < bound) (h : readNumber bound (stripMark text.toList) = .ok n) :
    Denotes text n ∧ n < bound := by
  obtain ⟨mark, hmark⟩ := exists_mark_append_stripMark text.toList
  obtain ⟨plus, cs, hsign, hne, hdigits⟩ := exists_sign_of_readNumber_eq_ok h
  obtain ⟨hnumeral, hlt⟩ := isNumeral_of_readDigits_eq_ok hne hbound hdigits
  exact ⟨⟨mark, plus, cs, by rw [← hsign, hmark], hnumeral⟩, hlt⟩

/-- A text denotes one number at most. -/
theorem Denotes.unique (hn : Denotes text n) (hm : Denotes text m) : n = m := by
  -- reading with a bound above both numbers gives each of them
  have hn' := hn.readNumber_eq (Nat.succ_pos (n + m))
  rw [hm.readNumber_eq (Nat.succ_pos (n + m)), if_pos (by omega), if_pos (by omega)] at hn'
  exact (Except.ok.inj hn').symm

theorem readWord_of_denotes (h : Denotes text n) :
    readWord text = if n < 2 ^ 32 then .ok n else .error .tooLarge :=
  h.readNumber_eq (Nat.two_pow_pos 32)

/-- The texts that are read as a word are those that denote it. -/
theorem readWord_eq_ok_iff : readWord text = .ok n ↔ Denotes text n ∧ n < 2 ^ 32 := by
  refine ⟨denotes_of_readNumber_eq_ok (Nat.two_pow_pos 32), fun ⟨h, hlt⟩ => ?_⟩
  rw [readWord_of_denotes h, if_pos hlt]

/-! ## Printing -/

/-- The digits that are printed are a numeral of the number, in either case. -/
theorem isNumeral_digitChars (upper : Bool) (n : ℕ) : IsNumeral (digitChars upper n) n := by
  induction n using Nat.strong_induction_on with
  | _ n ih =>
    rw [digitChars]
    split
    case isTrue hlt => exact ⟨by simp, [n], .cons (isDigit_digitChar upper hlt) .nil, by simp⟩
    case isFalse hle =>
      -- the last digit stands after a numeral of the quotient
      obtain ⟨-, ds, hds, hvalue⟩ := ih (n / 16) (by omega)
      have hlast := isDigit_digitChar upper (Nat.mod_lt n (show 0 < 16 by decide))
      refine ⟨by simp, ds ++ [n % 16], List.rel_append hds (.cons hlast .nil), ?_⟩
      rw [List.reverse_append, List.reverse_singleton, List.singleton_append, Nat.ofDigits_cons, ← hvalue,
        Nat.mod_add_div]

/-- Zeros before a numeral do not count. -/
theorem IsNumeral.replicate_zero_append (h : IsNumeral cs n) (zeros : ℕ) :
    IsNumeral (List.replicate zeros '0' ++ cs) n := by
  induction zeros with
  | zero => exact h
  | succ zeros ih =>
    obtain ⟨-, ds, hds, hvalue⟩ := ih
    refine ⟨by simp, 0 :: ds, .cons (by decide) hds, ?_⟩
    rw [List.reverse_cons, Nat.ofDigits_append, Nat.ofDigits_singleton, Nat.mul_zero, Nat.add_zero, hvalue]

/-- Neither does the case of the digits. -/
theorem IsNumeral.map_toUpper (h : IsNumeral cs n) : IsNumeral (cs.map Char.toUpper) n := by
  obtain ⟨hne, ds, hds, hvalue⟩ := h
  exact ⟨by simpa using hne, ds, List.forall₂_map_left_iff.2 (hds.imp fun _ _ => IsDigit.toUpper), hvalue⟩

/-- Another way to write a number that is printed after the mark `0x`. -/
structure Spelling where
  mark : Mark
  /-- How many zeros stand before the digits that are printed. -/
  zeros : ℕ
  /-- Whether the digits are changed to upper case. -/
  upper : Bool

namespace Spelling

/-- The spelling of the printed text itself. -/
def plain : Spelling := ⟨.lower, 0, false⟩

def respell (s : Spelling) (printed : String) : String :=
  let digits := printed.toList.drop 2
  String.ofList (s.mark.chars ++ (List.replicate s.zeros '0' ++ if s.upper then digits.map Char.toUpper else digits))

theorem plain_respell (hprinted : text.toList = '0' :: 'x' :: cs) : plain.respell text = text := by
  rw [respell, hprinted, ← String.toList_inj, hprinted, String.toList_ofList]
  rfl

/-- Every spelling of a printed number denotes it. -/
theorem denotes_respell (s : Spelling) (hprinted : text.toList = '0' :: 'x' :: cs) (h : IsNumeral cs n) :
    Denotes (s.respell text) n := by
  have hdigits : IsNumeral (if s.upper then cs.map Char.toUpper else cs) n := by
    split
    · exact h.map_toUpper
    · exact h
  refine ⟨s.mark, false, _, ?_, hdigits.replicate_zero_append s.zeros⟩
  rw [respell, hprinted, String.toList_ofList]
  rfl

end Spelling

end Hex

end PrecisionAudit
