import Mathlib
import PrecisionAudit.Command.Response
import PrecisionAudit.Proofs.Text.Numerals

/-!
# Printed words decode back

A narrow number is printed as its stored word in hexadecimal: as the text of the number, and in the second column of
the line that a conversion prints. Decoding takes both texts, and every other spelling of the word, for the number that
was printed, and describes that number by its value and five of its properties. A word that does not fit the format is
refused, and never cut off to another one.

## Main definitions

- `Command.secondColumn`: the word in the second column of a line.
- `Command.DecodesTo`: a text is taken for a stored number.
- `Command.IsRefused`: a text is taken for none.

## Main results

- `Command.decodeLines_eq_ok_iff`: what is accepted, and what is described then.
- `Command.exists_convertLines_decodesTo`: what a conversion prints decodes to the converted numbers.
- `Command.decode_printedWords`: every spelling of a printed word decodes to it, and no larger number is accepted.
-/

namespace PrecisionAudit

variable {p : Precision} {text : String}

namespace Command

/-! ## Reading a word -/

theorem two_pow_storageWidth_le (hp : p.isCustom = true) : 2 ^ p.format.storageWidth ≤ 2 ^ 32 := by
  cases p with
  | half | bfloat | tfloat => decide
  | single | double => cases hp

theorem readHex_eq_ok_iff {n : ℕ} : readHex text = .ok n ↔ Hex.Denotes text n ∧ n < 2 ^ 32 := by
  rw [← Hex.readWord_eq_ok_iff, readHex]
  cases Hex.readWord text <;> simp

/-- Every stored word of a narrow format is read. -/
theorem readHex_of_denotes (hp : p.isCustom = true) {x : p.Value} (h : Hex.Denotes text x.toNat) :
    readHex text = .ok x.toNat :=
  readHex_eq_ok_iff.2 ⟨h, x.bits.isLt.trans_le (two_pow_storageWidth_le hp)⟩

/-- A text that denotes more than a word holds is refused when it is read, whatever the format. -/
theorem readHex_of_two_pow_le {n : ℕ} (h : Hex.Denotes text n) (hn : 2 ^ 32 ≤ n) :
    readHex text = .error (.invalidValue text Hex.ReadError.tooLarge.message) := by
  rw [readHex, Hex.readWord_of_denotes h, if_neg (not_lt.2 hn)]

theorem decodeLines_eq (text : String) (p : Precision) :
    decodeLines text p = (readHex text).bind fun n =>
      if 2 ^ p.format.storageWidth ≤ n then
        .error (.invalidValue text "does not fit the storage width")
      else
        .ok (descriptionLines p (.ofNat p.format n)) := by
  cases hread : readHex text with
  | error error => rw [decodeLines, hread]; rfl
  | ok n =>
    simp only [decodeLines, hread, bind, Except.bind]
    split <;> rfl

/-- A text is accepted if it denotes a word of the format, and then this word is described. -/
theorem decodeLines_eq_ok_iff (hp : p.isCustom = true) {lines : List String} :
    decodeLines text p = .ok lines ↔ ∃ x : p.Value, Hex.Denotes text x.toNat ∧ lines = descriptionLines p x := by
  rw [decodeLines_eq]
  constructor
  · intro h
    cases hread : readHex text with
    | error error => rw [hread] at h; cases h
    | ok n =>
      rw [hread, Except.bind] at h
      split at h
      case isTrue => cases h
      case isFalse hfits =>
        refine ⟨.ofNat p.format n, ?_, (Except.ok.inj h).symm⟩
        rw [Scalar.toNat_ofNat (not_le.1 hfits)]
        exact (readHex_eq_ok_iff.1 hread).1
  · rintro ⟨x, hx, rfl⟩
    have hfits : x.toNat < 2 ^ p.format.storageWidth := x.bits.isLt
    rw [readHex_of_denotes hp hx, Except.bind, if_neg (not_le.2 hfits), Scalar.ofNat_toNat]

/-! ## Printed words -/

/-- The second column of a line, without the spaces around it. -/
def secondColumn (line : String) : String :=
  String.ofList (((line.toList.dropWhile (· ≠ ' ')).dropWhile (· = ' ')).takeWhile (· ≠ ' '))

theorem secondColumn_eq {line : String} {name spaces word rest : List Char}
    (hline : line.toList = name ++ (spaces ++ (word ++ ' ' :: rest))) (hname : ∀ c ∈ name, c ≠ ' ')
    (hspaces : ∀ c ∈ spaces, c = ' ') (hword : ∀ c ∈ word, c ≠ ' ') (hgap : spaces ≠ []) (hne : word ≠ []) :
    secondColumn line = String.ofList word := by
  obtain ⟨space, spaces, rfl⟩ := List.exists_cons_of_ne_nil hgap
  obtain ⟨first, word, rfl⟩ := List.exists_cons_of_ne_nil hne
  have hspace := hspaces space List.mem_cons_self
  have hfirst := hword first List.mem_cons_self
  have hafter : line.toList.dropWhile (· ≠ ' ') = space :: spaces ++ (first :: word ++ ' ' :: rest) := by
    rw [hline, List.dropWhile_append_of_pos (by simpa using hname), List.cons_append,
      List.dropWhile_cons_of_neg (by simpa using hspace)]
  have hfrom : (space :: spaces ++ (first :: word ++ ' ' :: rest)).dropWhile (· = ' ') =
      first :: word ++ ' ' :: rest := by
    rw [List.dropWhile_append_of_pos (by simpa using hspaces), List.cons_append,
      List.dropWhile_cons_of_neg (by simpa using hfirst)]
  rw [secondColumn, hafter, hfrom, List.takeWhile_append_of_pos (by simpa using hword),
    List.takeWhile_cons_of_neg (by simp), List.append_nil]

/-- A narrow number is shown as a mark and a numeral of its stored word. -/
theorem toList_text (hp : p.isCustom = true) (x : p.Value) :
    ∃ cs, (p.text x).toList = '0' :: 'x' :: cs ∧ Hex.IsNumeral cs x.toNat := by
  have hdigits := (Hex.isNumeral_digitChars false x.toNat).replicate_zero_append
  refine ⟨_, ?_, hdigits (p.format.storageWidth / 4 - (Hex.digits false x.toNat).length)⟩
  rw [Precision.text, if_pos hp, Hex.word, String.toList_append, toList_padStart, Hex.toList_digits]
  rfl

/-- The line on a narrow number begins with the name of its format, and goes on with the marked digits of its word. -/
theorem toList_encodingLine (p : Precision) (x : p.Value) :
    ∃ spaces rest, (encodingLine p x).toList =
        p.name.toList ++ (spaces ++ ('0' :: 'x' :: Hex.digitChars false x.toNat ++ ' ' :: rest)) ∧
      spaces ≠ [] ∧ ∀ c ∈ spaces, c = ' ' := by
  -- the name is padded at its end and the word at its start, with one more space between them
  refine ⟨List.replicate (7 - p.name.length) ' ' ++
      ' ' :: List.replicate (12 - ("0x" ++ Hex.digits false x.toNat).length) ' ',
    ' ' :: x.widen.decimalText.toList, ?_, by simp, ?_⟩
  · simp only [encodingLine, Hex.format, String.toList_append, toList_padEnd, toList_padStart, Hex.toList_digits,
      List.append_assoc, List.cons_append]
    rfl
  · simp only [List.mem_append, List.mem_cons, List.mem_replicate]
    rintro c (⟨-, h⟩ | h | ⟨-, h⟩) <;> exact h

/-- So is the second column of the line on it. -/
theorem toList_secondColumn (p : Precision) (x : p.Value) :
    ∃ cs, (secondColumn (encodingLine p x)).toList = '0' :: 'x' :: cs ∧ Hex.IsNumeral cs x.toNat := by
  have hname : ∀ c ∈ p.name.toList, c ≠ ' ' := by cases p <;> simp [Precision.name]
  have hdigits := Hex.isNumeral_digitChars false x.toNat
  have hword : ∀ c ∈ '0' :: 'x' :: Hex.digitChars false x.toNat, c ≠ ' ' := by
    intro c hc
    simp only [List.mem_cons] at hc
    obtain rfl | rfl | hc := hc
    · decide
    · decide
    · exact hdigits.ne hc rfl
  obtain ⟨spaces, rest, hline, hgap, hspaces⟩ := toList_encodingLine p x
  refine ⟨Hex.digitChars false x.toNat, ?_, hdigits⟩
  rw [secondColumn_eq hline hname hspaces hword hgap (by simp), String.toList_ofList]

/-! ## Decoding -/

/-- The text is taken for the stored number `x`: it is read as its word, and the lines on it show the value of `x` and
which of five properties it has. -/
structure DecodesTo (p : Precision) (text : String) (x : p.Value) : Prop where
  word : readHex text = .ok x.toNat
  description : decodeLines text p = .ok
    [p.name ++ ": " ++ x.widen.decimalText,
      "  nan:      " ++ toString x.isNaN,
      "  infinite: " ++ toString x.isInfinite,
      "  denormal: " ++ toString x.isDenormal,
      "  zero:     " ++ toString x.isZero,
      "  negative: " ++ toString x.isNegative]

/-- What is said of a number that is too large, by the check of the format and by the reader. -/
def sizeReasons : List String := ["does not fit the storage width", Hex.ReadError.tooLarge.message]

/-- The text is taken for no stored number, and the error names it. -/
def IsRefused (p : Precision) (text : String) : Prop :=
  ∃ reason ∈ sizeReasons, decodeLines text p = .error (.invalidValue text reason)

theorem decodesTo_of_denotes (hp : p.isCustom = true) {x : p.Value} (h : Hex.Denotes text x.toNat) :
    DecodesTo p text x where
  word := readHex_of_denotes hp h
  description := (decodeLines_eq_ok_iff hp).2 ⟨x, h, rfl⟩

theorem isRefused_of_denotes {n : ℕ} (h : Hex.Denotes text n) (hn : 2 ^ p.format.storageWidth ≤ n) :
    IsRefused p text := by
  rw [IsRefused, decodeLines_eq]
  -- a number that a word holds reaches the check of the format, a larger one does not
  rcases lt_or_ge n (2 ^ 32) with hlt | hge
  · rw [readHex_eq_ok_iff.2 ⟨h, hlt⟩, Except.bind, if_pos hn]
    exact ⟨_, List.mem_cons_self, rfl⟩
  · rw [readHex_of_two_pow_le h hge]
    exact ⟨_, List.mem_cons_of_mem _ List.mem_cons_self, rfl⟩

/-- What a conversion prints in its second column decodes to the number of each format. -/
theorem exists_convertLines_decodesTo {formats : List Precision} (hformats : ∀ p ∈ formats, p.isCustom = true)
    (value : Single) (rounding : RoundingMode) :
    ∃ lines, convertLines value formats rounding none = .ok lines ∧
      List.Forall₂ (fun p line => DecodesTo p (secondColumn line) (.narrow p.format value rounding)) formats lines := by
  refine ⟨_, rfl, List.forall₂_map_right_iff.2 (List.forall₂_same.2 fun p hp => ?_)⟩
  obtain ⟨cs, hcolumn, hnumeral⟩ := toList_secondColumn p (.narrow p.format value rounding)
  refine decodesTo_of_denotes (hformats p hp) ⟨.lower, false, cs, ?_, hnumeral⟩
  rw [hcolumn]
  rfl

/-- Both texts in which a narrow number is printed decode to it, also without the mark, with the other mark, with more
zeros before the digits and in upper case; so does every text that denotes its word. A text that denotes a number
beyond the storage width is refused, and a text that is accepted denotes the word of the number that is described, and
no other number. -/
theorem decode_printedWords (hp : p.isCustom = true) :
    (∀ x : p.Value, ∀ printed ∈ [p.text x, secondColumn (encodingLine p x)],
      Hex.Spelling.plain.respell printed = printed ∧ ∀ s : Hex.Spelling, DecodesTo p (s.respell printed) x) ∧
    (∀ (x : p.Value) (text : String), Hex.Denotes text x.toNat → DecodesTo p text x) ∧
    (∀ (text : String) (n : ℕ), Hex.Denotes text n → 2 ^ p.format.storageWidth ≤ n → IsRefused p text) ∧
    (∀ (text : String) (lines : List String), decodeLines text p = .ok lines →
      ∃ x : p.Value, (∀ n, Hex.Denotes text n ↔ n = x.toNat) ∧ DecodesTo p text x) := by
  refine ⟨fun x printed hprinted => ?_, fun x text => decodesTo_of_denotes hp, fun text n => isRefused_of_denotes,
    fun text lines hlines => ?_⟩
  · obtain ⟨cs, hchars, hnumeral⟩ : ∃ cs, printed.toList = '0' :: 'x' :: cs ∧ Hex.IsNumeral cs x.toNat := by
      simp only [List.mem_cons, List.not_mem_nil, or_false] at hprinted
      obtain rfl | rfl := hprinted
      · exact toList_text hp x
      · exact toList_secondColumn p x
    exact ⟨Hex.Spelling.plain_respell hchars, fun s => decodesTo_of_denotes hp (s.denotes_respell hchars hnumeral)⟩
  · obtain ⟨x, hx, -⟩ := (decodeLines_eq_ok_iff hp).1 hlines
    exact ⟨x, fun n => ⟨fun hn => hn.unique hx, fun hn => hn ▸ hx⟩, decodesTo_of_denotes hp hx⟩

/-- The word of the number one in capitals and with three more zeros, and the first number that is no word. -/
theorem decode_printedWords_one :
    Precision.half.isCustom = true ∧
      readHex "0X0003C00" = .ok 0x3c00 ∧
      decodeLines "0X0003C00" .half = .ok
        ["half: 1", "  nan:      false", "  infinite: false", "  denormal: false", "  zero:     false",
          "  negative: false"] ∧
      ∃ reason, decodeLines "0x10000" .half = .error (.invalidValue "0x10000" reason) := by
  obtain ⟨hprinted, -, hrefused, -⟩ := decode_printedWords (p := .half) rfl
  have htext : "0x3c00" ∈ [Precision.half.text (.ofNat .half 0x3c00),
      secondColumn (encodingLine .half (.ofNat .half 0x3c00))] := by
    have hshown : Precision.half.text (.ofNat .half 0x3c00) = "0x3c00" := by cbv
    exact hshown ▸ List.mem_cons_self
  have hspelled : (⟨.upper, 3, true⟩ : Hex.Spelling).respell "0x3c00" = "0X0003C00" := by cbv
  have hone := (hprinted _ "0x3c00" htext).2 ⟨.upper, 3, true⟩
  rw [hspelled] at hone
  have hdigits : List.Forall₂ Hex.IsDigit ['1', '0', '0', '0', '0'] [1, 0, 0, 0, 0] := by decide
  have hlarge : Hex.Denotes "0x10000" 0x10000 := ⟨.lower, false, _, rfl, by simp, _, hdigits, by decide⟩
  obtain ⟨reason, -, hreason⟩ := hrefused "0x10000" 0x10000 hlarge le_rfl
  exact ⟨rfl, hone.word, hone.description.trans (congrArg Except.ok (by decide +kernel)), reason, hreason⟩

end Command

end PrecisionAudit
