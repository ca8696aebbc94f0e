import Gateware.Proofs.Json.Scalars
import Gateware.Proofs.Semantics.Value
import Gateware.Vhdl.Expression

/-!
# What the text of a constant stands for

There are two ways to write a constant: a number that is converted to a width, and a string with a
digit for every bit.  A `Constant` is what such a text says.  `Constant.bits` is the row of bits
that it stands for in `numeric_std`, whose conversions take a number modulo a power of two.

`Constant.read` reads the text of a constant in whatever text it stands (`Constant.read_text`), so
that a text says one thing at most.

Digits are taken from a word in one way below its width and in another from there on, where a shift
would have no bits left to bring down.  The bits that come out are those of the number at every
place (`bitAt_eq`).  So what is written for a word stands for the bits of its number in either way,
however wide the constant is (`literal_denotes`).
-/

namespace Gateware.Vhdl

open Json (stripWord takeWhile_run toList_int exists_digit_toDigits)

/-! ## Words and numbers in a text -/

/-- The characters of names and of numbers without a sign. -/
def isWordChar (c : Char) : Bool := c.isAlphanum || c == '_'

/-- The word at the start of a text, and what follows it. -/
def splitWord (cs : List Char) : String × List Char :=
  (String.ofList (cs.takeWhile isWordChar), cs.dropWhile isWordChar)

/-- A number without a sign, and what follows it. -/
def readNatural (cs : List Char) : Option (Nat × List Char) :=
  let digits := cs.takeWhile Char.isDigit
  if digits.isEmpty then none else some (digitsValue digits, cs.dropWhile Char.isDigit)

/-- A number, and what follows it. -/
def readInteger (cs : List Char) : Option (Int × List Char) :=
  match cs with
  | '-' :: cs => (readNatural cs).map fun r => (-(r.1 : Int), r.2)
  | cs => (readNatural cs).map fun r => ((r.1 : Int), r.2)

/-- What a text does not start with. -/
lemma forall_head? {p : Char → Bool} (c : Char) (h : p c = false) (cs : List Char) :
    ∀ d ∈ (c :: cs).head?, p d = false := by
  simpa using h

lemma splitWord_append {word : String} (hword : word.toList.all isWordChar = true)
    {rest : List Char} (hrest : ∀ c ∈ rest.head?, isWordChar c = false) :
    splitWord (word.toList ++ rest) = (word, rest) := by
  obtain ⟨htake, hdrop⟩ := takeWhile_run (List.all_eq_true.mp hword) hrest
  rw [splitWord, htake, hdrop, String.ofList_toList]

section

variable {rest : List Char} (hrest : ∀ c ∈ rest.head?, c.isDigit = false)

include hrest

lemma readNatural_toDigits (n : Nat) :
    readNatural (Nat.toDigits 10 n ++ rest) = some (n, rest) := by
  obtain ⟨htake, hdrop⟩ := takeWhile_run (allDigits_toDigits n) hrest
  have hne : (Nat.toDigits 10 n).isEmpty = false := by
    rw [List.isEmpty_eq_false_iff]
    exact Nat.toDigits_ne_nil
  simp [readNatural, htake, hdrop, hne, digitsValue_toDigits]

lemma readNatural_nat (n : Nat) : readNatural ((toString n).toList ++ rest) = some (n, rest) := by
  rw [toList_nat, readNatural_toDigits hrest n]

lemma readInteger_int (n : Int) : readInteger ((toString n).toList ++ rest) = some (n, rest) := by
  have hread := readNatural_toDigits hrest n.natAbs
  rw [toList_int]
  split_ifs with hneg
  · have hvalue : -(n.natAbs : Int) = n := by omega
    simp only [readInteger, List.cons_append, List.nil_append, hread, Option.map_some, hvalue]
  · have hvalue : (n.natAbs : Int) = n := by omega
    obtain ⟨c, cs, hcs, hc⟩ := exists_digit_toDigits n.natAbs
    rw [hcs] at hread ⊢
    unfold readInteger
    split
    · next h => exact absurd (List.cons.inj h).1 (ne_of_isDigit hc rfl)
    · rw [List.nil_append, hread, Option.map_some, hvalue]

end

/-! ## Constants -/

/-- A constant as it is written. -/
inductive Constant where
  /-- A number that is converted to a width. -/
  | converted (signed : Bool) (n : Int) (width : Nat)
  /-- A digit for every bit, the highest bit first. -/
  | spelled (signed : Bool) (digits : List Char)
deriving DecidableEq

namespace Constant

/-- The text of a constant. -/
def text : Constant → String
  | converted signed n width =>
    "to_" ++ vectorName signed ++ "(" ++ toString n ++ ", " ++ toString width ++ ")"
  | spelled signed digits => vectorName signed ++ "'(\"" ++ String.ofList digits ++ "\")"

/-- The bits that a constant stands for. -/
def bits : Constant → Bits
  | converted signed n width => ⟨⟨width, signed⟩, .ofInt width n⟩
  | spelled signed digits =>
    ⟨⟨digits.length, signed⟩, .ofNat digits.length (Nat.ofDigitChars 2 digits 0)⟩

/-- What every tool accepts: a number that an integer of 32 bits can hold, its lowest one apart, and
that is not negative if it is converted to a vector without a sign; or a string of zeros and
ones. -/
def Legal : Constant → Prop
  | converted signed n _ => (-(2 ^ 31 - 1) ≤ n ∧ n ≤ 2 ^ 31 - 1) ∧ (signed = false → 0 ≤ n)
  | spelled _ digits => ∀ c ∈ digits, c = '0' ∨ c = '1'

/-- Whether a character stands for a bit. -/
def isBit (c : Char) : Bool := c == '0' || c == '1'

/-- The signedness for which a word is the name. -/
def signednessOf (name : Bool → String) (word : String) : Option Bool :=
  [true, false].find? fun signed => name signed == word

/-- A conversion after its opening parenthesis, and what follows it. -/
def readConverted (signed : Bool) (cs : List Char) : Option (Constant × List Char) := do
  let number ← readInteger cs
  let cs ← stripWord [',', ' '] number.2
  let width ← readNatural cs
  let cs ← stripWord [')'] width.2
  some (converted signed number.1 width.1, cs)

/-- A string of bits after the tick in front of it, and what follows it. -/
def readSpelled (signed : Bool) (cs : List Char) : Option (Constant × List Char) := do
  let cs ← stripWord ['(', '"'] cs
  let after ← stripWord ['"', ')'] (cs.dropWhile isBit)
  some (spelled signed (cs.takeWhile isBit), after)

/-- A constant, and what follows it. -/
def read (cs : List Char) : Option (Constant × List Char) :=
  match (splitWord cs).2 with
  | '(' :: after => (signednessOf (fun signed => "to_" ++ vectorName signed) (splitWord cs).1).bind
      fun signed => readConverted signed after
  | '\'' :: after => (signednessOf vectorName (splitWord cs).1).bind
      fun signed => readSpelled signed after
  | _ => none

section

variable (signed : Bool) (rest : List Char)

lemma readConverted_text (n : Int) (width : Nat) :
    readConverted signed
        ((toString n).toList ++ ',' :: ' ' :: ((toString width).toList ++ ')' :: rest)) =
      some (converted signed n width, rest) := by
  rw [readConverted, readInteger_int (forall_head? ',' rfl _) n]
  simp only [Option.bind_eq_bind, Option.bind_some, stripWord, beq_self_eq_true, if_true,
    readNatural_nat (forall_head? ')' rfl rest) width]

lemma readSpelled_text {digits : List Char} (h : ∀ c ∈ digits, c = '0' ∨ c = '1') :
    readSpelled signed ('(' :: '"' :: (digits ++ '"' :: ')' :: rest)) =
      some (spelled signed digits, rest) := by
  have hbits : ∀ c ∈ digits, isBit c = true := by simpa [isBit] using h
  obtain ⟨htake, hdrop⟩ := takeWhile_run hbits (forall_head? '"' rfl (')' :: rest))
  simp [readSpelled, stripWord, htake, hdrop]

end

/-- A constant is read wherever its text stands. -/
theorem read_text {c : Constant} (h : c.Legal) (rest : List Char) :
    read (c.text.toList ++ rest) = some (c, rest) := by
  cases c with
  | converted signed n width =>
      have htext : (converted signed n width).text.toList ++ rest =
          ("to_" ++ vectorName signed).toList ++ '(' :: ((toString n).toList ++
            ',' :: ' ' :: ((toString width).toList ++ ')' :: rest)) := by
        simp [text]
      have hword : ("to_" ++ vectorName signed).toList.all isWordChar = true := by
        cases signed <;> decide
      have hname : signednessOf (fun signed => "to_" ++ vectorName signed)
          ("to_" ++ vectorName signed) = some signed := by
        cases signed <;> decide
      rw [htext, read, splitWord_append hword (forall_head? '(' rfl _)]
      simp only [hname, Option.bind_some, readConverted_text]
  | spelled signed digits =>
      have htext : (spelled signed digits).text.toList ++ rest =
          (vectorName signed).toList ++ '\'' :: '(' :: '"' :: (digits ++ '"' :: ')' :: rest) := by
        simp [text]
      have hword : (vectorName signed).toList.all isWordChar = true := by
        cases signed <;> decide
      have hname : signednessOf vectorName (vectorName signed) = some signed := by
        cases signed <;> decide
      rw [htext, read, splitWord_append hword (forall_head? '\'' rfl _)]
      simp only [hname, Option.bind_some, readSpelled_text signed rest h]

lemma bits_spelled {signed : Bool} {digits : List Char} {width : Nat}
    (h : digits.length = width) :
    (spelled signed digits).bits =
      ⟨⟨width, signed⟩, .ofNat width (Nat.ofDigitChars 2 digits 0)⟩ := by
  subst h
  rfl

end Constant

/-! ## Strings of bits -/

/-- The numbers that words hold. -/
def FitsWord (value : Int) : Prop := -2 ^ (wordBits - 1) ≤ value ∧ value < 2 ^ (wordBits - 1)

instance (value : Int) : Decidable (FitsWord value) := inferInstanceAs (Decidable (_ ∧ _))

/-- Nothing but the sign is left of a word once all its bits have been shifted out. -/
lemma FitsWord.ediv_two_pow {value : Int} (h : FitsWord value) {i : Nat} (hi : wordBits ≤ i) :
    value / 2 ^ i = if value < 0 then -1 else 0 := by
  have hpow : (2 : Int) ^ (wordBits - 1) ≤ 2 ^ i := pow_le_pow_right₀ (by decide) (by omega)
  obtain ⟨hlow, hhigh⟩ := h
  split_ifs with hneg
  · exact Int.ediv_eq_neg_one_of_neg_of_le hneg (by omega)
  · exact Int.ediv_eq_zero_of_lt (by omega) (by omega)

/-- The bits of a word are those of its number, below its width and beyond. -/
lemma bitAt_eq {value : Int} (h : FitsWord value) (i : Nat) :
    bitAt value i = (value / 2 ^ i % 2 == 1) := by
  unfold bitAt
  split_ifs with hi
  · have hshift : Int.shiftRight value i = value / 2 ^ i := by
      have h := Int.shiftRight_eq_div_pow value i
      push_cast at h
      exact h
    rw [hshift]
  · rw [h.ediv_two_pow (not_lt.mp hi)]
    split_ifs with hneg
    · simp [hneg]
    · simp [hneg]

/-- The digit of one bit of a number. -/
def bitDigit (value : Int) (i : Nat) : Char := if bitAt value i then '1' else '0'

lemma toList_bitText_succ (value : Int) (n : Nat) :
    (bitText value (n + 1)).toList = bitDigit value n :: (bitText value n).toList := by
  simp [bitText, List.range_succ, bitDigit]

lemma length_bitText (value : Int) (width : Nat) : (bitText value width).toList.length = width := by
  simp [bitText]

lemma mem_bitText {value : Int} {width : Nat} {c : Char} (h : c ∈ (bitText value width).toList) :
    c = '0' ∨ c = '1' := by
  rw [bitText, String.toList_ofList] at h
  obtain ⟨i, -, rfl⟩ := List.mem_map.mp h
  split_ifs
  · exact .inr rfl
  · exact .inl rfl

/-- The next bit of a number adds its weight. -/
lemma emod_two_pow_succ (value : Int) (n : Nat) :
    value % 2 ^ (n + 1) = 2 ^ n * (value / 2 ^ n % 2) + value % 2 ^ n := by
  have hpow : (2 : Int) ^ (n + 1) = 2 * 2 ^ n := by rw [pow_succ, mul_comm]
  have hpos : (0 : Int) < 2 ^ n := pow_pos two_pos n
  have hlow := Int.emod_nonneg value hpos.ne'
  have hhigh := Int.emod_lt_of_pos value hpos
  have hsplit : value =
      2 ^ n * (value / 2 ^ n % 2) + value % 2 ^ n + 2 ^ (n + 1) * (value / 2 ^ n / 2) := by
    have hvalue := Int.mul_ediv_add_emod value (2 ^ n)
    have hquotient := Int.mul_ediv_add_emod (value / 2 ^ n) 2
    rw [hpow]
    linear_combination -hvalue - 2 ^ n * hquotient
  conv_lhs => rw [hsplit]
  rw [Int.add_mul_emod_self_left]
  rcases Int.emod_two_eq (value / 2 ^ n) with hbit | hbit
  · rw [hbit]
    exact Int.emod_eq_of_lt (by omega) (by omega)
  · rw [hbit]
    exact Int.emod_eq_of_lt (by omega) (by omega)

lemma bitDigit_value {value : Int} (h : FitsWord value) (n : Nat) :
    (((bitDigit value n).toNat - '0'.toNat : Nat) : Int) = value / 2 ^ n % 2 := by
  rw [bitDigit, bitAt_eq h]
  rcases Int.emod_two_eq (value / 2 ^ n) with hbit | hbit
  · rw [hbit]
    rfl
  · rw [hbit]
    rfl

/-- The lowest bits of a word, read from the highest, are its number modulo a power of two. -/
lemma ofDigitChars_bitText {value : Int} (h : FitsWord value) (width : Nat) :
    (Nat.ofDigitChars 2 (bitText value width).toList 0 : Int) = value % 2 ^ width := by
  -- what was read before has moved up by one place for every further digit
  have hgeneral : ∀ before : Nat,
      (Nat.ofDigitChars 2 (bitText value width).toList before : Int) =
        2 ^ width * before + value % 2 ^ width := by
    induction width with
    | zero =>
        intro before
        simp [bitText]
    | succ n ih =>
        intro before
        rw [toList_bitText_succ, Nat.ofDigitChars_cons, ih, emod_two_pow_succ]
        push_cast
        rw [← bitDigit_value h]
        push_cast
        ring
  simpa using hgeneral 0

lemma bits_bitText {value : Int} (h : FitsWord value) (width : Nat) :
    BitVec.ofNat width (Nat.ofDigitChars 2 (bitText value width).toList 0) =
      BitVec.ofInt width value := by
  have hvalue : (Nat.ofDigitChars 2 (bitText value width).toList 0 : Int) =
      value % (2 ^ width : Nat) := by
    push_cast
    exact ofDigitChars_bitText h width
  apply BitVec.eq_of_toInt_eq
  rw [← BitVec.ofInt_natCast, hvalue, BitVec.toInt_ofInt, BitVec.toInt_ofInt, Int.emod_bmod]

/-! ## The text of a number -/

lemma fitsInteger_iff {value : Int} {signed : Bool} : fitsInteger value signed = true ↔
    (-(2 ^ 31 - 1) ≤ value ∧ value ≤ 2 ^ 31 - 1) ∧ (signed = false → 0 ≤ value) := by
  have hmax : integerMax = 2 ^ 31 - 1 := rfl
  rw [fitsInteger, hmax, Bool.and_eq_true, decide_eq_true_eq, Bool.or_eq_true, decide_eq_true_eq]
  refine and_congr (by omega) ?_
  cases signed <;> simp

/-- What is written for a number. -/
def constantOf (value : Int) (width : Nat) (signed : Bool) : Constant :=
  if fitsInteger value signed then .converted signed value width
  else .spelled signed (bitText value width).toList

lemma constantOf_text (value : Int) (width : Nat) (signed : Bool) :
    (constantOf value width signed).text = literal value width signed := by
  unfold constantOf literal
  split_ifs
  · rfl
  · simp [Constant.text]

lemma constantOf_legal (value : Int) (width : Nat) (signed : Bool) :
    (constantOf value width signed).Legal := by
  unfold constantOf
  split_ifs with hfits
  · exact fitsInteger_iff.mp hfits
  · exact fun c hc => mem_bitText hc

lemma constantOf_bits {value : Int} (h : FitsWord value) (width : Nat) (signed : Bool) :
    (constantOf value width signed).bits = ⟨⟨width, signed⟩, .ofInt width value⟩ := by
  unfold constantOf
  split_ifs
  · rfl
  · rw [Constant.bits_spelled (length_bitText value width), bits_bitText h]

/-- **Both spellings of a number denote the same bits.**  The text of a constant says one thing
only, and it stands for the number modulo a power of two.  Either it converts the number itself,
which an integer holds on every tool, or it has a digit for every bit of the width, be that less
than the width of a word or more. -/
theorem literal_denotes {value : Int} (h : FitsWord value) (width : Nat) (signed : Bool) :
    ∃ constant : Constant,
      (∀ c : Constant, c.Legal ∧ c.text = literal value width signed ↔ c = constant) ∧
      constant.bits = ⟨⟨width, signed⟩, .ofInt width value⟩ ∧
      (constant = .converted signed value width ∧
          (-(2 ^ 31 - 1) ≤ value ∧ value ≤ 2 ^ 31 - 1) ∧ (signed = false → 0 ≤ value) ∨
        ∃ digits, constant = .spelled signed digits ∧ digits.length = width ∧
          (∀ c ∈ digits, c = '0' ∨ c = '1') ∧
          (Nat.ofDigitChars 2 digits 0 : Int) = value % 2 ^ width) := by
  refine ⟨constantOf value width signed, fun c => ⟨?_, ?_⟩, constantOf_bits h width signed, ?_⟩
  · rintro ⟨hlegal, htext⟩
    have hread := Constant.read_text hlegal []
    rw [htext, ← constantOf_text, Constant.read_text (constantOf_legal value width signed)] at hread
    exact ((Prod.mk.inj (Option.some.inj hread)).1).symm
  · rintro rfl
    exact ⟨constantOf_legal value width signed, constantOf_text value width signed⟩
  · unfold constantOf
    split_ifs with hfits
    · exact .inl ⟨rfl, fitsInteger_iff.mp hfits⟩
    · exact .inr ⟨_, rfl, length_bitText value width, fun c hc => mem_bitText hc,
        ofDigitChars_bitText h width⟩

/-- The lowest word of all, in a constant that is wider than words are: its sign is there twice
beyond its own width. -/
theorem literal_denotes_lowest :
    FitsWord (-2 ^ 127) ∧
      literal (-2 ^ 127) 130 false =
        "unsigned'(\"111" ++ String.ofList (List.replicate 127 '0') ++ "\")" ∧
      ∃ constant : Constant, constant.text = literal (-2 ^ 127) 130 false ∧
        constant.bits = ⟨⟨130, false⟩, .ofInt 130 (-2 ^ 127)⟩ := by
  have hword : FitsWord (-2 ^ 127) := by decide
  obtain ⟨constant, hunique, hbits, -⟩ := literal_denotes hword 130 false
  exact ⟨hword, by decide +kernel, constant, ((hunique constant).mpr rfl).2, hbits⟩

end Gateware.Vhdl
