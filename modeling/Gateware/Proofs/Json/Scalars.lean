import Gateware.Json.Printer
import Gateware.Json.Reader
import Gateware.Proofs.Number.RoundTrip

/-!
# Strings and numbers in JSON text

What is written for a string or a number is read as the string or the number, whatever text follows
it.  A number has to end there: what follows must not go on with a digit, a point or an exponent
mark (`Ends`).

Numbers beyond the range of floating point are written, but not read.  All numbers of 64 bits are
within the range (`isInRange_of_le`).
-/

namespace Gateware.Json

/-! ## Strings -/

lemma readUnits_plain {c : Char} (hquote : c ≠ '"') (hslash : c ≠ '\\') (hcontrol : 0x20 ≤ c.toNat)
    (cs : List Char) :
    readUnits (c :: cs) = (readUnits cs).map fun r => (.inl c :: r.1, r.2) := by
  rw [readUnits.eq_def]
  split
  · next h => cases h
  · next h => exact absurd (List.cons.inj h).1 hquote
  · next h => exact absurd (List.cons.inj h).1 hslash
  · next h => exact absurd (List.cons.inj h).1 hslash
  · next h =>
    cases h
    simp [hslash, Nat.not_lt.mpr hcontrol, Option.map_eq_bind]

lemma readUnits_simple {e c : Char} (he : e ≠ 'u') (hc : simpleEscape e = some c)
    (cs : List Char) :
    readUnits ('\\' :: e :: cs) = (readUnits cs).map fun r => (.inl c :: r.1, r.2) := by
  rw [readUnits.eq_def]
  simp [he, hc, Option.map_eq_bind]

lemma readUnits_hex {n : Nat} (hn : n < 0x20) (cs : List Char) :
    readUnits ('\\' :: 'u' :: (hexDigits 4 n).toList ++ cs) =
      (readUnits cs).map fun r => (.inr n :: r.1, r.2) := by
  have hdigits : ∀ n < 0x20, paddedDigits 16 4 n =
      ['0', '0', (n / 16).digitChar, (n % 16).digitChar] := by decide
  have hunit : ∀ n < 0x20, hexUnit '0' '0' (n / 16).digitChar (n % 16).digitChar = some n := by
    decide
  rw [hexDigits, String.toList_ofList, hdigits n hn]
  simp [readUnits, hunit n hn, Option.map_eq_bind]

lemma joinUnits_hex {c : Char} (hc : c.toNat < 0x20) (units : List (Char ⊕ Nat)) :
    joinUnits (.inr c.toNat :: units) = (joinUnits units).map (c :: ·) := by
  have hlow : ¬ 0xD800 ≤ c.toNat := by omega
  have hhigh : ¬ 0xDC00 ≤ c.toNat := by omega
  rw [joinUnits.eq_def]
  simp only [hlow, hhigh, decide_false, Bool.false_and, Bool.false_eq_true, if_false,
    Char.ofNat_toNat]

/-- A character that was written in a string is read as one unit, which stands for it. -/
lemma readUnits_escapeChar (c : Char) (cs : List Char) :
    ∃ unit, (readUnits ((escapeChar c).toList ++ cs) =
        (readUnits cs).map fun r => (unit :: r.1, r.2)) ∧
      ∀ units, joinUnits (unit :: units) = (joinUnits units).map (c :: ·) := by
  unfold escapeChar
  simp only [beq_iff_eq]
  split_ifs with hquote hslash hback hform hline hreturn htab hcontrol
  · exact ⟨.inl c, readUnits_simple (by decide) (by rw [hquote]; rfl) cs, fun _ => rfl⟩
  · exact ⟨.inl c, readUnits_simple (by decide) (by rw [hslash]; rfl) cs, fun _ => rfl⟩
  · exact ⟨.inl c, readUnits_simple (by decide) (by rw [hback]; rfl) cs, fun _ => rfl⟩
  · exact ⟨.inl c, readUnits_simple (by decide) (by rw [hform]; rfl) cs, fun _ => rfl⟩
  · exact ⟨.inl c, readUnits_simple (by decide) (by rw [hline]; rfl) cs, fun _ => rfl⟩
  · exact ⟨.inl c, readUnits_simple (by decide) (by rw [hreturn]; rfl) cs, fun _ => rfl⟩
  · exact ⟨.inl c, readUnits_simple (by decide) (by rw [htab]; rfl) cs, fun _ => rfl⟩
  · refine ⟨.inr c.toNat, ?_, joinUnits_hex hcontrol⟩
    rw [String.toList_append]
    exact readUnits_hex hcontrol cs
  · refine ⟨.inl c, ?_, fun _ => rfl⟩
    rw [Char.toString_eq_singleton, String.toList_singleton]
    exact readUnits_plain hquote hslash (Nat.not_lt.mp hcontrol) cs

lemma readUnits_escaped (cs rest : List Char) :
    ∃ units, readUnits (cs.flatMap (fun c => (escapeChar c).toList) ++ '"' :: rest) =
      some (units, rest) ∧ joinUnits units = some cs := by
  induction cs with
  | nil => exact ⟨[], rfl, rfl⟩
  | cons c cs ih =>
      obtain ⟨units, hread, hjoin⟩ := ih
      obtain ⟨unit, hunit, hstands⟩ :=
        readUnits_escapeChar c (cs.flatMap (fun c => (escapeChar c).toList) ++ '"' :: rest)
      refine ⟨unit :: units, ?_, ?_⟩
      · rw [List.flatMap_cons, List.append_assoc, hunit, hread]
        rfl
      · rw [hstands, hjoin]
        rfl

/-- A string after its opening quote. -/
def quoteEnd (s : String) : List Char := s.toList.flatMap (fun c => (escapeChar c).toList) ++ ['"']

lemma toList_quote (s : String) : (quote s).toList = '"' :: quoteEnd s := by
  rw [quote, String.toList_append, String.toList_append, String.toList_join, List.flatMap_map]
  rfl

lemma readString_quoteEnd (s : String) (rest : List Char) :
    readString (quoteEnd s ++ rest) = some (some s, rest) := by
  obtain ⟨units, hread, hjoin⟩ := readUnits_escaped s.toList rest
  rw [readString, quoteEnd, List.append_assoc, List.singleton_append, hread]
  simp [hjoin]

/-! ## Numbers -/

/-- The text does not go on with something that could belong to a number. -/
def Ends (rest : List Char) : Prop :=
  ∀ c ∈ rest.head?, c.isDigit = false ∧ c ≠ '.' ∧ c ≠ 'e' ∧ c ≠ 'E'

lemma toList_int (n : Int) :
    (toString n).toList = (if n < 0 then ['-'] else []) ++ Nat.toDigits 10 n.natAbs := by
  cases n with
  | ofNat m =>
      rw [if_neg (by simp)]
      exact Nat.toList_repr
  | negSucc m =>
      rw [if_pos (Int.negSucc_lt_zero m)]
      show ("-" ++ (m + 1).repr).toList = _
      rw [String.toList_append, Nat.toList_repr]
      rfl

lemma exists_digit_toDigits (n : Nat) :
    ∃ c cs, Nat.toDigits 10 n = c :: cs ∧ c.isDigit = true := by
  obtain ⟨c, cs, hcs⟩ := List.exists_cons_of_ne_nil (Nat.toDigits_ne_nil (n := n) (b := 10))
  exact ⟨c, cs, hcs, allDigits_toDigits n c (hcs ▸ List.mem_cons_self)⟩

/-- The digits of a number start with zero only if it is zero. -/
lemma exists_cons_toDigits {n : Nat} (hn : 0 < n) :
    ∃ c cs, Nat.toDigits 10 n = c :: cs ∧ c ≠ '0' := by
  induction n using Nat.strong_induction_on with
  | _ n ih =>
      rw [Nat.toDigits_eq_if (by decide)]
      split_ifs with hlt
      · have hdigit : ∀ m < 10, 0 < m → m.digitChar ≠ '0' := by decide
        exact ⟨_, _, rfl, hdigit n hlt hn⟩
      · obtain ⟨c, cs, hcs, hc⟩ := ih (n / 10) (by omega) (by omega)
        exact ⟨c, cs ++ [(n % 10).digitChar], by rw [hcs]; rfl, hc⟩

section

variable {rest : List Char}

/-- A run of characters of one kind is taken up to where it ends. -/
lemma takeWhile_run {p : Char → Bool} {cs : List Char} (hcs : ∀ c ∈ cs, p c = true)
    (hrest : ∀ c ∈ rest.head?, p c = false) :
    (cs ++ rest).takeWhile p = cs ∧ (cs ++ rest).dropWhile p = rest := by
  rw [List.takeWhile_append_of_pos hcs, List.dropWhile_append_of_pos hcs]
  cases rest with
  | nil => simp
  | cons c rest => simp [hrest c rfl]

lemma readWhole_toDigits (n : Nat) (hrest : ∀ c ∈ rest.head?, c.isDigit = false) :
    readWhole (Nat.toDigits 10 n ++ rest) = some (Nat.toDigits 10 n, rest) := by
  rcases Nat.eq_zero_or_pos n with rfl | hn
  · rfl
  · have hall := allDigits_toDigits n
    obtain ⟨c, cs, hcs, hc⟩ := exists_cons_toDigits hn
    obtain ⟨htake, hdrop⟩ := takeWhile_run hall hrest
    rw [hcs] at hall htake hdrop ⊢
    unfold readWhole
    split
    · next h => exact absurd (List.cons.inj h).1 hc
    · next h =>
        rw [← (List.cons.inj h).1, if_pos (hall c List.mem_cons_self), htake, hdrop]
    · next h => cases h

lemma readFraction_of_ne (hrest : ∀ c ∈ rest.head?, c ≠ '.') :
    readFraction rest = some (none, rest) := by
  unfold readFraction
  split
  · exact absurd rfl (hrest '.' rfl)
  · rfl

lemma readPower_of_ne (hrest : ∀ c ∈ rest.head?, c ≠ 'e' ∧ c ≠ 'E') :
    readPower rest = some (none, rest) := by
  cases rest with
  | nil => rfl
  | cons c rest =>
      obtain ⟨hsmall, hlarge⟩ := hrest c rfl
      simp [readPower, hsmall, hlarge]

lemma splitSign_int (n : Int) (rest : List Char) :
    splitSign ((toString n).toList ++ rest) =
      (decide (n < 0), Nat.toDigits 10 n.natAbs ++ rest) := by
  rw [toList_int]
  split_ifs with hneg
  · simp [splitSign, hneg]
  · obtain ⟨c, cs, hcs, hc⟩ := exists_digit_toDigits n.natAbs
    rw [hcs, List.nil_append, List.cons_append, splitSign_of_isDigit hc, decide_eq_false hneg]

lemma readPower_int (n : Int) (hrest : ∀ c ∈ rest.head?, c.isDigit = false) :
    readPower ('e' :: ((toString n).toList ++ rest)) = some (some n, rest) := by
  obtain ⟨htake, hdrop⟩ := takeWhile_run (allDigits_toDigits n.natAbs) hrest
  have hne : (Nat.toDigits 10 n.natAbs).isEmpty = false := by
    rw [List.isEmpty_eq_false_iff]
    exact Nat.toDigits_ne_nil
  have hvalue : (if n < 0 then -(n.natAbs : Int) else n.natAbs) = n := by
    split_ifs <;> omega
  rw [readPower, if_pos (by decide), splitSign_int]
  simp only [htake, hdrop, hne, digitsValue_toDigits, decide_eq_true_eq, hvalue, Bool.false_eq_true,
    if_false]

lemma readNumber_int (n : Int) (rest : List Char) :
    readNumber ((toString n).toList ++ rest) =
      readUnsigned (n < 0) (Nat.toDigits 10 n.natAbs ++ rest) := by
  rw [toList_int]
  split_ifs with hneg
  · simp [readNumber, hneg]
  · obtain ⟨c, cs, hcs, hc⟩ := exists_digit_toDigits n.natAbs
    rw [hcs, List.nil_append, List.cons_append, decide_eq_false hneg]
    unfold readNumber
    split
    · next h => exact absurd (List.cons.inj h).1 (ne_of_isDigit hc rfl)
    · rfl

/-- A whole number, with a power of ten if one follows. -/
lemma readNumber_of_power (n : Int) {power : Option Int} {after : List Char}
    (hdigit : ∀ c ∈ rest.head?, c.isDigit = false) (hpoint : ∀ c ∈ rest.head?, c ≠ '.')
    (hpower : readPower rest = some (power, after))
    (hrange : isInRange (Nat.toDigits 10 n.natAbs) [] (power.getD 0) = true) :
    readNumber ((toString n).toList ++ rest) =
      some (if power.isNone then int n else real n (power.getD 0), after) := by
  have hwhole := readWhole_toDigits n.natAbs hdigit
  have hfraction := readFraction_of_ne hpoint
  have hvalue : (if n < 0 then -(n.natAbs : Int) else n.natAbs) = n := by
    split_ifs <;> omega
  have hzero : (decide (n < 0) && n.natAbs == 0) = false := by
    rw [Bool.and_eq_false_iff, decide_eq_false_iff_not, beq_eq_false_iff_ne]
    omega
  rw [readNumber_int, readUnsigned, hwhole]
  simp only [Option.bind_eq_bind, Option.bind_some, hfraction, hpower, Option.getD_none,
    List.append_nil, digitsValue_toDigits, hrange, hzero, decide_eq_true_eq, hvalue]
  simp

/-- What is written for a whole number is read as the number. -/
lemma readNumber_whole {n : Int} (hrange : isInRange (Nat.toDigits 10 n.natAbs) [] 0 = true)
    (hrest : Ends rest) : readNumber ((toString n).toList ++ rest) = some (int n, rest) :=
  readNumber_of_power n (fun c hc => (hrest c hc).1) (fun c hc => (hrest c hc).2.1)
    (readPower_of_ne fun c hc => (hrest c hc).2.2) hrange

/-- What is written for another number is read as the number. -/
lemma readNumber_real {m e : Int} (hrange : isInRange (Nat.toDigits 10 m.natAbs) [] e = true)
    (hrest : Ends rest) :
    readNumber ((realText m e).toList ++ rest) = some (real m e, rest) := by
  have htext : (realText m e).toList ++ rest =
      (toString m).toList ++ 'e' :: ((toString e).toList ++ rest) := by
    simp [realText]
  rw [htext]
  exact readNumber_of_power m (by simp) (by simp)
    (readPower_int e fun c hc => (hrest c hc).1) hrange

end

/-! ## The range of numbers -/

lemma keepWhole_of_le {cs : List Char} : ∀ {kept : Nat}, Nat.ofDigitChars 10 cs kept ≤ maxLong →
    keepWhole kept cs = (Nat.ofDigitChars 10 cs kept, 0) := by
  induction cs with
  | nil => intro kept _; rfl
  | cons c cs ih =>
      intro kept hle
      have hnext : kept * 10 + digitsValue [c] = 10 * kept + (c.toNat - '0'.toNat) := by
        rw [mul_comm]
        simp [digitsValue, digitValue]
      rw [Nat.ofDigitChars_cons, ← hnext] at hle ⊢
      have hkept : kept * 10 + digitsValue [c] ≤ maxLong := by
        refine le_trans ?_ hle
        rw [Nat.ofDigitChars_eq_ofDigitChars_zero]
        exact le_add_right (Nat.le_mul_of_pos_left _ (Nat.pow_pos (by decide)))
      rw [keepWhole, if_pos hkept, ih hle]

lemma divNearestEven_le (n d : Nat) : divNearestEven n d ≤ n / d + 1 := by
  unfold divNearestEven
  dsimp only
  split_ifs <;> omega

/-- Rounding adds at most as much as there is. -/
lemma roundToMantissa_le {n : Nat} (hn : n ≠ 0) : roundToMantissa n ≤ 2 * n := by
  have hunit : 2 ^ (n.log2 - 52) ≤ n :=
    (Nat.pow_le_pow_right (by decide) (Nat.sub_le _ _)).trans (Nat.log2_self_le hn)
  calc roundToMantissa n
      ≤ (n / 2 ^ (n.log2 - 52) + 1) * 2 ^ (n.log2 - 52) :=
        Nat.mul_le_mul_right _ (divNearestEven_le _ _)
    _ = n / 2 ^ (n.log2 - 52) * 2 ^ (n.log2 - 52) + 2 ^ (n.log2 - 52) := by rw [add_mul, one_mul]
    _ ≤ n + n := Nat.add_le_add (Nat.div_mul_le_self _ _) hunit
    _ = 2 * n := (two_mul n).symm

/-- The numbers of 64 bits are within the range of floating point. -/
lemma isInRange_of_le {n : Nat} (hle : n ≤ maxLong) : isInRange (Nat.toDigits 10 n) [] 0 = true := by
  have hkeep : keepWhole 0 (Nat.toDigits 10 n) = (n, 0) := by
    have hvalue := digitsValue_toDigits n
    change Nat.ofDigitChars 10 (Nat.toDigits 10 n) 0 = n at hvalue
    rw [keepWhole_of_le (hvalue.trans_le hle), hvalue]
  have hone : roundToMantissa (Nat.pow 10 (0 : Int).toNat) = 1 := by decide
  have hbound : 2 * maxLong < overflowBound := by decide +kernel
  unfold isInRange
  simp only [hkeep, keepFraction, Nat.cast_zero, add_zero, sub_zero, hone, mul_one]
  rcases eq_or_ne n 0 with rfl | hn
  · rfl
  · have hround := roundToMantissa_le hn
    have hlt : roundToMantissa n < overflowBound := by omega
    simp [hlt]

end Gateware.Json
