import Gateware.Number.Decimal
import Gateware.Proofs.Number.Reading
import Gateware.Proofs.Number.Shortest

/-!
# The text of a number is read as the number

A decimal in positional notation is read as the decimal (`readScientific_pointed`), and the
shortest decimal of a floating-point number is rounded to the number, so that reading undoes writing
for all numbers that are finite (`readFloat_plainText`).  Both zeros come back with their sign.
-/

namespace Gateware

open Float.Model Float.Model.UnpackedFloat

/-! ## Strings of digits -/

/-- All characters are decimal digits. -/
def AllDigits (cs : List Char) : Prop := ∀ c ∈ cs, c.isDigit = true

lemma AllDigits.append {cs ds : List Char} (hc : AllDigits cs) (hd : AllDigits ds) :
    AllDigits (cs ++ ds) := by
  intro c hmem
  rcases List.mem_append.mp hmem with h | h
  · exact hc c h
  · exact hd c h

lemma allDigits_toDigits (n : ℕ) : AllDigits (Nat.toDigits 10 n) := by
  intro c hmem
  exact Nat.isDigit_of_mem_toDigits (by norm_num) (by norm_num) hmem

lemma toList_nat (n : ℕ) : (toString n).toList = Nat.toDigits 10 n := Nat.toList_repr

lemma allDigits_zeros (n : ℕ) : AllDigits (List.replicate n '0') := by
  intro c hmem
  rw [List.eq_of_mem_replicate hmem]
  rfl

lemma digitsValue_append (cs ds : List Char) :
    digitsValue (cs ++ ds) = digitsValue cs * 10 ^ ds.length + digitsValue ds := by
  show Nat.ofDigitChars 10 (cs ++ ds) 0 = _
  rw [Nat.ofDigitChars_append, Nat.ofDigitChars_eq_ofDigitChars_zero, mul_comm]
  rfl

lemma digitsValue_toDigits (n : ℕ) : digitsValue (Nat.toDigits 10 n) = n :=
  Nat.ofDigitChars_toDigits (by norm_num) (by norm_num)

lemma digitsValue_zeros (n : ℕ) : digitsValue (List.replicate n '0') = 0 := by
  show Nat.ofDigitChars 10 _ 0 = 0
  rw [Nat.ofDigitChars_replicate_zero, mul_zero]

lemma allDigits_padded (width n : ℕ) : AllDigits (paddedDigits 10 width n) :=
  (allDigits_zeros _).append (allDigits_toDigits n)

lemma digitsValue_padded (width n : ℕ) : digitsValue (paddedDigits 10 width n) = n := by
  rw [paddedDigits, digitsValue_append, digitsValue_zeros, zero_mul, zero_add, digitsValue_toDigits]

lemma length_padded {width n : ℕ} (hwidth : 0 < width) (hn : n < 10 ^ width) :
    (paddedDigits 10 width n).length = width := by
  have hle := (Nat.length_toDigits_le_iff (by norm_num) hwidth).mpr hn
  rw [paddedDigits, List.length_append, List.length_replicate]
  omega

lemma exists_zeros_at_end (cs : List Char) :
    ∃ j, cs = (cs.reverse.dropWhile (· == '0')).reverse ++ List.replicate j '0' := by
  have hsplit : cs.rdropWhile (· == '0') ++ cs.rtakeWhile (· == '0') = cs :=
    List.rdropWhile_append_rtakeWhile
  have hzeros : ∀ c ∈ cs.rtakeWhile (· == '0'), c = '0' := fun c hmem => by
    simpa using List.mem_rtakeWhile_imp hmem
  rw [List.eq_replicate_of_mem hzeros] at hsplit
  exact ⟨_, hsplit.symm⟩

/-! ## Positional notation -/

/-- Whole part and fraction with a point between them, or the whole part alone. -/
def pointed (whole fraction : List Char) : List Char :=
  if fraction.isEmpty then whole else whole ++ '.' :: fraction

/-- The digits before and after the point are those of a decimal. -/
structure Decimal.Digits (x : Decimal) (whole fraction : List Char) : Prop where
  nonempty : whole ≠ []
  allWhole : AllDigits whole
  allFraction : AllDigits fraction
  value : (digitsValue (whole ++ fraction) : ℚ) / 10 ^ fraction.length = x.value

namespace Decimal

lemma digits_whole {x : Decimal} (hplaces : x.places ≤ 0) :
    x.Digits (Nat.toDigits 10 x.digits ++ List.replicate (-x.places).toNat '0') [] := by
  have hback : -((-x.places).toNat : ℤ) = x.places := by omega
  refine ⟨?_, (allDigits_toDigits _).append (allDigits_zeros _), List.forall_mem_nil _, ?_⟩
  · intro hnil
    exact Nat.toDigits_ne_nil (List.append_eq_nil_iff.mp hnil).1
  · rw [List.append_nil, digitsValue_append, digitsValue_zeros, digitsValue_toDigits,
      List.length_replicate, Decimal.value]
    conv_rhs => rw [← hback, zpow_neg, zpow_natCast, div_inv_eq_mul]
    simp

lemma digits_fraction {x : Decimal} {p : ℕ} (hpos : 0 < p) (hplaces : x.places = p) :
    x.Digits (Nat.toDigits 10 (x.digits / 10 ^ p))
      ((paddedDigits 10 p (x.digits % 10 ^ p)).reverse.dropWhile (· == '0')).reverse := by
  have hrest : x.digits % 10 ^ p < 10 ^ p := Nat.mod_lt _ (Nat.pow_pos (by norm_num))
  have hlength := length_padded hpos hrest
  have hvalue := digitsValue_padded p (x.digits % 10 ^ p)
  have hdigits := allDigits_padded p (x.digits % 10 ^ p)
  obtain ⟨j, hj⟩ := exists_zeros_at_end (paddedDigits 10 p (x.digits % 10 ^ p))
  generalize ((paddedDigits 10 p (x.digits % 10 ^ p)).reverse.dropWhile (· == '0')).reverse =
    fraction at hj ⊢
  rw [hj] at hlength hvalue hdigits
  rw [List.length_append, List.length_replicate] at hlength
  refine ⟨Nat.toDigits_ne_nil, allDigits_toDigits _, ?_, ?_⟩
  · intro c hmem
    exact hdigits c (List.mem_append_left _ hmem)
  · -- With the zeros that were dropped from the end the digits are those of the decimal again.
    have hall : digitsValue (Nat.toDigits 10 (x.digits / 10 ^ p) ++ fraction) * 10 ^ j =
        x.digits := by
      have hzeros := digitsValue_append (Nat.toDigits 10 (x.digits / 10 ^ p) ++ fraction)
        (List.replicate j '0')
      rw [digitsValue_zeros, List.length_replicate, add_zero, List.append_assoc, digitsValue_append,
        digitsValue_toDigits, hvalue, List.length_append, List.length_replicate, hlength,
        Nat.div_add_mod'] at hzeros
      exact hzeros.symm
    have hscale : (10 : ℚ) ^ x.places = 10 ^ fraction.length * 10 ^ j := by
      rw [hplaces, zpow_natCast, ← pow_add, hlength]
    have hvalue' : (x.digits : ℚ) =
        (digitsValue (Nat.toDigits 10 (x.digits / 10 ^ p) ++ fraction) : ℚ) * 10 ^ j := by
      exact_mod_cast hall.symm
    rw [Decimal.value, hscale, hvalue', mul_div_mul_right _ _ (by positivity)]

lemma exists_digits (x : Decimal) :
    ∃ whole fraction, x.Digits whole fraction ∧ x.positional .message = pointed whole fraction := by
  unfold positional
  by_cases hplaces : x.places ≤ 0
  · rw [if_pos hplaces]
    split_ifs with hzero
    · refine ⟨['0'], [], ⟨List.cons_ne_nil _ _, allDigits_zeros 1, List.forall_mem_nil _, ?_⟩, rfl⟩
      rw [beq_iff_eq] at hzero
      rw [Decimal.value, hzero]
      simp [digitsValue, digitValue]
    · exact ⟨_, [], digits_whole hplaces, rfl⟩
  · have hplace : x.places = x.places.toNat := by omega
    refine ⟨_, _, digits_fraction (by omega) hplace, ?_⟩
    rw [if_neg hplaces]
    simp only [pointed, List.isEmpty_reverse]
    rfl

end Decimal

/-! ## Reading -/

section

variable {whole fraction : List Char}

lemma AllDigits.takeWhile {cs : List Char} (h : AllDigits cs) : cs.takeWhile Char.isDigit = cs :=
  List.takeWhile_eq_self_iff.mpr h

lemma AllDigits.dropWhile {cs : List Char} (h : AllDigits cs) : cs.dropWhile Char.isDigit = [] :=
  List.dropWhile_eq_nil_iff.mpr h

lemma readScientific_pointed (hne : whole ≠ []) (hwhole : AllDigits whole)
    (hfraction : AllDigits fraction) :
    readScientific (pointed whole fraction) =
      some ⟨digitsValue (whole ++ fraction), -fraction.length⟩ := by
  unfold pointed
  split_ifs with hempty
  · rw [List.isEmpty_iff] at hempty
    simp [readScientific, hempty, hwhole.takeWhile, hwhole.dropWhile, hne, readExponent]
  · have htake : (whole ++ '.' :: fraction).takeWhile Char.isDigit = whole := by
      rw [List.takeWhile_append_of_pos hwhole, List.takeWhile_cons_of_neg (by decide),
        List.append_nil]
    have hdrop : (whole ++ '.' :: fraction).dropWhile Char.isDigit = '.' :: fraction := by
      rw [List.dropWhile_append_of_pos hwhole, List.dropWhile_cons_of_neg (by decide)]
    simp [readScientific, htake, hdrop, hfraction.takeWhile, hfraction.dropWhile, hne, readExponent]

lemma exists_cons_pointed (hne : whole ≠ []) (hwhole : AllDigits whole) (fraction : List Char) :
    ∃ c cs, c.isDigit = true ∧ pointed whole fraction = c :: cs := by
  obtain ⟨c, cs, rfl⟩ := List.exists_cons_of_ne_nil hne
  have hc := hwhole c List.mem_cons_self
  unfold pointed
  split_ifs
  · exact ⟨c, cs, hc, rfl⟩
  · exact ⟨c, _, hc, rfl⟩

lemma mem_pointed (hwhole : AllDigits whole) (hfraction : AllDigits fraction) {c : Char}
    (hmem : c ∈ pointed whole fraction) : c.isDigit = true ∨ c = '.' := by
  unfold pointed at hmem
  split_ifs at hmem
  · exact .inl (hwhole c hmem)
  · rcases List.mem_append.mp hmem with h | h
    · exact .inl (hwhole c h)
    · rcases List.mem_cons.mp h with h | h
      · exact .inr h
      · exact .inl (hfraction c h)

end

section

variable {c : Char}

lemma ne_of_isDigit (hc : c.isDigit = true) {d : Char} (hd : d.isDigit = false) : c ≠ d := by
  intro heq
  rw [heq, hd] at hc
  cases hc

lemma toLower_of_isDigit (hc : c.isDigit = true) : c.toLower = c := by
  simp only [Char.isDigit, Bool.and_eq_true, decide_eq_true_eq] at hc
  rw [Char.toLower, dif_neg]
  rintro ⟨hletter, -⟩
  exact absurd (UInt32.le_trans hletter hc.2) (by decide)

lemma splitSign_of_isDigit (hc : c.isDigit = true) (cs : List Char) :
    splitSign (c :: cs) = (false, c :: cs) := by
  unfold splitSign
  split
  · next heq => exact absurd (List.cons.inj heq).1 (ne_of_isDigit hc rfl)
  · next heq => exact absurd (List.cons.inj heq).1 (ne_of_isDigit hc rfl)
  · rfl

/-- The words for numbers that are not finite do not start with a digit. -/
lemma readMagnitude_of_isDigit (hc : c.isDigit = true) (cs : List Char) :
    readMagnitude (c :: cs) = (readScientific (c :: cs)).map Scientific.toFloat := by
  have hword : ∀ (d : Char) (ds : List Char), d.isDigit = false →
      (String.ofList ((c :: cs).map Char.toLower) == String.ofList (d :: ds)) = false := by
    intro d ds hd
    rw [beq_eq_false_iff_ne, Ne, String.ofList_inj, List.map_cons, toLower_of_isDigit hc]
    intro heq
    exact ne_of_isDigit hc hd (List.cons.inj heq).1
  have hinf := hword 'i' ['n', 'f'] rfl
  have hinfinity := hword 'i' ['n', 'f', 'i', 'n', 'i', 't', 'y'] rfl
  have hnan := hword 'n' ['a', 'n'] rfl
  unfold readMagnitude
  dsimp only
  rw [show "inf" = String.ofList ['i', 'n', 'f'] from rfl,
    show "infinity" = String.ofList ['i', 'n', 'f', 'i', 'n', 'i', 't', 'y'] from rfl,
    show "nan" = String.ofList ['n', 'a', 'n'] from rfl, hinf, hinfinity, hnan]
  rfl

lemma readFloat_of_isDigit (hc : c.isDigit = true) (cs : List Char) (negative : Bool) :
    readFloat (DecimalFormat.message.signed negative (String.ofList (c :: cs))).toList =
      (readScientific (c :: cs)).map fun x => if negative then -x.toFloat else x.toFloat := by
  have hmagnitude := readMagnitude_of_isDigit hc cs
  cases negative with
  | false =>
      have htext : (DecimalFormat.message.signed false (String.ofList (c :: cs))).toList =
          c :: cs := String.toList_ofList
      rw [htext, readFloat, splitSign_of_isDigit hc]
      simp [hmagnitude, Option.map_map, Function.comp_def]
  | true =>
      have htext : (DecimalFormat.message.signed true (String.ofList (c :: cs))).toList =
          '-' :: c :: cs := by
        show ("-" ++ String.ofList (c :: cs)).toList = _
        rw [String.toList_append, String.toList_ofList (l := c :: cs)]
        rfl
      have hsign : splitSign ('-' :: c :: cs) = (true, c :: cs) := rfl
      rw [htext, readFloat, hsign]
      simp [hmagnitude, Option.map_map, Function.comp_def]

end

/-! ## Signs -/

section

variable {s : Sign} {m : ℕ} {e : ℤ} {hm : 0 < m} {x : Float}

lemma zero_of_unpack (hx : x.toModel.unpack = .zero s) :
    (if Exact.isNegative s then -(0.0 : Float) else 0.0) = x := by
  rw [← ofModel_pack hx]
  cases s with
  | positive => rfl
  | negative => rfl

/-- A number has the sign that its magnitude is given. -/
lemma signed_of_unpack (hx : x.toModel.unpack = .finite s m e hm) :
    ∃ y : Float, y.toModel.unpack = .finite .positive m e hm ∧
      (if Exact.isNegative s then -y else y) = x := by
  obtain ⟨hcanonical, hmost⟩ := canonical_of_unpack hx
  have hmagnitude : (Float.Model.pack (.finite .positive m e hm)).unpack =
      .finite .positive m e hm := unpack_pack hcanonical hmost
  cases s with
  | positive => exact ⟨x, hx, rfl⟩
  | negative =>
      refine ⟨Float.ofModel (Float.Model.pack (.finite .positive m e hm)), hmagnitude, ?_⟩
      rw [← ofModel_pack hx]
      show Float.ofModel (Float.Model.pack (Float.Model.unpack _).neg) = _
      rw [hmagnitude]
      rfl

end

/-! ## The round trip -/

lemma shortest_digits {m : ℕ} {e : ℤ} (hcanonical : Canonical m e) {whole fraction : List Char}
    (hdigits : (Span.ofFinite m e).shortest.Digits whole fraction) :
    0 < digitsValue (whole ++ fraction) ∧
      RoundsTo ((digitsValue (whole ++ fraction) : ℚ) * 10 ^ (-(fraction.length : ℤ))) m e := by
  have hround := Span.shortest_roundsTo hcanonical
  rw [← hdigits.value] at hround
  refine ⟨?_, ?_⟩
  · by_contra hzero
    rw [Nat.eq_zero_of_not_pos hzero] at hround
    have hreach := reachBelow_le m e
    have hlow := hround.1
    rw [Nat.cast_zero, zero_div, zero_div] at hlow
    have hone : (1 : ℚ) ≤ m := by exact_mod_cast hcanonical.pos
    linarith
  · rwa [zpow_neg, zpow_natCast, ← div_eq_mul_inv]

/-- The number is neither infinite nor missing. -/
def IsFinite (x : Float) : Prop := ∃ negative m e, Exact.ofFloat x = .finite negative m e

section

variable {x : Float}

/-- The text of a finite number: a sign, digits, and perhaps a point and more digits, which are
read as the number. -/
lemma exists_plainText (hx : IsFinite x) :
    ∃ negative whole fraction, whole ≠ [] ∧ AllDigits whole ∧ AllDigits fraction ∧
      plainText x = DecimalFormat.message.signed negative (String.ofList (pointed whole fraction)) ∧
      (let magnitude := (Scientific.mk (digitsValue (whole ++ fraction)) (-fraction.length)).toFloat
       (if negative then -magnitude else magnitude) = x) := by
  obtain ⟨negative, m, e, hexact⟩ := hx
  have htext : plainText x = DecimalFormat.message.signed negative (String.ofList (Decimal.positional
      .message (if m == 0 then ⟨0, 0⟩ else (Span.ofFinite m e).shortest))) := by
    rw [plainText, hexact]
  unfold Exact.ofFloat at hexact
  split at hexact
  · cases hexact
  · cases hexact
  · next s hunpack =>
      cases hexact
      exact ⟨_, ['0'], [], List.cons_ne_nil _ _, allDigits_zeros 1, List.forall_mem_nil _, htext,
        zero_of_unpack hunpack⟩
  · next s m e hm hunpack =>
      cases hexact
      rw [if_neg (by simpa using hm.ne')] at htext
      obtain ⟨hcanonical, -⟩ := canonical_of_unpack hunpack
      obtain ⟨whole, fraction, hdigits, hpositional⟩ := (Span.ofFinite m e).shortest.exists_digits
      obtain ⟨y, hy, hsigned⟩ := signed_of_unpack hunpack
      obtain ⟨hpos, hround⟩ := shortest_digits hcanonical hdigits
      refine ⟨_, whole, fraction, hdigits.nonempty, hdigits.allWhole, hdigits.allFraction,
        hpositional ▸ htext, ?_⟩
      have hread : Scientific.toFloat ⟨digitsValue (whole ++ fraction), -fraction.length⟩ = y :=
        Scientific.toFloat_eq hy (d := ⟨_, _⟩) hpos hround
      dsimp only
      rw [hread]
      exact hsigned

/-- The text of a finite number is read as the number. -/
theorem readFloat_plainText (hx : IsFinite x) : readFloat (plainText x).toList = some x := by
  obtain ⟨negative, whole, fraction, hne, hwhole, hfraction, htext, hvalue⟩ := exists_plainText hx
  obtain ⟨c, cs, hc, hcons⟩ := exists_cons_pointed hne hwhole fraction
  have hread := readScientific_pointed hne hwhole hfraction
  rw [htext, hcons, readFloat_of_isDigit hc, ← hcons, hread, Option.map_some, hvalue]

/-- What a number is written with. -/
lemma mem_plainText (hx : IsFinite x) {c : Char} (hc : c ∈ (plainText x).toList) :
    c.isDigit = true ∨ c = '.' ∨ c = '-' := by
  obtain ⟨negative, whole, fraction, -, hwhole, hfraction, htext, -⟩ := exists_plainText hx
  rw [htext] at hc
  cases negative with
  | false =>
      change c ∈ (String.ofList (pointed whole fraction)).toList at hc
      rw [String.toList_ofList] at hc
      rcases mem_pointed hwhole hfraction hc with h | h
      · exact .inl h
      · exact .inr (.inl h)
  | true =>
      change c ∈ ("-" ++ String.ofList (pointed whole fraction)).toList at hc
      rw [String.toList_append, String.toList_ofList (l := pointed whole fraction)] at hc
      rcases List.mem_append.mp hc with h | h
      · exact .inr (.inr (List.mem_singleton.mp h))
      · rcases mem_pointed hwhole hfraction h with h | h
        · exact .inl h
        · exact .inr (.inl h)

end

end Gateware
