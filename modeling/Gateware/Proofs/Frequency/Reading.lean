import Gateware.Frequency
import Gateware.Proofs.Number.RoundTrip
import Gateware.Proofs.Text.Words

/-!
# Reading frequencies

A text writes a whole number of some unit (`Frequency.Writes`) if it has the digits of the number
and the name of the unit, in any letters and with blanks around them.  Number and unit are told
apart because a number has no letters, so that no unit is taken for another one that it ends in
(`splitUnit_append`).

As long as the number and its product with the unit are numbers of floating point, nothing is
rounded, and the text is read as the product exactly (`parse_of_writes`).  The largest frequency is
the one exception: it is not a number of floating point itself, and stands in for `2 ^ 64`, the
first number that is too large for a frequency.
-/

namespace Gateware

open Float.Model Float.Model.UnpackedFloat

/-! ## Whole numbers of floating point -/

/-- A floating-point number is a whole number. -/
def IsExact (x : Float) (n : ℕ) : Prop :=
  ∃ m e, Exact.ofFloat x = .finite false m e ∧ (m : ℚ) * 2 ^ e = n

section

variable {x y z : Float} {n k : ℕ}

lemma pos_of_value {m : ℕ} {e : ℤ} (hm : 0 < m) (h : (m : ℚ) * 2 ^ e = n) : 0 < n := by
  have hpos : (0 : ℚ) < n := by
    rw [← h]
    positivity
  exact_mod_cast hpos

/-- A number of at least one has all bits of its mantissa. -/
lemma Canonical.bits_of_one_le {m : ℕ} {e : ℤ} (h : Canonical m e) (hone : 1 ≤ (m : ℚ) * 2 ^ e) :
    2 ^ 52 ≤ m := by
  rcases h.normal with hbits | hleast
  · exact hbits
  · have hlt : (m : ℚ) < 2 ^ (53 : ℤ) := by exact_mod_cast h.lt
    have hbelow : (m : ℚ) * 2 ^ e < 2 ^ (53 + -1074 : ℤ) := by
      rw [hleast, zpow_add₀ two_ne_zero]
      gcongr
    have hsmall : (2 : ℚ) ^ (53 + -1074 : ℤ) ≤ 1 :=
      zpow_le_one_of_nonpos₀ one_le_two (by norm_num)
    linarith

/-- A whole number is zero, or its mantissa has all bits. -/
lemma IsExact.cases (h : IsExact x n) : n = 0 ∧ x = 0.0 ∨ 0 < n ∧ IsWhole x n := by
  obtain ⟨m, e, hexact, hvalue⟩ := h
  unfold Exact.ofFloat at hexact
  split at hexact
  · cases hexact
  · cases hexact
  · next s hunpack =>
      cases s with
      | negative => cases hexact
      | positive =>
          cases hexact
          refine .inl ⟨?_, (zero_of_unpack hunpack).symm⟩
          rw [Nat.cast_zero, zero_mul] at hvalue
          exact_mod_cast hvalue.symm
  · next s m e hm hunpack =>
      cases s with
      | negative => cases hexact
      | positive =>
          cases hexact
          obtain ⟨hcanonical, -⟩ := canonical_of_unpack hunpack
          have hn := pos_of_value hm hvalue
          refine .inr ⟨hn, m, e, hm, hunpack, hvalue, hcanonical.bits_of_one_le ?_⟩
          rw [hvalue]
          exact_mod_cast hn

lemma IsWhole.zero_mul (hz : IsWhole z k) : (0.0 : Float) * z = 0.0 := by
  obtain ⟨m, e, hm, hunpack, -⟩ := hz
  have hzero : (0.0 : Float).toModel.unpack = .zero .positive := rfl
  show Float.ofModel (Float.Model.pack (UnpackedFloat.mul Format.binary64
    (0.0 : Float).toModel.unpack z.toModel.unpack)) = 0.0
  rw [hzero, hunpack]
  rfl

/-- A product that is a number of floating point is exact. -/
lemma IsExact.mul (hx : IsExact x n) (hz : IsWhole z k) (hy : IsExact y (n * k)) :
    x * z = y := by
  rcases hx.cases with ⟨rfl, rfl⟩ | ⟨hn, hwhole⟩
  · rcases hy.cases with ⟨-, rfl⟩ | ⟨hpos, -⟩
    · exact hz.zero_mul
    · omega
  · rcases hy.cases with ⟨hzero, -⟩ | ⟨-, m, e, hm, hunpack, hvalue, -⟩
    · obtain ⟨m, e, hm, -, hvalue, -⟩ := hz
      exact absurd hzero (Nat.mul_pos hn (pos_of_value hm hvalue)).ne'
    · refine mul_of_isWhole hunpack hwhole hz ?_
      rw [← Nat.cast_mul, ← hvalue]
      exact .exact m e

lemma Exact.nearestMagnitude_of_eq {m : ℕ} {e : ℤ} (h : (m : ℚ) * 2 ^ e = n) :
    nearestMagnitude m e = n := by
  have hmul : m * 2 ^ e.toNat = n * 2 ^ (-e).toNat := by
    rw [zpow_eq_div two_ne_zero e, ← mul_div_assoc, div_eq_iff (by positivity)] at h
    exact_mod_cast h
  have hpos : 0 < 2 ^ (-e).toNat := by positivity
  show (2 * (m * 2 ^ e.toNat) + 2 ^ (-e).toNat) / (2 * 2 ^ (-e).toNat) = n
  generalize 2 ^ (-e).toNat = d at hmul hpos ⊢
  have hcomm : n * (2 * d) = 2 * (n * d) := Nat.mul_left_comm n 2 d
  rw [hmul, Nat.div_eq_iff (by omega), hcomm]
  constructor
  · omega
  · omega

lemma Frequency.ofFloat_of_isExact (h : IsExact x n) :
    ofFloat x = if maxLong + 1 < n then none else some ⟨min n maxLong⟩ := by
  obtain ⟨m, e, hexact, hvalue⟩ := h
  rw [ofFloat, hexact]
  simp [Exact.nearestMagnitude_of_eq hvalue]

/-! ## Numbers in digits -/

/-- A text is a number, written in digits. -/
structure InDigits (n : ℕ) (digits : List Char) : Prop where
  nonempty : digits ≠ []
  allDigits : AllDigits digits
  value : digitsValue digits = n

lemma inDigits_toString (n : ℕ) : InDigits n (toString n).toList := by
  rw [toList_nat]
  exact ⟨Nat.toDigits_ne_nil, allDigits_toDigits n, digitsValue_toDigits n⟩

lemma readFloat_inDigits {digits : List Char} (h : InDigits n digits) (hx : IsExact x n) :
    readFloat digits = some x := by
  obtain ⟨hne, hdigits, hvalue⟩ := h
  have hscientific : readScientific digits = some ⟨n, 0⟩ := by
    have hread := readScientific_pointed hne hdigits (List.forall_mem_nil _)
    simpa [pointed, hvalue] using hread
  have hfloat : (Scientific.mk n 0).toFloat = x := by
    rcases hx.cases with ⟨rfl, rfl⟩ | ⟨hn, m, e, hm, hunpack, hwhole, -⟩
    · rfl
    · refine Scientific.toFloat_eq hunpack (d := ⟨n, 0⟩) hn ?_
      rw [zpow_zero, mul_one, ← hwhole]
      exact .exact m e
  obtain ⟨c, cs, rfl⟩ := List.exists_cons_of_ne_nil hne
  have hc := hdigits c List.mem_cons_self
  rw [readFloat, splitSign_of_isDigit hc]
  simp [readMagnitude_of_isDigit hc, hscientific, hfloat]

end

/-! ## Units -/

namespace Frequency

section

variable {ending number name : List Char}

/-- What ends in letters ends in them within the letters at its end. -/
lemma suffix_append_iff (hending : ∀ c ∈ ending, c.isAlpha = true)
    (hnumber : ∀ c ∈ number, c.isAlpha = false) : ending <:+ number ++ name ↔ ending <:+ name := by
  constructor
  · intro h
    rcases List.suffix_or_suffix_of_suffix h (List.suffix_append number name) with h' | ⟨more, rfl⟩
    · exact h'
    · obtain ⟨before, hbefore⟩ := h
      rw [← List.append_assoc] at hbefore
      have hmore : number = before ++ more := (List.append_cancel_right hbefore).symm
      cases more with
      | nil => exact List.suffix_rfl
      | cons c more =>
          have hletter := hending c (List.mem_append_left _ List.mem_cons_self)
          have hother := hnumber c (hmore ▸ List.mem_append_right _ List.mem_cons_self)
          rw [hother] at hletter
          cases hletter
  · exact fun h => h.trans (List.suffix_append number name)

lemma stripEnding_self (cs ending : List Char) : stripEnding ending (cs ++ ending) = some cs := by
  have hsuffix : ending <:+ cs ++ ending := List.suffix_append cs ending
  rw [stripEnding, if_pos (List.isSuffixOf_iff_suffix.mpr hsuffix), List.length_append,
    Nat.add_sub_cancel_right, List.take_left]

lemma stripEnding_append (hending : ∀ c ∈ ending, c.isAlpha = true)
    (hnumber : ∀ c ∈ number, c.isAlpha = false) (name : List Char) :
    stripEnding ending (number ++ name) = (stripEnding ending name).map (number ++ ·) := by
  by_cases h : ending <:+ name
  · obtain ⟨cs, rfl⟩ := h
    rw [← List.append_assoc, stripEnding_self, stripEnding_self, Option.map_some]
  · have hnot : ¬ ending <:+ number ++ name := mt (suffix_append_iff hending hnumber).mp h
    rw [stripEnding, stripEnding, if_neg (by simpa using hnot), if_neg (by simpa using h),
      Option.map_none]

/-- The names in single letters. -/
lemma units_eq : units = [(['g', 'h', 'z'], 1000000000.0), (['m', 'h', 'z'], 1000000.0),
    (['k', 'h', 'z'], 1000.0), (['h', 'z'], 1.0)] := rfl

lemma allAlpha_of_mem_units {u : List Char × Float} (hu : u ∈ units) :
    ∀ c ∈ u.1, c.isAlpha = true := by
  revert u
  rw [units_eq]
  simp

/-- **Number and unit are told apart.** -/
lemma splitUnit_append (hnumber : ∀ c ∈ number, c.isAlpha = false) {factor : Float}
    (hunit : (name, factor) ∈ units) : splitUnit (number ++ name) = (Text.trim number, factor) := by
  have hother : ∀ u ∈ units, stripEnding u.1 name = none →
      stripEnding u.1 (number ++ name) = none := by
    intro u hu hnone
    rw [stripEnding_append (allAlpha_of_mem_units hu) hnumber, hnone, Option.map_none]
  rw [units_eq] at hunit hother
  simp only [List.mem_cons, List.not_mem_nil, or_false, Prod.mk.injEq, forall_eq_or_imp,
    forall_eq] at hunit hother
  obtain ⟨hghz, hmhz, hkhz, -⟩ := hother
  rw [splitUnit, units_eq]
  rcases hunit with ⟨rfl, rfl⟩ | ⟨rfl, rfl⟩ | ⟨rfl, rfl⟩ | ⟨rfl, rfl⟩
  · simp [stripEnding_self]
  · simp [hghz rfl, stripEnding_self]
  · simp [hghz rfl, hmhz rfl, stripEnding_self]
  · simp [hghz rfl, hmhz rfl, hkhz rfl, stripEnding_self]

lemma splitUnit_of_forall (hnumber : ∀ c ∈ number, c.isAlpha = false) :
    splitUnit number = (number, 1.0) := by
  have hempty : ∀ u ∈ units, stripEnding u.1 [] = none := by
    rw [units_eq]
    simp [stripEnding]
  have hnone : ∀ u ∈ units, stripEnding u.1 number = none := by
    intro u hu
    rw [← List.append_nil number, stripEnding_append (allAlpha_of_mem_units hu) hnumber,
      hempty u hu, Option.map_none]
  rw [splitUnit, List.findSome?_eq_none_iff.mpr, Option.getD_none]
  intro u hu
  simp [hnone u hu]

end

/-! ## Letters, digits and blanks -/

section

variable {c : Char}

lemma isAlpha_of_isDigit (hc : c.isDigit = true) : c.isAlpha = false := by
  simp only [Char.isDigit, Bool.and_eq_true, decide_eq_true_eq, ge_iff_le,
    UInt32.le_iff_toNat_le] at hc
  simp only [Char.isAlpha, Char.isUpper, Char.isLower, Bool.or_eq_false_iff, ge_iff_le,
    Bool.and_eq_false_iff, decide_eq_false_iff_not, UInt32.le_iff_toNat_le]
  grind

lemma isBlank_of_isAlphanum (hc : c.isAlphanum = true) : Text.isBlank c = false := by
  simp only [Char.isAlphanum, Char.isAlpha, Char.isUpper, Char.isLower, Char.isDigit,
    Bool.or_eq_true, Bool.and_eq_true, decide_eq_true_eq, ge_iff_le, UInt32.le_iff_toNat_le] at hc
  change ((65 ≤ c.toNat ∧ c.toNat ≤ 90) ∨ 97 ≤ c.toNat ∧ c.toNat ≤ 122) ∨
    48 ≤ c.toNat ∧ c.toNat ≤ 57 at hc
  simp only [Text.isBlank, Bool.or_eq_false_iff, Bool.and_eq_false_iff, decide_eq_false_iff_not,
    beq_eq_false_iff_ne]
  omega

lemma isAlpha_of_isBlank (hc : Text.isBlank c = true) : c.isAlpha = false := by
  by_contra halpha
  rw [Bool.not_eq_false] at halpha
  have hblank : Text.isBlank c = false := isBlank_of_isAlphanum (by simp [Char.isAlphanum, halpha])
  rw [hblank] at hc
  cases hc

lemma toLower_of_isAlpha (hc : c.isAlpha = false) : c.toLower = c := by
  refine Char.toLower_eq_of_not_isUpper ?_
  intro hupper
  rw [Char.isAlpha, hupper] at hc
  cases hc

end

/-! ## Texts -/

/-- The names of units in lower case, and how many hertz they stand for. -/
def scales : List (List Char × ℕ) :=
  [(['h', 'z'], 1), (['k', 'h', 'z'], 10 ^ 3), (['m', 'h', 'z'], 10 ^ 6), (['g', 'h', 'z'], 10 ^ 9)]

/-- A text says how many of a unit there are.  Without a unit it is hertz. -/
inductive Writes (n : ℕ) : (scale : ℕ) → List Char → Prop
  | plain {before digits after : List Char} (hbefore : Text.AllBlank before)
      (hdigits : InDigits n digits) (hafter : Text.AllBlank after) :
      Writes n 1 (before ++ digits ++ after)
  | unit {scale : ℕ} {before digits gap name after : List Char} (hbefore : Text.AllBlank before)
      (hdigits : InDigits n digits) (hgap : Text.AllBlank gap)
      (hname : (name.map Char.toLower, scale) ∈ scales) (hafter : Text.AllBlank after) :
      Writes n scale (before ++ (digits ++ gap ++ name) ++ after)

/-- Every unit has a factor that is exact. -/
lemma exists_factor {name : List Char} {scale : ℕ} (h : (name, scale) ∈ scales) :
    ∃ factor, (name, factor) ∈ units ∧ IsWhole factor scale := by
  rw [units_eq]
  simp only [scales, List.mem_cons, List.not_mem_nil, or_false, Prod.mk.injEq] at h
  rcases h with ⟨rfl, rfl⟩ | ⟨rfl, rfl⟩ | ⟨rfl, rfl⟩ | ⟨rfl, rfl⟩
  · exact ⟨1.0, by simp, isWhole_of_isPowerOfTen (k := 0) (by decide +kernel)⟩
  · exact ⟨1000.0, by simp, isWhole_of_isPowerOfTen (by decide +kernel)⟩
  · exact ⟨1000000.0, by simp, isWhole_of_isPowerOfTen (by decide +kernel)⟩
  · exact ⟨1000000000.0, by simp, isWhole_of_isPowerOfTen (by decide +kernel)⟩

section

variable {n scale : ℕ} {digits gap name : List Char}

lemma isWord_of_inDigits (h : InDigits n digits) : Text.IsWord digits :=
  ⟨h.nonempty, fun c hc => isBlank_of_isAlphanum (by simp [Char.isAlphanum, h.allDigits c hc])⟩

/-- Whatever the letters are, a unit is a word. -/
lemma isWord_of_mem_scales (h : (name.map Char.toLower, scale) ∈ scales) : Text.IsWord name := by
  obtain ⟨factor, hunit, -⟩ := exists_factor h
  constructor
  · rintro rfl
    rw [units_eq] at hunit
    simp at hunit
  · intro c hc
    by_contra hblank
    rw [Bool.not_eq_false] at hblank
    have hother := isAlpha_of_isBlank hblank
    have hletter := allAlpha_of_mem_units hunit _ (List.mem_map_of_mem hc)
    rw [toLower_of_isAlpha hother, hother] at hletter
    cases hletter

lemma isAlpha_of_mem_number (hdigits : AllDigits digits) (hgap : Text.AllBlank gap) :
    ∀ c ∈ digits ++ gap, c.isAlpha = false := by
  intro c hc
  rcases List.mem_append.mp hc with hc | hc
  · exact isAlpha_of_isDigit (hdigits c hc)
  · exact isAlpha_of_isBlank (hgap c hc)

lemma map_toLower {cs : List Char} (h : ∀ c ∈ cs, c.isAlpha = false) :
    cs.map Char.toLower = cs := by
  conv_rhs => rw [← List.map_id cs]
  exact List.map_congr_left fun c hc => toLower_of_isAlpha (h c hc)

/-- A text is taken apart into the digits and a factor that is exact. -/
lemma Writes.splitUnit {source : List Char} (h : Writes n scale source) :
    ∃ digits factor, Frequency.splitUnit ((Text.trim source).map Char.toLower) = (digits, factor) ∧
      InDigits n digits ∧ IsWhole factor scale := by
  cases h with
  | @plain before digits after hbefore hdigits hafter =>
      have hword := isWord_of_inDigits hdigits
      have hnumber : ∀ c ∈ digits, c.isAlpha = false := fun c hc =>
        isAlpha_of_isDigit (hdigits.allDigits c hc)
      refine ⟨digits, 1.0, ?_, hdigits, isWhole_of_isPowerOfTen (k := 0) (by decide +kernel)⟩
      rw [hword.trim_append hbefore hafter, map_toLower hnumber, splitUnit_of_forall hnumber]
  | @unit _ before digits gap name after hbefore hdigits hgap hname hafter =>
      obtain ⟨factor, hunit, hfactor⟩ := exists_factor hname
      have hword := isWord_of_inDigits hdigits
      have hname' := isWord_of_mem_scales hname
      have hnumber := isAlpha_of_mem_number hdigits.allDigits hgap
      have htrim : Text.trim (before ++ (digits ++ gap ++ name) ++ after) =
          digits ++ gap ++ name := by
        refine Text.trim_append hbefore hafter ?_ ?_
        · intro c hc
          rw [List.append_assoc, List.head?_append_of_ne_nil _ hword.1] at hc
          exact hword.2 c (List.mem_of_mem_head? hc)
        · intro c hc
          rw [List.getLast?_append_of_ne_nil _ hname'.1] at hc
          exact hname'.2 c (List.mem_of_mem_getLast? hc)
      have hnumber' : Text.trim (digits ++ gap) = digits :=
        hword.trim_append (List.forall_mem_nil _) hgap
      refine ⟨digits, factor, ?_, hdigits, hfactor⟩
      rw [htrim, List.map_append, map_toLower hnumber, splitUnit_append hnumber hunit, hnumber']

/-- **Nothing is rounded where nothing has to be.** -/
lemma parse_of_writes {source : String} (hsource : Writes n scale source.toList) {x y : Float}
    (hx : IsExact x n) (hy : IsExact y (n * scale)) :
    parse source = if maxLong + 1 < n * scale then .error (.malformed (Text.trimmed source))
      else .ok ⟨min (n * scale) maxLong⟩ := by
  obtain ⟨digits, factor, hsplit, hdigits, hfactor⟩ := hsource.splitUnit
  have hvalue : (readFloat digits).bind (fun x => ofFloat (x * factor)) =
      if maxLong + 1 < n * scale then none else some ⟨min (n * scale) maxLong⟩ := by
    rw [readFloat_inDigits hdigits hx, Option.bind_some, hx.mul hfactor hy, ofFloat_of_isExact hy]
  unfold parse
  dsimp only
  rw [hsplit]
  dsimp only
  rw [hvalue]
  split_ifs with htop
  · rfl
  · rfl

end

/-- **Frequencies are read exactly, but for the top of the range.**  Let a text write a number of a
unit such that number and product are exact in floating point.  A product below `2 ^ 64` is the
frequency, and one above it is refused; but `2 ^ 64` itself is read as the largest frequency. -/
theorem parse_exact_but_at_top (n scale : ℕ) (source : String)
    (hsource : Writes n scale source.toList) (hn : ∃ x, IsExact x n)
    (hproduct : ∃ y, IsExact y (n * scale)) :
    (n * scale < 2 ^ 64 → parse source = .ok ⟨n * scale⟩) ∧
      (2 ^ 64 < n * scale → parse source = .error (.malformed (Text.trimmed source))) ∧
      (n * scale = 2 ^ 64 → parse source = .ok ⟨2 ^ 64 - 1⟩) := by
  obtain ⟨x, hx⟩ := hn
  obtain ⟨y, hy⟩ := hproduct
  have hmax : maxLong = 2 ^ 64 - 1 := rfl
  rw [parse_of_writes hsource hx hy, hmax]
  refine ⟨?_, ?_, ?_⟩
  · intro hlt
    rw [if_neg (by omega), Nat.min_eq_left (by omega)]
  · intro hlt
    rw [if_pos (by omega)]
  · intro htop
    rw [if_neg (by omega), Nat.min_eq_right (by omega)]

/-- Two numbers of gigahertz on both sides of the top, and the top itself. -/
theorem parse_exact_but_at_top_gigahertz :
    Writes 18446744072 (10 ^ 9) "\t18446744072 gHz ".toList ∧
      parse "\t18446744072 gHz " = .ok ⟨18446744072000000000⟩ ∧
      Writes 18446744080 (10 ^ 9) "18446744080GHZ".toList ∧
      parse "18446744080GHZ" = .error (.malformed "18446744080GHZ") ∧
      Writes (2 ^ 64) 1 "18446744073709551616".toList ∧
      parse "18446744073709551616" = .ok ⟨2 ^ 64 - 1⟩ := by
  have hbelow : Writes 18446744072 (10 ^ 9) "\t18446744072 gHz ".toList := by
    have htext : "\t18446744072 gHz ".toList =
        ['\t'] ++ ((toString 18446744072).toList ++ [' '] ++ ['g', 'H', 'z']) ++ [' '] := by
      decide +kernel
    have htab : Text.AllBlank ['\t'] := List.forall_mem_singleton.mpr rfl
    have hspace : Text.AllBlank [' '] := List.forall_mem_singleton.mpr rfl
    rw [htext]
    exact .unit htab (inDigits_toString _) hspace (by decide) hspace
  have habove : Writes 18446744080 (10 ^ 9) "18446744080GHZ".toList := by
    have htext : "18446744080GHZ".toList =
        [] ++ ((toString 18446744080).toList ++ [] ++ ['G', 'H', 'Z']) ++ [] := by
      decide +kernel
    rw [htext]
    exact .unit (List.forall_mem_nil _) (inDigits_toString _) (List.forall_mem_nil _) (by decide)
      (List.forall_mem_nil _)
  have htop : Writes (2 ^ 64) 1 "18446744073709551616".toList := by
    have htext : "18446744073709551616".toList = [] ++ (toString (2 ^ 64)).toList ++ [] := by
      decide +kernel
    rw [htext]
    exact .plain (List.forall_mem_nil _) (inDigits_toString _) (List.forall_mem_nil _)
  have hexact : IsExact 18446744073709551616.0 (2 ^ 64) :=
    ⟨2 ^ 52, 12, by decide +kernel, by norm_num⟩
  have hread := parse_exact_but_at_top 18446744072 (10 ^ 9) _ hbelow
    ⟨18446744072.0, 18446744072 * 2 ^ 18, -18, by decide +kernel, by norm_num⟩
    ⟨18446744072000000000.0, 9007199253906250, 11, by decide +kernel, by norm_num⟩
  have hrefused := parse_exact_but_at_top 18446744080 (10 ^ 9) _ habove
    ⟨18446744080.0, 18446744080 * 2 ^ 18, -18, by decide +kernel, by norm_num⟩
    ⟨18446744080000000000.0, 4503599628906250, 12, by decide +kernel, by norm_num⟩
  have hcapped := parse_exact_but_at_top (2 ^ 64) 1 _ htop ⟨_, hexact⟩ ⟨_, hexact⟩
  have htrimmed : Text.trimmed "18446744080GHZ" = "18446744080GHZ" := by decide +kernel
  rw [htrimmed] at hrefused
  exact ⟨hbelow, hread.1 (by norm_num), habove, hrefused.2.1 (by norm_num), htop,
    hcapped.2.2 (by norm_num)⟩

/-- The least number that is too large for a frequency is not refused, though it is exact: it is
read as the number before it. -/
theorem parse_at_top :
    (∃ x, IsExact x 18446744073709551616) ∧ ¬ 18446744073709551616 < 2 ^ 64 ∧
      parse "18446744073709551616" = .ok ⟨18446744073709551615⟩ := by
  refine ⟨⟨18446744073709551616.0, 2 ^ 52, 12, ?_, by norm_num⟩, by norm_num, ?_⟩
  · decide +kernel
  · decide +kernel

end Frequency

end Gateware
