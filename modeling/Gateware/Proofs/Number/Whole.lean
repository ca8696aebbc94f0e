import Gateware.Proofs.Number.Comparison
import Gateware.Proofs.Number.Reading

/-!
# Whole numbers in floating point

Whole numbers below `2 ^ 53` have a floating-point number each (`isWhole_ofNat`), are in the same
order (`IsWhole.lt`), and their sums are exact as long as they are below that bound
(`IsWhole.add`).  A product may be rounded, but stays positive (`IsWhole.mul_pos`): every whole
number has a floating-point number that it is rounded to (`exists_roundsTo`).
-/

namespace Gateware

open Float.Model Float.Model.UnpackedFloat

/-! ## Rounding whole numbers -/

section

variable {M m : ℕ} {E e : ℤ}

lemma log2_mul_two_pow (hM : M ≠ 0) (k : ℕ) : (M * 2 ^ k).log2 = M.log2 + k := by
  have hpow : 2 ^ (M.log2 + k + 1) = 2 ^ (M.log2 + 1) * 2 ^ k := by
    rw [← pow_add]
    congr 1
    omega
  rw [Nat.log2_eq_iff (by positivity), hpow, pow_add]
  constructor
  · gcongr
    exact Nat.log2_self_le hM
  · gcongr
    exact Nat.lt_log2_self

/-- A mantissa is shifted as far as needed, and then rounded. -/
lemma round_eq {sign : Sign} (hM : M ≠ 0) (hcanonical : Canonical m e)
    (hround : RoundsTo ((M : ℚ) * 2 ^ E) m e) :
    UnpackedFloat.round Format.binary64 sign M E = .finite sign m e hcanonical.pos := by
  unfold UnpackedFloat.round decreaseExponent
  dsimp only
  generalize hT : Format.binary64.targetExponent (totalExponent M E) = T
  generalize hk : (E - T).toNat = k
  rw [Nat.shiftLeft_eq]
  rw [targetExponent_eq, totalExponent] at hT
  refine roundWithAccuracy_eq hcanonical hround ?_ ?_
  · have hvalue : (M : ℚ) * 2 ^ E / 2 ^ (E - k) = (M * 2 ^ k : ℕ) := by
      rw [zpow_sub₀ two_ne_zero, zpow_natCast]
      push_cast
      field_simp
    rw [hvalue]
    exact approximates_exact _
  · rw [targetExponent_eq, totalExponent, log2_mul_two_pow hM]
    omega

/-- A large number is rounded to one of 53 bits, or to the power of two above them. -/
lemma exists_roundsTo_of_le (hM : 2 ^ 52 ≤ M) :
    ∃ m e, Canonical m e ∧ RoundsTo (M : ℚ) m e ∧ e ≤ M.log2 := by
  have hlog : 52 ≤ M.log2 := (Nat.le_log2 (by omega)).mpr hM
  obtain ⟨k, hk⟩ : ∃ k, M.log2 = 52 + k := ⟨M.log2 - 52, by omega⟩
  have hpos : (0 : ℚ) < 2 ^ k := by positivity
  have hlow : (2 : ℚ) ^ 52 ≤ M / 2 ^ k := by
    rw [le_div_iff₀ hpos, ← pow_add, ← hk]
    exact_mod_cast Nat.log2_self_le (by omega)
  have hhigh : (M : ℚ) / 2 ^ k < 2 ^ 53 := by
    have hlt : M < 2 ^ (53 + k) := by
      rw [show 53 + k = M.log2 + 1 by omega]
      exact Nat.lt_log2_self
    rw [div_lt_iff₀ hpos, ← pow_add]
    exact_mod_cast hlt
  obtain ⟨hnear, hnear', htie⟩ := ((approximates_exact M).shiftRight k).nearest
  generalize (ExtendedMantissa.roundedMantissa _) = r at hnear hnear' htie
  by_cases hcarry : r < 2 ^ 53
  · have hr : 2 ^ 52 ≤ r := by
      by_contra hlt
      have hcast : (r : ℚ) + 1 ≤ 2 ^ 52 := by exact_mod_cast Nat.not_le.mp hlt
      linarith
    refine ⟨r, k, ⟨by omega, hcarry, by omega, .inl hr⟩, ?_, by omega⟩
    rw [RoundsTo, zpow_natCast]
    by_cases heq : r = 2 ^ 52
    · have hcast : (r : ℚ) = 2 ^ 52 := by exact_mod_cast heq
      have hreach := reachBelow_pos r k
      exact ⟨by linarith, hnear', fun _ => by omega⟩
    · have hreach : reachBelow r k = 1 / 2 := if_neg fun h => heq h.1
      rw [hreach]
      exact ⟨hnear, hnear', htie⟩
  · have hcast : (2 : ℚ) ^ 53 ≤ r := by exact_mod_cast Nat.not_lt.mp hcarry
    refine ⟨2 ^ 52, (k + 1 : ℕ), ⟨by omega, by omega, by omega, .inl le_rfl⟩, ?_, by omega⟩
    have hreach : reachBelow (2 ^ 52) (k + 1 : ℕ) = 1 / 4 := if_pos ⟨rfl, by omega⟩
    have hhalf : (M : ℚ) / 2 ^ (k + 1) = M / 2 ^ k / 2 := by rw [pow_succ, div_div]
    rw [RoundsTo, zpow_natCast, hreach, hhalf]
    push_cast
    exact ⟨by linarith, by linarith, fun _ => by norm_num⟩

lemma exists_roundsTo (hM : 0 < M) : ∃ m e, Canonical m e ∧ RoundsTo (M : ℚ) m e ∧ e ≤ M.log2 := by
  by_cases hsmall : M < 2 ^ 53
  · obtain ⟨m, e, -, -, hcanonical, he, hvalue, -⟩ := round_whole hM hsmall
    refine ⟨m, e, hcanonical, ?_, by omega⟩
    rw [← hvalue]
    exact .exact m e
  · exact exists_roundsTo_of_le (by omega)

end

/-! ## Sums, products and the order -/

lemma isWhole_ofNat {n : ℕ} (hn : 0 < n) (hlt : n < 2 ^ 53) : IsWhole (Float.ofNat n) n := by
  obtain ⟨m, e, hm, hunpack, hvalue, hbits⟩ := isWhole_toFloat hn hlt
  have hround : RoundsTo ((n : ℚ) * 10 ^ 0) m e := by
    rw [pow_zero, mul_one, ← hvalue]
    exact .exact m e
  have heq : Float.ofNat n = n.toUInt64.toFloat := ofScientific_mul hunpack hn (by omega) hround
  rw [heq]
  exact ⟨m, e, hm, hunpack, hvalue, hbits⟩

section

variable {x y : Float} {n k : ℕ}

lemma place_of_positive {m : ℕ} {e : ℤ} {hm : 0 < m}
    (h : x.toModel.unpack = .finite .positive m e hm) :
    x.isNaN = false ∧ place x = toLex (1, toLex (e, (m : ℤ))) := by
  refine ⟨congrArg UnpackedFloat.isNaN h, ?_⟩
  rw [place, h]
  rfl

lemma zero_lt_of_positive {m : ℕ} {e : ℤ} {hm : 0 < m}
    (h : x.toModel.unpack = .finite .positive m e hm) : 0.0 < x := by
  obtain ⟨hnumber, hplace⟩ := place_of_positive h
  have hzero : place (0.0 : Float) = toLex (0, toLex (0, 0)) := rfl
  rw [lt_iff_place rfl hnumber, hzero, hplace]
  exact Prod.Lex.toLex_lt_toLex.mpr (.inl one_pos)

lemma IsWhole.pos (hx : IsWhole x n) : 0.0 < x := by
  obtain ⟨m, e, hm, hunpack, -, -⟩ := hx
  exact zero_lt_of_positive hunpack

lemma IsWhole.lt (hx : IsWhole x n) (hy : IsWhole y k) (h : n < k) : x < y := by
  obtain ⟨m₁, e₁, hm₁, hunpack₁, hvalue₁, hbits₁⟩ := hx
  obtain ⟨m₂, e₂, hm₂, hunpack₂, hvalue₂, -⟩ := hy
  obtain ⟨hnumber₁, hplace₁⟩ := place_of_positive hunpack₁
  obtain ⟨hnumber₂, hplace₂⟩ := place_of_positive hunpack₂
  have hlt : (m₁ : ℚ) * 2 ^ e₁ < m₂ * 2 ^ e₂ := by
    rw [hvalue₁, hvalue₂]
    exact_mod_cast h
  rw [lt_iff_place hnumber₁ hnumber₂, hplace₁, hplace₂, Prod.Lex.toLex_lt_toLex]
  refine .inr ⟨rfl, Prod.Lex.toLex_lt_toLex.mpr ?_⟩
  rcases lt_trichotomy e₁ e₂ with he | rfl | he
  · exact .inl he
  · have hcast : (m₁ : ℚ) < m₂ := lt_of_mul_lt_mul_right hlt (zpow_pos two_pos _).le
    exact .inr ⟨rfl, Int.ofNat_lt.mpr (by exact_mod_cast hcast)⟩
  · -- A mantissa with all its bits outweighs every one with a smaller exponent.
    have hm₂ : (m₂ : ℚ) < 2 ^ 53 := by exact_mod_cast (canonical_of_unpack hunpack₂).1.lt
    have hm₁ : (2 : ℚ) ^ 52 ≤ m₁ := by exact_mod_cast hbits₁
    have hdouble : (2 : ℚ) * 2 ^ e₂ ≤ 2 ^ e₁ := by
      rw [mul_comm, ← zpow_add_one₀ two_ne_zero]
      exact zpow_le_zpow_right₀ one_le_two (by omega)
    have hpos : (0 : ℚ) < 2 ^ e₂ := zpow_pos two_pos e₂
    nlinarith

/-- Whole numbers are added without rounding. -/
lemma IsWhole.add (hx : IsWhole x n) (hy : IsWhole y k) (hlt : n + k < 2 ^ 53) :
    IsWhole (x + y) (n + k) := by
  obtain ⟨m₁, e₁, hm₁, hunpack₁, hvalue₁, -⟩ := hx
  obtain ⟨m₂, e₂, hm₂, hunpack₂, hvalue₂, -⟩ := hy
  -- Both mantissas are shifted to the smaller exponent.
  generalize hE : min e₁ e₂ = E
  obtain ⟨k₁, hk₁⟩ : ∃ k₁ : ℕ, e₁ = E + k₁ := ⟨(e₁ - E).toNat, by omega⟩
  obtain ⟨k₂, hk₂⟩ : ∃ k₂ : ℕ, e₂ = E + k₂ := ⟨(e₂ - E).toNat, by omega⟩
  have hsum : ((m₁ * 2 ^ k₁ + m₂ * 2 ^ k₂ : ℕ) : ℚ) * 2 ^ E = (n + k : ℕ) := by
    push_cast
    rw [← hvalue₁, ← hvalue₂, hk₁, hk₂, zpow_add₀ two_ne_zero, zpow_add₀ two_ne_zero,
      zpow_natCast, zpow_natCast]
    ring
  have hpos : 0 < m₁ * 2 ^ k₁ + m₂ * 2 ^ k₂ := by positivity
  have hn : 0 < n + k := by
    have hcast : (0 : ℚ) < ((n + k : ℕ) : ℚ) := by
      rw [← hsum]
      positivity
    exact_mod_cast hcast
  obtain ⟨m, e, hm, -, hcanonical, he, hvalue, hbits⟩ := round_whole hn hlt
  have hround : RoundsTo (((m₁ * 2 ^ k₁ + m₂ * 2 ^ k₂ : ℕ) : ℚ) * 2 ^ E) m e := by
    rw [hsum, ← hvalue]
    exact .exact m e
  have hadd : UnpackedFloat.add Format.binary64 x.toModel.unpack y.toModel.unpack =
      .finite .positive m e hm := by
    have hshift₁ : (e₁ - E).toNat = k₁ := by omega
    have hshift₂ : (e₂ - E).toNat = k₂ := by omega
    have hmantissa : Sign.positive.apply ((m₁ * 2 ^ k₁ : ℕ) : ℤ) +
        Sign.positive.apply ((m₂ * 2 ^ k₂ : ℕ) : ℤ) = ((m₁ * 2 ^ k₁ + m₂ * 2 ^ k₂ : ℕ) : ℤ) := by
      simp [Sign.apply]
    have hgt : compare ((m₁ * 2 ^ k₁ + m₂ * 2 ^ k₂ : ℕ) : ℤ) 0 = .gt :=
      compare_gt_iff_gt.mpr (by omega)
    rw [hunpack₁, hunpack₂]
    show UnpackedFloat.normalize Format.binary64
      (Sign.positive.apply ((m₁ <<< (e₁ - min e₁ e₂).toNat : ℕ) : ℤ) +
        Sign.positive.apply ((m₂ <<< (e₂ - min e₁ e₂).toNat : ℕ) : ℤ)) (min e₁ e₂) .positive = _
    rw [hE, hshift₁, hshift₂, Nat.shiftLeft_eq, Nat.shiftLeft_eq, hmantissa,
      UnpackedFloat.normalize, hgt]
    exact round_eq hpos.ne' hcanonical hround
  refine ⟨m, e, hm, ?_, hvalue, hbits⟩
  show (Float.Model.pack (UnpackedFloat.add Format.binary64 x.toModel.unpack
    y.toModel.unpack)).unpack = _
  rw [hadd]
  exact unpack_pack hcanonical (by omega)

lemma IsWhole.mul_pos (hx : IsWhole x n) (hy : IsWhole y k) (hlt : n * k < 2 ^ 128) :
    0.0 < x * y := by
  obtain ⟨m₁, e₁, hm₁, hunpack₁, hvalue₁, hbits₁⟩ := hx
  obtain ⟨m₂, e₂, hm₂, hunpack₂, hvalue₂, -⟩ := hy
  have hvalue : (m₁ : ℚ) * 2 ^ e₁ * (m₂ * 2 ^ e₂) = (n * k : ℕ) := by
    rw [hvalue₁, hvalue₂]
    push_cast
    rfl
  have hpos : 0 < n * k := by
    have hcast : (0 : ℚ) < ((n * k : ℕ) : ℚ) := by
      rw [← hvalue]
      positivity
    exact_mod_cast hcast
  obtain ⟨m, e, hcanonical, hround, he⟩ := exists_roundsTo hpos
  have hlog : (n * k).log2 < 128 := (Nat.log2_lt hpos.ne').mpr hlt
  rw [← hvalue] at hround
  have hunpack : (x * y).toModel.unpack = .finite .positive m e hcanonical.pos := by
    show (Float.Model.pack (UnpackedFloat.mul Format.binary64 x.toModel.unpack
      y.toModel.unpack)).unpack = _
    rw [hunpack₁, hunpack₂,
      mul_eq hcanonical hround (hbits₁.trans (Nat.le_mul_of_pos_right m₁ hm₂))]
    exact unpack_pack hcanonical (by omega)
  exact zero_lt_of_positive hunpack

end

end Gateware
