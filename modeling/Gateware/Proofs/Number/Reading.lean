import Gateware.Number.Reading
import Gateware.Proofs.Number.Packing

/-!
# Reading decimals

A decimal is read as the quotient or product of two numbers that are both exact: its digits, and a
power of ten.  So what is near enough to a floating-point number is read as that number
(`Scientific.toFloat_eq`).
-/

namespace Gateware

open Float.Model Float.Model.UnpackedFloat

lemma RoundsTo.exact (m : ℕ) (e : ℤ) : RoundsTo ((m : ℚ) * 2 ^ e) m e := by
  have hreach := reachBelow_pos m e
  have hvalue : (m : ℚ) * 2 ^ e / 2 ^ e = m := by field_simp
  unfold RoundsTo
  rw [hvalue]
  refine ⟨by linarith, by linarith, ?_⟩
  rintro (hx | hx) <;> linarith

/-! ## Whole numbers and powers of ten -/

/-- A floating-point number is a positive whole number, and its mantissa has all bits. -/
def IsWhole (x : Float) (n : ℕ) : Prop :=
  ∃ m e hm, x.toModel.unpack = .finite .positive m e hm ∧ (m : ℚ) * 2 ^ e = n ∧ 2 ^ 52 ≤ m

lemma round_whole {n : ℕ} (hn : 0 < n) (hlt : n < 2 ^ 53) :
    ∃ m e hm, UnpackedFloat.round Format.binary64 .positive n 0 = .finite .positive m e hm ∧
      Canonical m e ∧ e ≤ 0 ∧ (m : ℚ) * 2 ^ e = n ∧ 2 ^ 52 ≤ m := by
  have hlog : n.log2 ≤ 52 := Nat.lt_succ_iff.mp ((Nat.log2_lt hn.ne').mpr hlt)
  obtain ⟨k, hk⟩ : ∃ k, n.log2 + k = 52 := ⟨52 - n.log2, by omega⟩
  have hlow : 2 ^ 52 ≤ n * 2 ^ k := by
    rw [← hk, pow_add]
    gcongr
    exact Nat.log2_self_le hn.ne'
  have hhigh : n * 2 ^ k < 2 ^ 53 := by
    have hpow : (2 : ℕ) ^ 53 = 2 ^ (n.log2 + 1) * 2 ^ k := by
      rw [← pow_add]
      congr 1
      omega
    rw [hpow]
    gcongr
    exact Nat.lt_log2_self
  have hcanonical : Canonical (n * 2 ^ k) (-k) :=
    ⟨by positivity, hhigh, by omega, .inl hlow⟩
  have hvalue : ((n * 2 ^ k : ℕ) : ℚ) * 2 ^ (-(k : ℤ)) = n := by
    rw [zpow_neg, zpow_natCast]
    push_cast
    field_simp
  refine ⟨n * 2 ^ k, -k, hcanonical.pos, ?_, hcanonical, by omega, hvalue, hlow⟩
  have htarget : Format.binary64.targetExponent (totalExponent n 0) = -k := by
    rw [targetExponent_eq, totalExponent]
    omega
  unfold UnpackedFloat.round decreaseExponent
  dsimp only
  rw [htarget, zero_sub, neg_neg, Int.toNat_natCast, zero_sub, Nat.shiftLeft_eq]
  refine roundWithAccuracy_eq hcanonical (.exact _ _) ?_ hcanonical.targetExponent.ge
  have hexact := approximates_exact (n * 2 ^ k)
  rwa [← mul_div_cancel_right₀ ((n * 2 ^ k : ℕ) : ℚ) (zpow_pos two_pos (-(k : ℤ))).ne'] at hexact

lemma isWhole_toFloat {n : ℕ} (hn : 0 < n) (hlt : n < 2 ^ 53) : IsWhole n.toUInt64.toFloat n := by
  obtain ⟨m, e, hm, hround, hcanonical, he, hvalue, hbits⟩ := round_whole hn hlt
  refine ⟨m, e, hm, ?_, hvalue, hbits⟩
  have hnat : n.toUInt64.toNat = n := by
    rw [UInt64.toNat_ofNat']
    omega
  have hgt : compare (n : ℤ) 0 = .gt := compare_gt_iff_gt.mpr (by omega)
  have hofNat : UnpackedFloat.ofUInt64 Format.binary64 n.toUInt64 = .finite .positive m e hm := by
    rw [UnpackedFloat.ofUInt64, hnat, UnpackedFloat.ofNat, UnpackedFloat.ofInt,
      UnpackedFloat.normalize, hgt]
    exact hround
  show (Float.Model.pack (UnpackedFloat.ofUInt64 Format.binary64 n.toUInt64)).unpack = _
  rw [hofNat]
  exact unpack_pack hcanonical (by omega)

/-- Whether an unpacked number is a power of ten, and its mantissa has all bits. -/
def isPowerOfTen (k : ℕ) : UnpackedFloat → Bool
  | .finite .positive m e _ => 2 ^ 52 ≤ m && m * 2 ^ e.toNat == 10 ^ k * 2 ^ (-e).toNat
  | _ => false

lemma isWhole_of_isPowerOfTen {x : Float} {k : ℕ} (h : isPowerOfTen k x.toModel.unpack = true) :
    IsWhole x (10 ^ k) := by
  unfold isPowerOfTen at h
  split at h
  · next m e hm hunpack =>
      simp only [Bool.and_eq_true, decide_eq_true_eq, beq_iff_eq] at h
      obtain ⟨hbits, hvalue⟩ := h
      refine ⟨m, e, hm, hunpack, ?_, hbits⟩
      have hcast : (m : ℚ) * 2 ^ e.toNat = 10 ^ k * 2 ^ (-e).toNat := by exact_mod_cast hvalue
      rw [zpow_eq_div two_ne_zero e, ← mul_div_assoc, hcast]
      push_cast
      exact mul_div_cancel_right₀ _ (by positivity)
  · cases h

lemma isPowerOfTen_powersOfTen : ∀ i : Fin Float.exactlyRepresentablePowersOfTen.size,
    isPowerOfTen i (Float.exactlyRepresentablePowersOfTen[i]).toModel.unpack = true := by
  decide +kernel

lemma isWhole_powersOfTen {k : ℕ} (hk : k < Float.exactlyRepresentablePowersOfTen.size) :
    IsWhole Float.exactlyRepresentablePowersOfTen[k] (10 ^ k) :=
  isWhole_of_isPowerOfTen (isPowerOfTen_powersOfTen ⟨k, hk⟩)

/-! ## Decimals -/

section

variable {x y z : Float} {m n k : ℕ} {e : ℤ} {hm : 0 < m}

lemma mul_of_isWhole (hx : x.toModel.unpack = .finite .positive m e hm) (hy : IsWhole y n)
    (hz : IsWhole z k) (hround : RoundsTo ((n : ℚ) * k) m e) : y * z = x := by
  obtain ⟨m₁, e₁, h₁, hunpack₁, hvalue₁, hbits₁⟩ := hy
  obtain ⟨m₂, e₂, h₂, hunpack₂, hvalue₂, -⟩ := hz
  have hcanonical := (canonical_of_unpack hx).1
  rw [← hvalue₁, ← hvalue₂] at hround
  show Float.ofModel (Float.Model.pack (UnpackedFloat.mul Format.binary64 y.toModel.unpack
    z.toModel.unpack)) = x
  rw [hunpack₁, hunpack₂, mul_eq hcanonical hround (by nlinarith)]
  exact ofModel_pack hx

lemma div_of_isWhole (hx : x.toModel.unpack = .finite .positive m e hm) (hy : IsWhole y n)
    (hz : IsWhole z k) (hround : RoundsTo ((n : ℚ) / k) m e) : y / z = x := by
  obtain ⟨m₁, e₁, h₁, hunpack₁, hvalue₁, -⟩ := hy
  obtain ⟨m₂, e₂, h₂, hunpack₂, hvalue₂, -⟩ := hz
  have hcanonical := (canonical_of_unpack hx).1
  rw [← hvalue₁, ← hvalue₂] at hround
  show Float.ofModel (Float.Model.pack (UnpackedFloat.div Format.binary64 y.toModel.unpack
    z.toModel.unpack)) = x
  rw [hunpack₁, hunpack₂, div_eq hcanonical hround]
  exact ofModel_pack hx

/-- A decimal with a power of ten as a factor. -/
lemma ofScientific_mul (hx : x.toModel.unpack = .finite .positive m e hm) (hn : 0 < n)
    (hk : k ≤ 2048) (hround : RoundsTo ((n : ℚ) * 10 ^ k) m e) :
    Float.ofScientific n false k = x := by
  have hcanonical := (canonical_of_unpack hx).1
  unfold Float.ofScientific
  by_cases hsmall : n < 2 ^ 53 ∧ k ≤ 22
  · rw [dif_pos hsmall]
    simp only [Bool.false_eq_true, if_false]
    have hpower := isWhole_powersOfTen (k := k) (Nat.lt_succ_iff.mpr hsmall.2)
    refine mul_of_isWhole hx (isWhole_toFloat hn hsmall.1) hpower ?_
    push_cast
    exact hround
  · rw [dif_neg hsmall]
    simp only [Bool.false_eq_true, if_false]
    have hvalue : RoundsTo (((n * 2 ^ 53 : ℕ) : ℚ) * 2 ^ (-53 : ℤ) * ((10 ^ k : ℕ) * 2 ^ (0 : ℤ)))
        m e := by
      have heq : ((n * 2 ^ 53 : ℕ) : ℚ) * 2 ^ (-53 : ℤ) * ((10 ^ k : ℕ) * 2 ^ (0 : ℤ)) =
          (n : ℚ) * 10 ^ k := by
        rw [zpow_neg, zpow_zero]
        push_cast
        field_simp
      rwa [heq]
    have hbits : 2 ^ 52 ≤ n * 2 ^ 53 * 10 ^ k := by
      have hpow : 0 < 10 ^ k := by positivity
      nlinarith
    have hmodel : UnpackedFloat.ofScientific Format.binary64 n (k : ℤ) =
        .finite .positive m e hm := by
      unfold UnpackedFloat.ofScientific
      have hlog : (0 : ℤ) ≤ n.log2 := Int.natCast_nonneg _
      have hmost : (2 : ℤ) ^ Format.binary64.exponentBits = 2048 := rfl
      rw [dif_neg hn.ne', if_neg (by rw [hmost]; omega), if_neg (by rw [hmost]; omega),
        if_pos (Int.natCast_nonneg k)]
      have hproduct : UnpackedFloat.mul Format.binary64
          (.finite .positive (n * 2 ^ 53) (-53) (by positivity))
          (.finite .positive (10 ^ k) 0 (by positivity)) = .finite .positive m e hm :=
        mul_eq hcanonical hvalue hbits
      simp only [← Nat.shiftLeft_eq] at hproduct
      exact hproduct
    show Float.ofModel (Float.Model.pack
      (UnpackedFloat.ofScientific Format.binary64 n (k : ℤ))) = x
    rw [hmodel]
    exact ofModel_pack hx

/-- A decimal with a power of ten as a divisor. -/
lemma ofScientific_div (hx : x.toModel.unpack = .finite .positive m e hm) (hn : 0 < n)
    (hpos : 0 < k) (hk : k ≤ 2048 + n.log2) (hround : RoundsTo ((n : ℚ) / 10 ^ k) m e) :
    Float.ofScientific n true k = x := by
  have hcanonical := (canonical_of_unpack hx).1
  unfold Float.ofScientific
  by_cases hsmall : n < 2 ^ 53 ∧ k ≤ 22
  · rw [dif_pos hsmall]
    simp only [if_true]
    have hpower := isWhole_powersOfTen (k := k) (Nat.lt_succ_iff.mpr hsmall.2)
    refine div_of_isWhole hx (isWhole_toFloat hn hsmall.1) hpower ?_
    push_cast
    exact hround
  · rw [dif_neg hsmall]
    simp only [if_true]
    have hvalue : RoundsTo ((n : ℚ) * 2 ^ (0 : ℤ) / ((10 ^ k : ℕ) * 2 ^ (0 : ℤ))) m e := by
      push_cast
      simpa using hround
    have hmodel : UnpackedFloat.ofScientific Format.binary64 n (Int.negOfNat k) =
        .finite .positive m e hm := by
      unfold UnpackedFloat.ofScientific
      have hmost : (2 : ℤ) ^ Format.binary64.exponentBits = 2048 := rfl
      have hnegative : Int.negOfNat k = -(k : ℤ) := Int.negOfNat_eq
      have htoNat : (-(-(k : ℤ))).toNat = k := by omega
      simp only [hnegative, htoNat]
      rw [dif_neg hn.ne', if_neg (by rw [hmost]; omega), if_neg (by rw [hmost]; omega),
        if_neg (by omega)]
      exact div_eq hcanonical hvalue
    show Float.ofModel (Float.Model.pack (UnpackedFloat.ofScientific Format.binary64 n _)) = x
    rw [hmodel]
    exact ofModel_pack hx

/-- What is rounded to a floating-point number is not much smaller than the least of them. -/
lemma RoundsTo.two_pow_le {v : ℚ} (hcanonical : Canonical m e) (h : RoundsTo v m e) :
    (2 : ℚ) ^ (-1075 : ℤ) ≤ v := by
  have hreach := reachBelow_le m e
  have hm : (1 : ℚ) ≤ m := by exact_mod_cast hcanonical.pos
  have hhalf : (2 : ℚ) ^ (-1 : ℤ) ≤ v / 2 ^ e := by
    have hvalue : (2 : ℚ) ^ (-1 : ℤ) = 1 / 2 := by norm_num
    linarith [h.1]
  rw [le_div_iff₀ (zpow_pos two_pos e), ← zpow_add₀ two_ne_zero] at hhalf
  have hleast := hcanonical.least
  exact le_trans (zpow_le_zpow_right₀ one_le_two (by omega)) hhalf

/-- A decimal near a floating-point number has digits enough for its places. -/
lemma places_le {v : ℚ} (hcanonical : Canonical m e) (h : RoundsTo v m e)
    (hv : v = (n : ℚ) / 10 ^ k) : 3 * k ≤ n.log2 + 1075 := by
  have hle := h.two_pow_le hcanonical
  have hn : (n : ℚ) < 2 ^ (n.log2 + 1) := by exact_mod_cast Nat.lt_log2_self
  have hten : (2 : ℚ) ^ (3 * k) ≤ 10 ^ k := two_pow_le_ten_pow le_rfl
  have hpos : (0 : ℚ) < 10 ^ k := by positivity
  rw [hv, le_div_iff₀ hpos] at hle
  have hlt : (2 : ℚ) ^ (-1075 : ℤ) * 2 ^ (3 * k) < 2 ^ (n.log2 + 1) :=
    lt_of_le_of_lt (le_trans (by gcongr) hle) hn
  rw [← zpow_natCast, ← zpow_natCast, ← zpow_add₀ two_ne_zero,
    zpow_lt_zpow_iff_right₀ one_lt_two] at hlt
  omega

/-- **A decimal is read as the floating-point number that it is near enough to.** -/
theorem Scientific.toFloat_eq (hx : x.toModel.unpack = .finite .positive m e hm) {d : Scientific}
    (hd : 0 < d.digits) (hround : RoundsTo ((d.digits : ℚ) * 10 ^ d.exponent) m e) :
    d.toFloat = x := by
  obtain ⟨hcanonical, hmost⟩ := canonical_of_unpack hx
  obtain ⟨digits, exponent⟩ := d
  simp only at hd hround
  unfold toFloat
  dsimp only
  rw [if_neg (by simpa using hd.ne')]
  by_cases hlarge : 400 < exponent
  · -- So large a decimal is not near any floating-point number.
    have hlt := hround.lt_two_pow hcanonical
    have hdigits : (1 : ℚ) ≤ digits := by exact_mod_cast hd
    have hpos : (0 : ℚ) < 10 ^ exponent := zpow_pos (by norm_num) _
    refine absurd ?_ (not_le.mpr hlt)
    calc (2 : ℚ) ^ (53 + e) ≤ 2 ^ ((1024 : ℕ) : ℤ) := zpow_le_zpow_right₀ one_le_two (by omega)
      _ = 2 ^ 1024 := zpow_natCast _ _
      _ ≤ 10 ^ 400 := two_pow_le_ten_pow (by norm_num)
      _ = 10 ^ ((400 : ℕ) : ℤ) := (zpow_natCast _ _).symm
      _ ≤ 10 ^ exponent := zpow_le_zpow_right₀ (by norm_num) hlarge.le
      _ ≤ digits * 10 ^ exponent := le_mul_of_one_le_left hpos.le hdigits
  · rw [if_neg hlarge]
    by_cases hnonneg : 0 ≤ exponent
    · rw [if_pos hnonneg]
      obtain ⟨k, rfl⟩ := Int.eq_ofNat_of_zero_le hnonneg
      rw [zpow_natCast] at hround
      exact ofScientific_mul hx hd (by omega) hround
    · rw [if_neg hnonneg]
      obtain ⟨k, rfl⟩ : ∃ k : ℕ, exponent = -k := ⟨(-exponent).toNat, by omega⟩
      rw [zpow_neg, zpow_natCast, ← div_eq_mul_inv] at hround
      have hplaces := places_le hcanonical hround rfl
      rw [if_neg (by omega), neg_neg, Int.toNat_natCast]
      exact ofScientific_div hx hd (by omega) (by omega) hround

end

end Gateware
