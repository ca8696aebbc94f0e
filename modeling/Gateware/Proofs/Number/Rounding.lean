import Mathlib.Algebra.Order.Field.Power
import Mathlib.Data.Rat.Floor
import Mathlib.Tactic.Linarith
import Mathlib.Tactic.NormNum
import Mathlib.Tactic.Ring

/-!
# Rounding to a floating-point number

The results of operations on floating-point numbers are rounded: bits are dropped from the mantissa
until what is left fits, and the last bit that stays depends on those that were dropped.  Two of
them are enough to know, the first and whether any of the others is set.

What mantissa and bits say about the number to be rounded is `Approximates`.  It is kept while bits
are dropped (`Approximates.shiftRight`), and determines the nearest whole mantissa
(`Approximates.nearest`).  So everything near enough to a floating-point number is rounded to it
(`roundWithAccuracy_eq`); how near it has to be is said by `RoundsTo`.
-/

namespace Gateware

open Float.Model Float.Model.UnpackedFloat

/-! ## Powers -/

lemma zpow_eq_div {b : ℚ} (hb : b ≠ 0) (z : ℤ) : b ^ z = b ^ z.toNat / b ^ (-z).toNat := by
  have hz : z = (z.toNat : ℤ) - ((-z).toNat : ℤ) := by omega
  conv_lhs => rw [hz, zpow_sub₀ hb, zpow_natCast, zpow_natCast]

lemma two_pow_le_ten_pow {R : Type} [Semiring R] [LinearOrder R] [IsStrictOrderedRing R] {k n : ℕ}
    (h : k ≤ 3 * n) : (2 : R) ^ k ≤ 10 ^ n := calc
  (2 : R) ^ k ≤ 2 ^ (3 * n) := pow_le_pow_right₀ one_le_two h
  _ = (2 ^ 3) ^ n := pow_mul 2 3 n
  _ ≤ 10 ^ n := pow_le_pow_left₀ (by positivity) (by norm_num) n

/-! ## Nearest whole numbers -/

/-- A whole number is nearest to `x`, with a half going to the even one. -/
def Nearest (x : ℚ) (n : ℕ) : Prop :=
  (n : ℚ) - 1 / 2 ≤ x ∧ x ≤ n + 1 / 2 ∧ (x = n - 1 / 2 ∨ x = n + 1 / 2 → n % 2 = 0)

lemma Nearest.le {x : ℚ} {n k : ℕ} (hn : Nearest x n) (hk : Nearest x k) : n ≤ k := by
  obtain ⟨hlow, -, htie⟩ := hn
  obtain ⟨-, hhigh, htie'⟩ := hk
  by_contra hlt
  have hsucc : k + 1 ≤ n := by omega
  have hcast : (k : ℚ) + 1 ≤ n := by exact_mod_cast hsucc
  -- They are next to each other, with `x` in the middle, so both would be even.
  have hx : x = n - 1 / 2 := by linarith
  have hx' : x = k + 1 / 2 := by linarith
  have heq : n = k + 1 := by
    have : (n : ℚ) = k + 1 := by linarith
    exact_mod_cast this
  have heven := htie (.inl hx)
  have heven' := htie' (.inr hx')
  omega

lemma Nearest.unique {x : ℚ} {n k : ℕ} (hn : Nearest x n) (hk : Nearest x k) : n = k :=
  le_antisymm (hn.le hk) (hk.le hn)

/-! ## Mantissas and dropped bits -/

/-- What a mantissa and the bits that were dropped from it say about a number: the first bit counts
one half, and the other says whether there is more. -/
def Approximates (em : ExtendedMantissa) (x : ℚ) : Prop :=
  ∃ more : ℚ, x = em.mantissa + (em.roundBit.toNat : ℚ) / 2 + more ∧ 0 ≤ more ∧ more < 1 / 2 ∧
    (em.stickyBit = true ↔ 0 < more)

section

variable {em : ExtendedMantissa} {x : ℚ}

lemma Approximates.bounds (h : Approximates em x) :
    (em.mantissa : ℚ) ≤ x ∧ x < em.mantissa + 1 := by
  obtain ⟨more, rfl, hnonneg, hlt, -⟩ := h
  cases em.roundBit with
  | false =>
      simp only [Bool.toNat_false, Nat.cast_zero]
      constructor <;> linarith
  | true =>
      simp only [Bool.toNat_true, Nat.cast_one]
      constructor <;> linarith

lemma Approximates.nearest (h : Approximates em x) : Nearest x em.roundedMantissa := by
  obtain ⟨m, r, s⟩ := em
  obtain ⟨more, rfl, hnonneg, hlt, hsticky⟩ := h
  cases r with
  | false =>
      have hrounded : ExtendedMantissa.roundedMantissa ⟨m, false, s⟩ = m := by cases s <;> rfl
      rw [hrounded]
      simp only [Bool.toNat_false, Nat.cast_zero]
      refine ⟨by linarith, by linarith, ?_⟩
      rintro (hx | hx) <;> linarith
  | true =>
      simp only [Bool.toNat_true, Nat.cast_one]
      cases s with
      | false =>
          -- Exactly one half was dropped.
          have hmore : more = 0 := by
            by_contra hne
            have hpos : 0 < more := lt_of_le_of_ne hnonneg (Ne.symm hne)
            exact absurd (hsticky.mpr hpos) (by simp)
          change Nearest _ (m + m % 2)
          rw [hmore]
          rcases Nat.mod_two_eq_zero_or_one m with hm | hm
          · rw [hm]
            exact ⟨by push_cast; linarith, by push_cast; linarith, fun _ => by omega⟩
          · rw [hm]
            exact ⟨by push_cast; linarith, by push_cast; linarith, fun _ => by omega⟩
      | true =>
          have hpos : 0 < more := hsticky.mp rfl
          change Nearest _ (m + 1)
          push_cast [Nearest]
          refine ⟨by linarith, by linarith, ?_⟩
          rintro (hx | hx) <;> linarith

lemma Approximates.shiftRightOne (h : Approximates em x) :
    Approximates em.shiftRightOne (x / 2) := by
  obtain ⟨m, r, s⟩ := em
  obtain ⟨more, rfl, hnonneg, hlt, hsticky⟩ := h
  have hm : ((m % 2 : ℕ) : ℚ) + 2 * ((m / 2 : ℕ) : ℚ) = m := by exact_mod_cast Nat.mod_add_div m 2
  have hbit : (m % 2 != 0).toNat = m % 2 := by
    rcases Nat.mod_two_eq_zero_or_one m with hm | hm <;> rw [hm] <;> rfl
  have hr : (r.toNat : ℚ) ≤ 1 := by exact_mod_cast r.toNat_le
  have hr' : (0 : ℚ) ≤ r.toNat := Nat.cast_nonneg _
  refine ⟨(r.toNat : ℚ) / 4 + more / 2, ?_, by linarith, by linarith, ?_⟩
  · simp only [ExtendedMantissa.shiftRightOne, hbit]
    linarith
  · simp only [ExtendedMantissa.shiftRightOne, Bool.or_eq_true, hsticky]
    cases r with
    | false => simp
    | true =>
        simp only [Bool.toNat_true, Nat.cast_one, true_or, true_iff]
        linarith

lemma Approximates.shiftRight (h : Approximates em x) (n : ℕ) :
    Approximates (em >>> n) (x / 2 ^ n) := by
  change Approximates (n.repeat ExtendedMantissa.shiftRightOne em) _
  induction n with
  | zero => simpa [Nat.repeat] using h
  | succ n ih =>
      rw [Nat.repeat, pow_succ, ← div_div]
      exact ih.shiftRightOne

lemma approximates_exact (m : ℕ) :
    Approximates (.ofMantissaAndAccuracy m .exact) (m : ℚ) :=
  ⟨0, by simp [ExtendedMantissa.ofMantissaAndAccuracy],
    le_refl _, by norm_num, by simp [ExtendedMantissa.ofMantissaAndAccuracy]⟩

/-- A quotient of whole numbers, with the remainder as the bits that were dropped. -/
lemma approximates_div (n : ℕ) {d : ℕ} (hd : 0 < d) :
    Approximates (.ofMantissaAndAccuracy (n / d) (accuracyOfFraction (n % d) d)) ((n : ℚ) / d) := by
  have hd' : (0 : ℚ) < d := by exact_mod_cast hd
  have hdiv : (n : ℚ) / d = (n / d : ℕ) + ((n % d : ℕ) : ℚ) / d := by
    have hsum : ((n % d : ℕ) : ℚ) + d * ((n / d : ℕ) : ℚ) = n := by
      exact_mod_cast Nat.mod_add_div n d
    rw [← hsum]
    field_simp
    ring
  have hlt : ((n % d : ℕ) : ℚ) / d < 1 := by
    rw [div_lt_one hd']
    exact_mod_cast Nat.mod_lt n hd
  rw [hdiv]
  generalize hrest : n % d = rest at hlt ⊢
  have hnonneg : (0 : ℚ) ≤ (rest : ℚ) / d := by positivity
  unfold accuracyOfFraction
  split_ifs with hzero
  · rw [hzero]
    simpa using approximates_exact (n / d)
  · have hpos : (0 : ℚ) < (rest : ℚ) / d := by
      have : 0 < rest := Nat.pos_of_ne_zero hzero
      positivity
    cases hcompare : compare (2 * rest) d with
    | lt =>
        have hless : (rest : ℚ) / d < 1 / 2 := by
          rw [div_lt_iff₀ hd']
          have : 2 * rest < d := compare_lt_iff_lt.mp hcompare
          have : 2 * (rest : ℚ) < d := by exact_mod_cast this
          linarith
        exact ⟨_, by simp [ExtendedMantissa.ofMantissaAndAccuracy], hnonneg, hless,
          by simpa [ExtendedMantissa.ofMantissaAndAccuracy] using hpos⟩
    | eq =>
        have hsame : (rest : ℚ) / d = 1 / 2 := by
          rw [div_eq_iff hd'.ne']
          have : 2 * rest = d := compare_eq_iff_eq.mp hcompare
          have : 2 * (rest : ℚ) = d := by exact_mod_cast this
          linarith
        refine ⟨0, ?_, le_refl _, by norm_num, by simp [ExtendedMantissa.ofMantissaAndAccuracy]⟩
        simp [ExtendedMantissa.ofMantissaAndAccuracy, hsame]
    | gt =>
        have hmore : 1 / 2 < (rest : ℚ) / d := by
          rw [lt_div_iff₀ hd']
          have : d < 2 * rest := compare_gt_iff_gt.mp hcompare
          have : (d : ℚ) < 2 * rest := by exact_mod_cast this
          linarith
        refine ⟨(rest : ℚ) / d - 1 / 2, ?_, by linarith, by linarith, ?_⟩
        · simp [ExtendedMantissa.ofMantissaAndAccuracy]
        · simp only [ExtendedMantissa.ofMantissaAndAccuracy, true_iff]
          linarith

end

/-! ## Rounding -/

/-- A mantissa and an exponent in the form in which floating-point numbers have them: the mantissa
has 53 bits, or fewer if the exponent is the least one. -/
structure Canonical (m : ℕ) (e : ℤ) : Prop where
  pos : 0 < m
  lt : m < 2 ^ 53
  least : -1074 ≤ e
  normal : 2 ^ 52 ≤ m ∨ e = -1074

/-- How far below a floating-point number the numbers are that are rounded to it, in units of its
last bit.  Below a power of two the next one is only half as far away. -/
def reachBelow (m : ℕ) (e : ℤ) : ℚ := if m = 2 ^ 52 ∧ e ≠ -1074 then 1 / 4 else 1 / 2

/-- A number is so near to `m * 2 ^ e` that it is rounded to it.  At the ends of the interval that
depends on whether the mantissa is even. -/
def RoundsTo (x : ℚ) (m : ℕ) (e : ℤ) : Prop :=
  (m : ℚ) - reachBelow m e ≤ x / 2 ^ e ∧ x / 2 ^ e ≤ m + 1 / 2 ∧
    (x / 2 ^ e = m - reachBelow m e ∨ x / 2 ^ e = m + 1 / 2 → m % 2 = 0)

lemma targetExponent_eq (t : ℤ) : Format.binary64.targetExponent t = max (t - 53) (-1074) := rfl

lemma reachBelow_le (m : ℕ) (e : ℤ) : reachBelow m e ≤ 1 / 2 := by
  unfold reachBelow
  split_ifs <;> norm_num

lemma reachBelow_pos (m : ℕ) (e : ℤ) : 0 < reachBelow m e := by
  unfold reachBelow
  split_ifs <;> norm_num

lemma Canonical.targetExponent {m : ℕ} {e : ℤ} (h : Canonical m e) :
    Format.binary64.targetExponent (totalExponent m e) = e := by
  have hle : m.log2 ≤ 52 := Nat.lt_succ_iff.mp ((Nat.log2_lt h.pos.ne').mpr h.lt)
  have hleast := h.least
  rw [targetExponent_eq, totalExponent]
  rcases h.normal with hnormal | hleast'
  · have hge : 52 ≤ m.log2 := (Nat.le_log2 h.pos.ne').mpr hnormal
    omega
  · omega

section

variable {x : ℚ} {m : ℕ} {e : ℤ}

lemma RoundsTo.nearest (h : RoundsTo x m e) : Nearest (x / 2 ^ e) m := by
  obtain ⟨hlow, hhigh, htie⟩ := h
  have hreach := reachBelow_le m e
  refine ⟨by linarith, hhigh, ?_⟩
  rintro (hx | hx)
  · exact htie (.inl (by linarith))
  · exact htie (.inr hx)

lemma RoundsTo.lt_two_pow (hcanonical : Canonical m e) (hx : RoundsTo x m e) :
    x < (2 : ℚ) ^ (53 + e) := by
  have hm : (m : ℚ) + 1 ≤ 2 ^ 53 := by exact_mod_cast hcanonical.lt
  have hlt : x / 2 ^ e < 2 ^ 53 := by linarith [hx.2.1]
  rw [div_lt_iff₀ (zpow_pos two_pos e)] at hlt
  rwa [zpow_add₀ two_ne_zero]

variable {M : ℕ} {E : ℤ}

lemma lt_two_pow_of_lt (h : x < (M + 1) * 2 ^ E) : x < (2 : ℚ) ^ (M.log2 + 1 + E) := by
  have hM : (M : ℚ) + 1 ≤ 2 ^ (M.log2 + 1) := by exact_mod_cast Nat.lt_log2_self
  calc x < (M + 1) * 2 ^ E := h
    _ ≤ 2 ^ (M.log2 + 1) * 2 ^ E := by gcongr
    _ = 2 ^ ((M.log2 : ℤ) + 1 + E) := by
        rw [zpow_add₀ two_ne_zero]
        norm_cast

lemma two_pow_le_of_le (hM : M ≠ 0) (h : (M : ℚ) * 2 ^ E ≤ x) : (2 : ℚ) ^ (M.log2 + E) ≤ x := by
  have hpow : (2 : ℚ) ^ M.log2 ≤ M := by exact_mod_cast Nat.log2_self_le hM
  calc (2 : ℚ) ^ ((M.log2 : ℤ) + E) = 2 ^ M.log2 * 2 ^ E := by
        rw [zpow_add₀ two_ne_zero, zpow_natCast]
    _ ≤ M * 2 ^ E := by gcongr
    _ ≤ x := h

/-- The exponent at which a number is rounded is that of the floating-point number to which it is
rounded, or the one below if that is a power of two and is reached from below. -/
lemma RoundsTo.target (hcanonical : Canonical m e) (hx : RoundsTo x m e)
    (hlow : (M : ℚ) * 2 ^ E ≤ x) (hhigh : x < (M + 1) * 2 ^ E)
    (hE : E ≤ Format.binary64.targetExponent (totalExponent M E)) :
    Format.binary64.targetExponent (totalExponent M E) = e ∨
      Format.binary64.targetExponent (totalExponent M E) = e - 1 ∧ m = 2 ^ 52 ∧ e ≠ -1074 ∧
        x / 2 ^ e < 2 ^ 52 := by
  have hleast := hcanonical.least
  have hupper := lt_two_pow_of_lt hhigh
  rw [targetExponent_eq, totalExponent] at *
  have hle : max ((M.log2 : ℤ) + 1 + E - 53) (-1074) ≤ e := by
    by_cases hM : M = 0
    · rw [hM, Nat.log2_zero] at hE ⊢
      omega
    · have hlt := (two_pow_le_of_le hM hlow).trans_lt (hx.lt_two_pow hcanonical)
      rw [zpow_lt_zpow_iff_right₀ one_lt_two] at hlt
      omega
  by_cases heq : max ((M.log2 : ℤ) + 1 + E - 53) (-1074) = e
  · exact .inl heq
  · right
    have hsmall : x / 2 ^ e < 2 ^ 52 := by
      have hexponent : (M.log2 : ℤ) + 1 + E ≤ 52 + e := by omega
      have hpow : x < (2 : ℚ) ^ (52 + e) :=
        hupper.trans_le (zpow_le_zpow_right₀ one_le_two hexponent)
      rw [zpow_add₀ two_ne_zero] at hpow
      rwa [div_lt_iff₀ (zpow_pos two_pos e)]
    have hreach := reachBelow_le m e
    have hm : m = 2 ^ 52 := by
      have hge : 2 ^ 52 ≤ m := hcanonical.normal.resolve_right (by omega)
      have hlt : (m : ℚ) < 2 ^ 52 + 1 := by linarith [hx.1]
      have hlt' : m < 2 ^ 52 + 1 := by exact_mod_cast hlt
      omega
    refine ⟨?_, hm, by omega, hsmall⟩
    -- The number is at least half as large as the power of two.
    have hhalf : (2 : ℚ) ^ (51 + e) ≤ x := by
      have hge : (2 : ℚ) ^ 51 ≤ x / 2 ^ e := by
        have hcast : (m : ℚ) = 2 ^ 52 := by exact_mod_cast hm
        linarith [hx.1]
      rw [le_div_iff₀ (zpow_pos two_pos e)] at hge
      rwa [zpow_add₀ two_ne_zero]
    have hlt := hhalf.trans_lt hupper
    rw [zpow_lt_zpow_iff_right₀ one_lt_two] at hlt
    omega

variable {accuracy : Accuracy}

/-- Dropping bits up to a larger exponent. -/
lemma Approximates.shiftToExponent {T : ℤ}
    (h : Approximates (.ofMantissaAndAccuracy M accuracy) (x / 2 ^ E)) (hT : E ≤ T) :
    (shiftToExponent M E accuracy T).2 = T ∧
      Approximates (shiftToExponent M E accuracy T).1 (x / 2 ^ T) := by
  have hsum : E + ((T - E).toNat : ℤ) = T := by omega
  have hshift := h.shiftRight (T - E).toNat
  rw [div_div, ← zpow_natCast, ← zpow_add₀ two_ne_zero, hsum] at hshift
  exact ⟨hsum, hshift⟩

lemma shiftToTargetExponent_eq {T : ℤ}
    (h : Format.binary64.targetExponent (totalExponent M E) = T) :
    shiftToTargetExponent Format.binary64 M E accuracy = shiftToExponent M E accuracy T := by
  rw [shiftToTargetExponent, h]

/-- A mantissa that fits is left as it is. -/
lemma Canonical.shiftToTargetExponent (h : Canonical m e) :
    shiftToTargetExponent Format.binary64 m e .exact = (⟨m, false, false⟩, e) := by
  rw [shiftToTargetExponent_eq h.targetExponent, UnpackedFloat.shiftToExponent]
  simp only [sub_self, Int.toNat_zero, Nat.cast_zero, add_zero]
  rfl

/-- A mantissa that has become too large by rounding is halved. -/
lemma shiftToTargetExponent_carry (he : -1074 < e) :
    shiftToTargetExponent Format.binary64 (2 ^ 53) (e - 1) .exact =
      (⟨2 ^ 52, false, false⟩, e) := by
  have htarget : Format.binary64.targetExponent (totalExponent (2 ^ 53) (e - 1)) = e := by
    rw [targetExponent_eq, totalExponent, Nat.log2_two_pow]
    omega
  rw [shiftToTargetExponent_eq htarget, UnpackedFloat.shiftToExponent]
  simp only [sub_sub_cancel, Int.toNat_one, Nat.cast_one, sub_add_cancel]
  rfl

lemma roundWithAccuracy_of {sign : Sign} {rounded : ℕ} {T : ℤ} (hm : 0 < m)
    (htarget : Format.binary64.targetExponent (totalExponent M E) = T)
    (hexponent : (shiftToExponent M E accuracy T).2 = T)
    (hrounded : (shiftToExponent M E accuracy T).1.roundedMantissa = rounded)
    (hsecond : shiftToTargetExponent Format.binary64 rounded T .exact = (⟨m, false, false⟩, e)) :
    roundWithAccuracy Format.binary64 sign M E accuracy = .finite sign m e hm := by
  unfold roundWithAccuracy
  dsimp only
  rw [shiftToTargetExponent_eq htarget, hexponent, hrounded, hsecond]
  exact dif_neg hm.ne'

/-- **What is near enough to a floating-point number is rounded to it.** -/
theorem roundWithAccuracy_eq {sign : Sign} (hcanonical : Canonical m e) (hx : RoundsTo x m e)
    (h : Approximates (.ofMantissaAndAccuracy M accuracy) (x / 2 ^ E))
    (hE : E ≤ Format.binary64.targetExponent (totalExponent M E)) :
    roundWithAccuracy Format.binary64 sign M E accuracy = .finite sign m e hcanonical.pos := by
  have hpos : (0 : ℚ) < 2 ^ E := zpow_pos two_pos E
  have hmantissa : (ExtendedMantissa.ofMantissaAndAccuracy M accuracy).mantissa = M := by
    rcases accuracy with _ | (_ | _ | _) <;> rfl
  obtain ⟨hlow, hhigh⟩ := h.bounds
  rw [hmantissa, le_div_iff₀ hpos] at hlow
  rw [hmantissa, div_lt_iff₀ hpos] at hhigh
  obtain ⟨hexponent, hshifted⟩ := h.shiftToExponent hE
  rcases hx.target hcanonical hlow hhigh hE with htarget | ⟨htarget, hm, hnormal, hbelow⟩
  · rw [htarget] at hexponent hshifted
    exact roundWithAccuracy_of hcanonical.pos htarget hexponent
      (hshifted.nearest.unique hx.nearest) hcanonical.shiftToTargetExponent
  · -- One bit more is kept, and rounding carries over to the power of two.
    rw [htarget] at hexponent hshifted
    have hleast := hcanonical.least
    have hnearest : Nearest (x / 2 ^ (e - 1)) (2 ^ 53) := by
      have hdouble : x / 2 ^ (e - 1) = 2 * (x / 2 ^ e) := by
        rw [zpow_sub_one₀ two_ne_zero]
        field_simp
      have hcast : (m : ℚ) = 2 ^ 52 := by exact_mod_cast hm
      have hreach : reachBelow m e = 1 / 4 := if_pos ⟨hm, hnormal⟩
      have hlow := hx.1
      rw [hcast, hreach] at hlow
      rw [hdouble]
      push_cast [Nearest]
      exact ⟨by linarith, by linarith, fun _ => by norm_num⟩
    subst hm
    exact roundWithAccuracy_of hcanonical.pos htarget hexponent
      (hshifted.nearest.unique hnearest) (shiftToTargetExponent_carry (by omega))

end

/-! ## Products and quotients -/

section

variable {m m₁ m₂ : ℕ} {e e₁ e₂ : ℤ} {s₁ s₂ : Sign} {h₁ : 0 < m₁} {h₂ : 0 < m₂}

/-- A product is rounded, if its mantissa has bits enough. -/
lemma mul_eq (hcanonical : Canonical m e)
    (hx : RoundsTo ((m₁ : ℚ) * 2 ^ e₁ * (m₂ * 2 ^ e₂)) m e) (hbits : 2 ^ 52 ≤ m₁ * m₂) :
    UnpackedFloat.mul Format.binary64 (.finite s₁ m₁ e₁ h₁) (.finite s₂ m₂ e₂ h₂) =
      .finite (s₁ * s₂) m e hcanonical.pos := by
  have hexact := approximates_exact (m₁ * m₂)
  have hvalue : (m₁ : ℚ) * 2 ^ e₁ * (m₂ * 2 ^ e₂) / 2 ^ (e₁ + e₂) = (m₁ * m₂ : ℕ) := by
    rw [zpow_add₀ two_ne_zero]
    push_cast
    field_simp
  rw [← hvalue] at hexact
  refine roundWithAccuracy_eq hcanonical hx hexact ?_
  have hlog : 52 ≤ (m₁ * m₂).log2 := (Nat.le_log2 (by positivity)).mpr hbits
  rw [targetExponent_eq, totalExponent]
  omega

/-- The exponent at which a quotient is computed leaves bits enough to round it. -/
lemma divCore_exponent {E : ℤ} {k : ℕ} (h₁ : 0 < m₁) (h₂ : 0 < m₂) (hk : k = (e₁ - e₂ - E).toNat)
    (hle : E ≤ e₁ - e₂)
    (htarget : E ≤ Format.binary64.targetExponent (totalExponent m₁ e₁ - totalExponent m₂ e₂)) :
    E ≤ Format.binary64.targetExponent (totalExponent (m₁ * 2 ^ k / m₂) E) := by
  rw [targetExponent_eq, totalExponent, totalExponent] at htarget
  rw [targetExponent_eq, totalExponent]
  by_cases hleast : E ≤ -1074
  · omega
  · have hbits : m₂.log2 + 53 ≤ m₁.log2 + k := by omega
    have hquotient : 2 ^ 52 ≤ m₁ * 2 ^ k / m₂ := by
      rw [Nat.le_div_iff_mul_le h₂]
      calc 2 ^ 52 * m₂ ≤ 2 ^ 52 * 2 ^ (m₂.log2 + 1) := by
            gcongr
            exact Nat.lt_log2_self.le
        _ = 2 ^ (m₂.log2 + 53) := by
            rw [← pow_add]
            congr 1
            omega
        _ ≤ 2 ^ (m₁.log2 + k) := Nat.pow_le_pow_right two_pos hbits
        _ = 2 ^ m₁.log2 * 2 ^ k := pow_add _ _ _
        _ ≤ m₁ * 2 ^ k := by
            gcongr
            exact Nat.log2_self_le h₁.ne'
    have hpos : 0 < m₁ * 2 ^ k / m₂ := lt_of_lt_of_le (by positivity) hquotient
    have hlog : 52 ≤ (m₁ * 2 ^ k / m₂).log2 := (Nat.le_log2 hpos.ne').mpr hquotient
    omega

/-- A quotient is rounded. -/
lemma div_eq (hcanonical : Canonical m e)
    (hx : RoundsTo ((m₁ : ℚ) * 2 ^ e₁ / (m₂ * 2 ^ e₂)) m e) :
    UnpackedFloat.div Format.binary64 (.finite s₁ m₁ e₁ h₁) (.finite s₂ m₂ e₂ h₂) =
      .finite (s₁ / s₂) m e hcanonical.pos := by
  show roundWithAccuracy Format.binary64 (s₁ / s₂) _ _ _ = _
  generalize hE : min (e₁ - e₂) (Format.binary64.targetExponent
    (totalExponent m₁ e₁ - totalExponent m₂ e₂)) = E
  generalize hk : (e₁ - e₂ - E).toNat = k
  have hle : E ≤ e₁ - e₂ := by omega
  rw [Nat.shiftLeft_eq]
  have hquotient := approximates_div (m₁ * 2 ^ k) h₂
  have hvalue : (m₁ : ℚ) * 2 ^ e₁ / (m₂ * 2 ^ e₂) / 2 ^ E = ((m₁ * 2 ^ k : ℕ) : ℚ) / m₂ := by
    have hexponent : e₁ = e₂ + E + k := by omega
    rw [hexponent, zpow_add₀ two_ne_zero, zpow_add₀ two_ne_zero]
    push_cast
    field_simp
    rw [zpow_natCast]
  rw [← hvalue] at hquotient
  exact roundWithAccuracy_eq hcanonical hx hquotient
    (divCore_exponent h₁ h₂ hk.symm hle (by omega))

end

end Gateware
