import Gateware.Timing.Cost
import Gateware.Proofs.Number.Packing

/-!
# Whole cycles that cover a cost

The whole cycles of a cost cover it (`Cycles.Covers`) if they are the least number from one on that
the cost is at most, or the largest number of 32 bits if the cost is above all of them.  Costs are
compared by their exact values, infinite ones included.

A cost that is not a number is the one exception: it gets no cycle at all (`whole_eq_zero`), where
every other cost is covered (`covers_whole`).  A sum is such a cost if one of its terms is, and also
if an infinite term meets a running total that is infinite with the other sign
(`ofFloat_add_eq_nan_iff`).  `Addable` follows the totals and says for which costs neither happens.
Finite costs are always among them, even when a total becomes too large for a finite number
(`addable_of_isFinite`).
-/

namespace Gateware

open Float.Model Float.Model.UnpackedFloat

/-! ## Exact values -/

namespace Exact

/-- A number is at most a whole one.  What is not a number is not at most anything. -/
def AtMost : Exact → ℕ → Prop
  | nan, _ => False
  | infinite negative, _ => negative = true
  | finite negative m e, n => (if negative then -(m * 2 ^ e) else m * 2 ^ e : ℚ) ≤ n

lemma ceilMagnitude_le_iff (m : ℕ) (e : ℤ) (n : ℕ) :
    ceilMagnitude m e ≤ n ↔ (m : ℚ) * 2 ^ e ≤ n := by
  have hpos : 0 < 2 ^ (-e).toNat := by positivity
  have hcast : (m : ℚ) * 2 ^ e = ((m * 2 ^ e.toNat : ℕ) : ℚ) / (2 ^ (-e).toNat : ℕ) := by
    rw [zpow_eq_div two_ne_zero, mul_div_assoc']
    push_cast
    rfl
  show (m * 2 ^ e.toNat + 2 ^ (-e).toNat - 1) / 2 ^ (-e).toNat ≤ n ↔ _
  rw [hcast, div_le_iff₀ (by exact_mod_cast hpos), Nat.div_le_iff_le_mul_add_pred hpos]
  norm_cast
  rw [mul_comm n]
  omega

/-- Whether there is a number, and it is not infinite. -/
def isFinite : Exact → Bool
  | finite .. => true
  | _ => false

/-- Two infinite numbers with different signs. -/
def Opposes (x y : Exact) : Prop := ∃ negative, x = infinite negative ∧ y = infinite !negative

instance (x y : Exact) : Decidable (Opposes x y) :=
  inferInstanceAs (Decidable (∃ negative, x = infinite negative ∧ y = infinite !negative))

lemma ne_nan_of_isFinite {x : Exact} (h : x.isFinite = true) : x ≠ nan := by
  rintro rfl
  cases h

lemma not_opposes_of_isFinite (x : Exact) {y : Exact} (h : y.isFinite = true) : ¬ x.Opposes y := by
  rintro ⟨negative, -, rfl⟩
  cases h

end Exact

/-! ## Sums -/

lemma isNaN_unpack_packComponents (s : Sign) (exponent : BitVec 11) (mantissa : BitVec 52)
    (h : exponent ≠ -1#11 ∨ mantissa = 0#52) :
    (UnpackedFloat.unpack Format.binary64
      (packComponents Format.binary64 s exponent mantissa)).isNaN = false := by
  unfold UnpackedFloat.unpack
  simp only [unpackMantissa_packComponents, unpackExponent_packComponents]
  split_ifs with hspecial hinfinite hzero hnone
  · rfl
  · exact absurd hspecial (h.resolve_right hinfinite)
  · rfl
  · rfl
  · rfl

/-- Whatever is put into bits, only what is not a number is taken out as such. -/
lemma isNaN_unpack_pack (u : UnpackedFloat) : (Float.Model.pack u).unpack.isNaN = u.isNaN := by
  cases u with
  | notANumber => rfl
  | infinity s => cases s <;> rfl
  | zero s => cases s <;> rfl
  | finite s m e hm =>
      show (UnpackedFloat.unpack Format.binary64
        (if 2 ^ 11 ≤ (e + 1023 + 52).toNat + 1 then packedInfinity Format.binary64 s
        else if m.log2 + 1 = 53 then packComponents Format.binary64 s
          (BitVec.ofNat 11 (e + 1023 + 52).toNat) (BitVec.ofNat 52 m)
        else packComponents Format.binary64 s 0#11 (BitVec.ofNat 52 m))).isNaN = false
      split_ifs with hlarge hnormal
      · exact isNaN_unpack_packComponents s _ _ (.inr rfl)
      · refine isNaN_unpack_packComponents s _ _ (.inl ?_)
        exact ofNat_ne_ofNat (k := 2047) (by omega) (by omega) (by omega)
      · exact isNaN_unpack_packComponents s _ _ (.inl (by decide))

lemma isNaN_round (sign : Sign) (m : ℕ) (e : ℤ) :
    (UnpackedFloat.round Format.binary64 sign m e).isNaN = false := by
  unfold UnpackedFloat.round roundWithAccuracy
  dsimp only
  split_ifs <;> rfl

lemma isNaN_normalize (m e : ℤ) (sign : Sign) :
    (UnpackedFloat.normalize Format.binary64 m e sign).isNaN = false := by
  unfold UnpackedFloat.normalize
  split
  · exact isNaN_round _ _ _
  · rfl
  · exact isNaN_round _ _ _

lemma ofFloat_eq_nan_iff (x : Float) :
    Exact.ofFloat x = .nan ↔ x.toModel.unpack.isNaN = true := by
  unfold Exact.ofFloat
  cases x.toModel.unpack with
  | notANumber => exact iff_of_true rfl rfl
  | infinity s => exact iff_of_false (by simp) Bool.false_ne_true
  | zero s => exact iff_of_false (by simp) Bool.false_ne_true
  | finite s m e hm => exact iff_of_false (by simp) Bool.false_ne_true

/-- A sum is not a number if one of its terms is not, or if they are infinite on both sides. -/
lemma ofFloat_add_eq_nan_iff (x y : Float) :
    Exact.ofFloat (x + y) = .nan ↔
      Exact.ofFloat x = .nan ∨ Exact.ofFloat y = .nan ∨
        (Exact.ofFloat x).Opposes (Exact.ofFloat y) := by
  have hadd : (x + y).toModel.unpack.isNaN =
      (UnpackedFloat.add Format.binary64 x.toModel.unpack y.toModel.unpack).isNaN :=
    isNaN_unpack_pack _
  rw [ofFloat_eq_nan_iff, hadd]
  unfold Exact.ofFloat
  cases x.toModel.unpack with
  | notANumber => exact iff_of_true rfl (.inl rfl)
  | infinity s =>
      cases y.toModel.unpack with
      | notANumber => exact iff_of_true rfl (.inr (.inl rfl))
      | infinity s' => cases s <;> cases s' <;> decide
      | zero | finite => exact iff_of_false Bool.false_ne_true (by simp [Exact.Opposes])
  | zero s =>
      cases y.toModel.unpack with
      | notANumber => exact iff_of_true rfl (.inr (.inl rfl))
      | zero s' => cases s <;> cases s' <;> decide
      | infinity | finite => exact iff_of_false Bool.false_ne_true (by simp [Exact.Opposes])
  | finite s m e hm =>
      cases y.toModel.unpack with
      | notANumber => exact iff_of_true rfl (.inr (.inl rfl))
      | infinity | zero => exact iff_of_false Bool.false_ne_true (by simp [Exact.Opposes])
      | finite s' m' e' hm' =>
          refine iff_of_false ?_ (by simp [Exact.Opposes])
          rw [Bool.not_eq_true]
          exact isNaN_normalize _ _ _

namespace Cycles

/-- The exact value of a cost. -/
def exact (c : Cycles) : Exact := Exact.ofFloat c.value

/-- Costs that can be added to a total one after another: all are numbers, and none of them is
infinite when the total so far is infinite with the other sign. -/
def Addable (total : Cycles) : List Cycles → Prop
  | [] => True
  | c :: costs => c.exact ≠ .nan ∧ ¬ total.exact.Opposes c.exact ∧ Addable (total.add c) costs

instance decidableAddable (total : Cycles) : (costs : List Cycles) → Decidable (Addable total costs)
  | [] => inferInstanceAs (Decidable True)
  | c :: costs =>
      have := decidableAddable (total.add c) costs
      inferInstanceAs (Decidable (c.exact ≠ .nan ∧ ¬ total.exact.Opposes c.exact ∧
        Addable (total.add c) costs))

lemma exact_foldl_ne_nan_iff (total : Cycles) (costs : List Cycles) :
    (costs.foldl add total).exact ≠ .nan ↔ total.exact ≠ .nan ∧ Addable total costs := by
  induction costs generalizing total with
  | nil => exact (and_true _).symm.to_iff
  | cons c costs ih =>
      have hstep : (total.add c).exact = .nan ↔
          total.exact = .nan ∨ c.exact = .nan ∨ total.exact.Opposes c.exact :=
        ofFloat_add_eq_nan_iff _ _
      rw [List.foldl_cons, ih, ne_eq, hstep, not_or, not_or, and_assoc, and_assoc]
      rfl

lemma exact_sum_ne_nan_iff (costs : List Cycles) :
    (sum costs).exact ≠ .nan ↔ Addable zero costs := by
  have hzero : zero.exact ≠ .nan := by decide +kernel
  rw [sum, exact_foldl_ne_nan_iff, and_iff_right hzero]

lemma addable_of_isFinite (total : Cycles) {costs : List Cycles}
    (h : ∀ c ∈ costs, c.exact.isFinite = true) : Addable total costs := by
  induction costs generalizing total with
  | nil => trivial
  | cons c costs ih =>
      obtain ⟨hc, hcosts⟩ := List.forall_mem_cons.mp h
      exact ⟨Exact.ne_nan_of_isFinite hc, Exact.not_opposes_of_isFinite _ hc, ih _ hcosts⟩

/-! ## Covering -/

/-- A number of whole cycles covers a cost: it is the least one from one on that the cost is at
most, or the largest number there is if the cost is above it. -/
structure Covers (c : Cycles) (n : ℕ) : Prop where
  one_le : 1 ≤ n
  le_max : n ≤ maxWord
  least : c.exact.AtMost maxWord → IsLeast {k | 1 ≤ k ∧ c.exact.AtMost k} n
  capped : ¬ c.exact.AtMost maxWord → n = maxWord

variable {c : Cycles}

lemma covers_of_atMost_iff {ceiling : ℕ} (h : ∀ k, c.exact.AtMost k ↔ ceiling ≤ k) :
    c.Covers (min (max 1 ceiling) maxWord) := by
  have hone : 1 ≤ maxWord := by decide
  refine ⟨by omega, by omega, ?_, ?_⟩
  · intro hle
    rw [h] at hle
    rw [min_eq_left (by omega)]
    refine ⟨⟨le_max_left _ _, (h _).mpr (le_max_right _ _)⟩, ?_⟩
    rintro k ⟨hk, hcost⟩
    exact max_le hk ((h k).mp hcost)
  · intro hlt
    rw [h] at hlt
    rw [min_eq_right (by omega)]

lemma covers_one (h : ∀ k, c.exact.AtMost k) : c.Covers 1 := by
  have hzero : ∀ k, c.exact.AtMost k ↔ 0 ≤ k := fun k => iff_of_true (h k) (Nat.zero_le k)
  exact covers_of_atMost_iff hzero

lemma whole_eq_zero (h : c.exact = .nan) : c.whole = 0 := by
  unfold whole
  rw [show Exact.ofFloat c.value = .nan from h]

/-- Every cost that is a number is covered. -/
lemma covers_whole (h : c.exact ≠ .nan) : c.Covers c.whole := by
  cases hexact : c.exact with
  | nan => exact absurd hexact h
  | infinite negative =>
      unfold whole
      rw [show Exact.ofFloat c.value = .infinite negative from hexact]
      cases negative with
      | true =>
          refine covers_one fun k => ?_
          rw [hexact]
          rfl
      | false =>
          have hnever : ∀ k, ¬ c.exact.AtMost k := by
            intro k
            rw [hexact]
            exact Bool.false_ne_true
          exact ⟨by decide, le_rfl, fun hle => absurd hle (hnever _), fun _ => rfl⟩
  | finite negative m e =>
      unfold whole
      rw [show Exact.ofFloat c.value = .finite negative m e from hexact]
      cases negative with
      | true =>
          refine covers_one fun k => ?_
          have hpos : (0 : ℚ) ≤ m * 2 ^ e := by positivity
          have hk : (0 : ℚ) ≤ k := Nat.cast_nonneg k
          rw [hexact]
          show -((m : ℚ) * 2 ^ e) ≤ k
          linarith
      | false =>
          refine covers_of_atMost_iff fun k => ?_
          rw [hexact, Exact.ceilMagnitude_le_iff]
          rfl

lemma covers_whole_iff : c.Covers c.whole ↔ c.exact ≠ .nan := by
  refine ⟨?_, covers_whole⟩
  intro hcovers hnan
  have hone := hcovers.one_le
  rw [whole_eq_zero hnan] at hone
  omega

/-- **Whole cycles cover every cost that is a number**, and the sum of all costs that can be added
up, finite costs in particular; no other cost is covered. -/
theorem numbers_are_covered (costs : List Cycles) :
    (∀ c ∈ costs, c.Covers c.whole ↔ c.exact ≠ .nan) ∧
      ((sum costs).Covers (sum costs).whole ↔ Addable zero costs) ∧
      ((∀ c ∈ costs, c.exact.isFinite = true) → (sum costs).Covers (sum costs).whole) := by
  have hsum : (sum costs).Covers (sum costs).whole ↔ Addable zero costs := by
    rw [covers_whole_iff, exact_sum_ne_nan_iff]
  exact ⟨fun c _ => covers_whole_iff, hsum, fun hfinite => hsum.mpr (addable_of_isFinite _ hfinite)⟩

/-- A cost a little above one takes two cycles, and an infinite sum all there are, whether a term is
infinite or finite terms are too large. -/
theorem numbers_are_covered_infinite :
    (⟨1.01⟩ : Cycles) ∈ ([⟨1.01⟩, ⟨1.0 / 0.0⟩] : List Cycles) ∧ (⟨1.01⟩ : Cycles).Covers 2 ∧
      (sum [⟨1.01⟩, ⟨1.0 / 0.0⟩]).Covers maxWord ∧ (sum [⟨1e308⟩, ⟨1e308⟩]).Covers maxWord := by
  have hcovered := numbers_are_covered [⟨1.01⟩, ⟨1.0 / 0.0⟩]
  have hlarge := numbers_are_covered [⟨1e308⟩, ⟨1e308⟩]
  have hwhole : whole ⟨1.01⟩ = 2 := by decide +kernel
  have hsum : whole (sum [⟨1.01⟩, ⟨1.0 / 0.0⟩]) = maxWord := by decide +kernel
  have hsum' : whole (sum [⟨1e308⟩, ⟨1e308⟩]) = maxWord := by decide +kernel
  refine ⟨List.mem_cons_self, ?_, ?_, ?_⟩
  · rw [← hwhole]
    exact (hcovered.1 _ List.mem_cons_self).mpr (by decide +kernel)
  · rw [← hsum]
    exact hcovered.2.1.mpr (by decide +kernel)
  · rw [← hsum']
    exact hlarge.2.2 (by decide +kernel)

/-- A cost that is not a number gets no cycle, and neither does the sum of an infinite cost and its
opposite, though both of them get some. -/
theorem not_a_number_uncovered :
    whole ⟨0.0 / 0.0⟩ = 0 ∧ whole ⟨1.0 / 0.0⟩ = maxWord ∧ whole ⟨-1.0 / 0.0⟩ = 1 ∧
      whole (sum [⟨1.0 / 0.0⟩, ⟨-1.0 / 0.0⟩]) = 0 := by
  decide +kernel

end Cycles

end Gateware
