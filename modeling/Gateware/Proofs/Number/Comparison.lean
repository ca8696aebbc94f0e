import Mathlib.Data.Prod.Lex
import Mathlib.Tactic.Common

/-!
# Comparing floating-point numbers

Numbers are compared by sign, then by exponent, then by mantissa.  `place` puts the three together
into one place on a line; below zero the exponent and the mantissa count backwards, and both zeros
have the same place.  Every comparison of numbers is a comparison of places (`lt_iff_place`,
`le_iff_place`, `beq_iff_place`), so numbers are in a linear order but for the two zeros.  What is
not a number compares with nothing.
-/

namespace Gateware

open Float.Model

lemma compare_toLex {α β : Type} [Ord α] [Ord β] (a c : α) (b d : β) :
    compare (toLex (a, b)) (toLex (c, d)) = (compare a c).then (compare b d) := rfl

lemma compare_neg (a b : ℤ) : compare (-a) (-b) = (compare a b).swap := by
  rw [← Std.OrientedOrd.eq_swap]
  rcases lt_trichotomy b a with h | rfl | h
  · rw [compare_lt_iff_lt.mpr h, compare_lt_iff_lt.mpr (by omega)]
  · simp
  · rw [compare_gt_iff_gt.mpr h, compare_gt_iff_gt.mpr (by omega)]

lemma compare_natCast (a b : ℕ) : compare (a : ℤ) (b : ℤ) = compare a b := by
  rcases lt_trichotomy a b with h | rfl | h
  · rw [compare_lt_iff_lt.mpr h, compare_lt_iff_lt.mpr (by omega)]
  · simp
  · rw [compare_gt_iff_gt.mpr h, compare_gt_iff_gt.mpr (by omega)]

/-- The place of an unpacked number.  What is not a number is put at the end. -/
def unpackedPlace : UnpackedFloat → ℤ ×ₗ ℤ ×ₗ ℤ
  | .infinity .negative => toLex (-2, toLex (0, 0))
  | .finite .negative m e _ => toLex (-1, toLex (-e, -m))
  | .zero _ => toLex (0, toLex (0, 0))
  | .finite .positive m e _ => toLex (1, toLex (e, m))
  | .infinity .positive => toLex (2, toLex (0, 0))
  | .notANumber => toLex (3, toLex (0, 0))

/-- Numbers compare as their places do. -/
lemma compare_eq_place {a b : UnpackedFloat} (ha : a.isNaN = false) (hb : b.isNaN = false) :
    a.compare b = some (compare (unpackedPlace a) (unpackedPlace b)) := by
  cases a with
  | notANumber => cases ha
  | infinity s =>
      cases b with
      | notANumber => cases hb
      | infinity s' => cases s <;> cases s' <;> rfl
      | zero s' => cases s <;> rfl
      | finite s' m' e' _ => cases s <;> cases s' <;> rfl
  | zero s =>
      cases b with
      | notANumber => cases hb
      | infinity s' => cases s' <;> rfl
      | zero s' => rfl
      | finite s' m' e' _ => cases s' <;> rfl
  | finite s m e _ =>
      cases b with
      | notANumber => cases hb
      | infinity s' => cases s <;> cases s' <;> rfl
      | zero s' => cases s <;> rfl
      | finite s' m' e' _ =>
          -- Only for two numbers of the same sign does more than the sign count.
          cases s <;> cases s'
          · show some ((compare e e').then (compare m m')).swap =
              some (compare (toLex (-1, toLex (-e, -(m : ℤ)))) (toLex (-1, toLex (-e', -(m' : ℤ)))))
            simp only [compare_toLex, compare_neg, compare_natCast, Std.ReflCmp.compare_self,
              Ordering.eq_then, Ordering.swap_then]
          · rfl
          · rfl
          · show some ((compare e e').then (compare m m')) =
              some (compare (toLex (1, toLex (e, (m : ℤ)))) (toLex (1, toLex (e', (m' : ℤ)))))
            simp only [compare_toLex, compare_natCast, Std.ReflCmp.compare_self, Ordering.eq_then]

/-- The place of a floating-point number among all numbers. -/
def place (x : Float) : ℤ ×ₗ ℤ ×ₗ ℤ := unpackedPlace x.toModel.unpack

section

variable {x y : Float}

lemma compare_toModel (hx : x.isNaN = false) (hy : y.isNaN = false) :
    x.toModel.unpack.compare y.toModel.unpack = some (compare (place x) (place y)) :=
  compare_eq_place hx hy

lemma lt_iff_place (hx : x.isNaN = false) (hy : y.isNaN = false) : x < y ↔ place x < place y := by
  have hlt : x < y ↔ x.toModel.unpack.compare y.toModel.unpack = some .lt := by
    show decide (x.toModel.unpack.lt y.toModel.unpack = true) = true ↔ _
    rw [decide_eq_true_iff, UnpackedFloat.lt, beq_iff_eq]
  rw [hlt, compare_toModel hx hy, Option.some.injEq, compare_lt_iff_lt]

lemma le_iff_place (hx : x.isNaN = false) (hy : y.isNaN = false) : x ≤ y ↔ place x ≤ place y := by
  have hle : x ≤ y ↔ (x.toModel.unpack.compare y.toModel.unpack).any (·.isLE) = true := by
    show decide (x.toModel.unpack.le y.toModel.unpack = true) = true ↔ _
    rw [decide_eq_true_iff, UnpackedFloat.le]
  rw [hle, compare_toModel hx hy, Option.any_some, ← compare_le_iff_le, Ordering.isLE_iff_ne_gt]

lemma beq_eq_compare :
    (x == y) = true ↔ x.toModel.unpack.compare y.toModel.unpack = some .eq := by
  show (x.toModel.unpack.compare y.toModel.unpack == some .eq) = true ↔ _
  rw [beq_iff_eq]

lemma beq_iff_place (hx : x.isNaN = false) (hy : y.isNaN = false) :
    (x == y) = true ↔ place x = place y := by
  rw [beq_eq_compare, compare_toModel hx hy, Option.some.injEq, compare_eq_iff_eq]

lemma compare_notANumber (a : UnpackedFloat) : a.compare .notANumber = none := by
  cases a <;> rfl

/-- What equals something is a number. -/
lemma isNaN_of_beq (h : (x == y) = true) : y.isNaN = false := by
  rw [beq_eq_compare] at h
  show y.toModel.unpack.isNaN = false
  cases hy : y.toModel.unpack with
  | notANumber =>
      rw [hy, compare_notANumber] at h
      contradiction
  | infinity s => rfl
  | zero s => rfl
  | finite s m e _ => rfl

end

end Gateware
