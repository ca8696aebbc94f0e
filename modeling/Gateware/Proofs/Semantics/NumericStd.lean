import Gateware.Proofs.Semantics.Hardware
import Mathlib.Algebra.Order.Ring.Int

/-!
# What `numeric_std` makes of hardware expressions

`Expr.eval` cuts a row of bits to its low bits.  The `resize` of `numeric_std` does so only for
numbers without a sign.  A number with a sign that becomes narrower keeps its highest bit, and below
it as many low bits as there is room for.

`Expr.evalWith` gives the value of an expression for any way to bring rows to a width.  With
`standardResize` it is the value that a tool computes from the generated text.

A signed product is exact, since it is as wide as both factors together (`toInt_product`).  Cutting
it back is where numbers go wrong: `wrapKeepingSign` says what is left of a number.
-/

namespace Gateware.Hardware

/-! ## Bringing rows to a width -/

/-- The highest bit of a row, in front of its low bits. -/
def cutKeepingSign {w : Nat} (row : BitVec w) : (width : Nat) → BitVec width
  | 0 => 0#0
  | low + 1 => .cons row.msb (row.setWidth low)

/-- A row at another width, as `resize` of `numeric_std` has it. -/
def standardResize (signed : Bool) {w : Nat} (width : Nat) (row : BitVec w) : BitVec width :=
  if signed then
    if w ≤ width then row.signExtend width else cutKeepingSign row width
  else row.setWidth width

/-! ## Numbers cut back -/

/-- What is left of a number with a sign that is cut to a width: its sign, and the number modulo the
weight of the sign. -/
def wrapKeepingSign (width : Nat) (n : Int) : Int :=
  n % 2 ^ (width - 1) - if n < 0 then 2 ^ (width - 1) else 0

lemma wrapKeepingSign_emod (width : Nat) (n : Int) :
    wrapKeepingSign width n % 2 ^ (width - 1) = n % 2 ^ (width - 1) := by
  unfold wrapKeepingSign
  split_ifs <;> simp

/-- A number that has room is left as it is. -/
lemma wrapKeepingSign_of_fits {width : Nat} {n : Int} (hlow : -2 ^ (width - 1) ≤ n)
    (hhigh : n < 2 ^ (width - 1)) : wrapKeepingSign width n = n := by
  unfold wrapKeepingSign
  split_ifs with hneg
  · have hlift : (n + 2 ^ (width - 1)) % 2 ^ (width - 1) = n + 2 ^ (width - 1) :=
      Int.emod_eq_of_lt (by omega) (by omega)
    rw [Int.add_emod_right] at hlift
    omega
  · rw [Int.emod_eq_of_lt (by omega) hhigh]
    omega

/-- Modulo a power of two within its width, a row counts the same with and without a sign. -/
lemma toInt_emod_two_pow {w low : Nat} (row : BitVec w) (h : low ≤ w) :
    row.toInt % 2 ^ low = (row.toNat : Int) % 2 ^ low := by
  have hdvd : (2 : Int) ^ low ∣ ((2 ^ w : Nat) : Int) := by
    push_cast
    exact pow_dvd_pow 2 h
  rw [BitVec.toInt_eq_msb_cond]
  split_ifs
  · rw [Int.sub_emod, Int.emod_eq_zero_of_dvd hdvd, Int.sub_zero, Int.emod_emod]
  · rfl

lemma toInt_cutKeepingSign {w width : Nat} (row : BitVec w) (hpos : 0 < width) (h : width ≤ w) :
    (cutKeepingSign row width).toInt = wrapKeepingSign width row.toInt := by
  obtain ⟨low, rfl⟩ := Nat.exists_eq_add_of_le' hpos
  have hlow : ((row.toNat % 2 ^ low : Nat) : Int) = row.toInt % 2 ^ low := by
    rw [toInt_emod_two_pow row (by omega)]
    push_cast
    rfl
  have hdouble : (2 : Int) ^ (low + 1) = 2 ^ low + 2 ^ low := by rw [pow_succ, mul_two]
  rw [cutKeepingSign, wrapKeepingSign, BitVec.toInt_eq_msb_cond, BitVec.msb_cons,
    BitVec.toNat_cons', BitVec.toNat_setWidth, BitVec.msb_eq_toInt, Nat.add_sub_cancel]
  by_cases hneg : row.toInt < 0
  · simp [hneg, hlow, Nat.shiftLeft_eq, hdouble]
  · simp [hneg, hlow]

/-! ## Products -/

/-- The product of two numbers with a sign, at the width of both factors together, is exact. -/
lemma toInt_product {w : Nat} (x y : BitVec w) :
    (x.signExtend (w + w) * y.signExtend (w + w)).toInt = x.toInt * y.toInt := by
  have hwide : w ≤ w + w := Nat.le_add_left w w
  rw [BitVec.toInt_mul, BitVec.toInt_signExtend_of_le hwide, BitVec.toInt_signExtend_of_le hwide]
  cases w with
  | zero => simp [BitVec.of_length_zero]
  | succ n =>
      -- neither factor is beyond `2 ^ n`, so the product is within a quarter of the range
      have hlow := BitVec.le_toInt_mul_toInt (x := x) (y := y)
      have hhigh := BitVec.toInt_mul_toInt_le (x := x) (y := y)
      have hexp : (n + 1) * 2 - 2 = n + n := by omega
      have hrange : ((2 ^ (n + 1 + (n + 1)) : Nat) : Int) = 4 * 2 ^ (n + n) := by
        push_cast
        rw [show n + 1 + (n + 1) = n + n + 2 by omega, pow_add, mul_comm]
        rfl
      have hpos : (0 : Int) < 2 ^ (n + n) := pow_pos two_pos _
      rw [hexp] at hlow hhigh
      apply Int.bmod_eq_of_le_mul_two
      · rw [hrange]
        omega
      · rw [hrange]
        omega

end Gateware.Hardware
