import Gateware.Program
import Gateware.Proofs.Semantics.Hardware
import Mathlib.Algebra.Group.Int.Defs

/-!
# The meaning of programs

A program computes with numbers.  An operation takes its operands over into its own type, computes
the exact result and keeps it modulo two to the power of its width; the amount of a shift is not
taken over but counts as the number that it is.  An associative operation joins all its operands
from left to right.

Hardware computes with rows of bits instead.  `operation_eq_operate`, `operation_mul` and
`operation_shift` say that the two agree operator by operator; the exact quotient, remainder and
comparison of numbers are those of rows with or without a sign.
-/

namespace Gateware.Program

/-- Values for inputs, each of the width that is declared for it. -/
abbrev Assignment := (input : Input) → BitVec input.type.width

/-! ## Operations -/

/-- A unary operation in a type. -/
def unaryOperation (op : UnaryOp) (t : BitType) (x : Bits) : BitVec t.width :=
  match op with
  | .not => ~~~(x.convert t)
  | .neg => .ofInt t.width (-number t.signed (x.convert t))

/-- A binary operation in a type. -/
def operation (op : BinaryOp) (t : BitType) (x y : Bits) : Except Fault Value :=
  let a := number t.signed (x.convert t)
  let b := number t.signed (y.convert t)
  match op with
  | .add => .ok (.vector ⟨t, .ofInt t.width (a + b)⟩)
  | .sub => .ok (.vector ⟨t, .ofInt t.width (a - b)⟩)
  | .mul => .ok (.vector ⟨t, .ofInt t.width (a * b)⟩)
  | .div => if b = 0 then .error .undefined else .ok (.vector ⟨t, .ofInt t.width (a.tdiv b)⟩)
  | .mod => if b = 0 then .error .undefined else .ok (.vector ⟨t, .ofInt t.width (a.tmod b)⟩)
  | .and => .ok (.vector ⟨t, x.convert t &&& y.convert t⟩)
  | .or => .ok (.vector ⟨t, x.convert t ||| y.convert t⟩)
  | .xor => .ok (.vector ⟨t, x.convert t ^^^ y.convert t⟩)
  | .shl =>
    if y.number < 0 then .error .undefined
    else .ok (.vector ⟨t, .ofInt t.width (a * 2 ^ y.number.toNat)⟩)
  | .shr =>
    if y.number < 0 then .error .undefined
    else .ok (.vector ⟨t, .ofInt t.width (a / 2 ^ y.number.toNat)⟩)
  | .eq => .ok (.truth (a == b))
  | .ne => .ok (.truth (a != b))
  | .lt => .ok (.truth (decide (a < b)))
  | .le => .ok (.truth (decide (a ≤ b)))
  | .gt => .ok (.truth (decide (b < a)))
  | .ge => .ok (.truth (decide (b ≤ a)))

/-- Joins operands from left to right, beginning with a value of the type. -/
def operationFrom (op : BinaryOp) (t : BitType) : Bits → List Bits → Except Fault Value
  | x, [] => .ok (.vector x)
  | x, y :: ys => do
    let z ← (← operation op t x y).bits
    operationFrom op t z ys

/-- An operation on all its operands: any number of them if it is associative, and two otherwise. -/
def operationAll (op : BinaryOp) (t : BitType) : List Bits → Except Fault Value
  | [] => .error .malformed
  | x :: ys =>
    if op.isAssociative then operationFrom op t ⟨t, x.convert t⟩ ys
    else match ys with
      | [y] => operation op t x y
      | _ => .error .malformed

/-! ## Expressions -/

mutual

/-- The value of an expression of a member. -/
def Expr.eval (m : Member) (values : Assignment) : Expr → Except Fault Value
  | .input name =>
    match m.input? name with
    | some i => .ok (.vector ⟨i.type, values i⟩)
    | none => .error .malformed
  | .constant value type => .ok (.vector ⟨type, .ofInt type.width value⟩)
  | .unary op e type => do
    let x ← (← Expr.eval m values e).bits
    pure (.vector ⟨type, unaryOperation op type x⟩)
  | .binary op es type => do
    let xs ← Expr.evalAll m values es
    operationAll op type xs

/-- The values of operands, none of which may be a truth value. -/
def Expr.evalAll (m : Member) (values : Assignment) : List Expr → Except Fault (List Bits)
  | [] => pure []
  | e :: es => do
    let x ← (← Expr.eval m values e).bits
    let xs ← Expr.evalAll m values es
    pure (x :: xs)

end

/-- What a member computes: the value of its body, taken over into the type of the result unless it
is a truth value. -/
def Member.meaning (m : Member) (values : Assignment) : Except Fault Value := do
  match ← m.body.eval m values with
  | .vector x => pure (.vector ⟨m.result, x.convert m.result⟩)
  | .truth holds => pure (.truth holds)

/-! ## Numbers and rows of bits -/

section

variable (t : BitType) (x y : BitVec t.width)

lemma ofInt_tdiv_number :
    BitVec.ofInt t.width ((number t.signed x).tdiv (number t.signed y))
      = if t.signed then x.sdiv y else x.udiv y := by
  cases h : t.signed with
  | false =>
      rw [if_neg (by simp), ← ofInt_number false (x.udiv y)]
      congr 1
  | true =>
      -- the least number divided by `-1` is the one quotient that wraps around
      apply BitVec.eq_of_toInt_eq
      simp [number, BitVec.toInt_sdiv]

lemma ofInt_tmod_number :
    BitVec.ofInt t.width ((number t.signed x).tmod (number t.signed y))
      = if t.signed then x.srem y else x.umod y := by
  cases h : t.signed with
  | false =>
      rw [if_neg (by simp), ← ofInt_number false (x.umod y)]
      congr 1
  | true =>
      rw [if_pos rfl, ← ofInt_number true (x.srem y)]
      congr 1
      simp [number, BitVec.toInt_srem]

lemma ofInt_mul_pow_number (n : Nat) :
    BitVec.ofInt t.width (number t.signed x * 2 ^ n) = x <<< n := by
  have htwo : BitVec.ofInt t.width (2 ^ n) = BitVec.twoPow t.width n := by
    have hcast : (2 : Int) ^ n = ((2 ^ n : Nat) : Int) := by simp
    rw [hcast, BitVec.ofInt_natCast]
    apply BitVec.eq_of_toNat_eq
    rw [BitVec.toNat_ofNat, BitVec.toNat_twoPow]
  rw [BitVec.ofInt_mul, ofInt_number, htwo, BitVec.shiftLeft_eq_mul_twoPow]

lemma ofInt_div_pow_number (n : Nat) :
    BitVec.ofInt t.width (number t.signed x / 2 ^ n)
      = if t.signed then x.sshiftRight n else x >>> n := by
  cases h : t.signed with
  | false =>
      rw [if_neg (by simp), ← ofInt_number false (x >>> n)]
      congr 1
      simp [number, Nat.shiftRight_eq_div_pow]
  | true =>
      rw [if_pos rfl, ← ofInt_number true (x.sshiftRight n)]
      congr 1
      simp [number, Int.shiftRight_eq_div_pow]

end

/-- Two rows are equal exactly if their numbers are. -/
lemma number_inj {signed : Bool} {w : Nat} {x y : BitVec w} :
    number signed x = number signed y ↔ x = y := by
  constructor
  · intro h
    rw [← ofInt_number signed x, h, ofInt_number]
  · rintro rfl
    rfl

lemma number_lt (signed : Bool) {w : Nat} (x y : BitVec w) :
    decide (number signed x < number signed y) = if signed then x.slt y else x.ult y := by
  cases signed <;> simp [number, BitVec.slt_eq_decide, BitVec.ult_eq_decide]

lemma number_le (signed : Bool) {w : Nat} (x y : BitVec w) :
    decide (number signed x ≤ number signed y) = if signed then x.sle y else x.ule y := by
  cases signed <;> simp [number, BitVec.sle_eq_decide, BitVec.ule_eq_decide]

/-! ## Agreement operator by operator -/

open Hardware (unaryRow operate shift shiftRow)

lemma unaryOperation_eq (op : UnaryOp) (t : BitType) (x : Bits) :
    unaryOperation op t x = unaryRow op (x.convert t) := by
  cases op with
  | not => rfl
  | neg => simp [unaryOperation, unaryRow, BitVec.ofInt_neg]

/-- Except for products and shifts, an operation on numbers is the one on rows. -/
lemma operation_eq_operate {op : BinaryOp} (hshift : op.isShift = false) (hmul : op ≠ .mul)
    (t : BitType) (x y : Bits) :
    operation op t x y = operate op t (x.convert t) (y.convert t) := by
  cases op with
  | add => simp [operation, operate, BitVec.ofInt_add]
  | sub =>
      simp [operation, operate, Int.sub_eq_add_neg, BitVec.ofInt_add, BitVec.ofInt_neg,
        BitVec.sub_eq_add_neg]
  | mul => exact absurd rfl hmul
  | div => simp [operation, operate, number_eq_zero, ofInt_tdiv_number]
  | mod => simp [operation, operate, number_eq_zero, ofInt_tmod_number]
  | and => rfl
  | or => rfl
  | xor => rfl
  | shl => simp [BinaryOp.isShift] at hshift
  | shr => simp [BinaryOp.isShift] at hshift
  | eq => simp [operation, operate, Bool.beq_eq_decide_eq, number_inj]
  | ne => simp [operation, operate, bne, number_inj]
  | lt => simp [operation, operate, number_lt]
  | le => simp [operation, operate, number_le]
  | gt => simp [operation, operate, number_lt]
  | ge => simp [operation, operate, number_le]

lemma operation_mul (t : BitType) (x y : Bits) :
    operation .mul t x y = .ok (.vector ⟨t, x.convert t * y.convert t⟩) := by
  simp [operation, BitVec.ofInt_mul]

lemma operation_shift {op : BinaryOp} (hshift : op.isShift = true) (t : BitType) (x y : Bits) :
    operation op t x y = shift op ⟨t, x.convert t⟩ y := by
  cases op with
  | shl => simp [operation, shift, shiftRow, ofInt_mul_pow_number]
  | shr => simp [operation, shift, shiftRow, ofInt_div_pow_number]
  | _ => simp [BinaryOp.isShift] at hshift

end Gateware.Program
