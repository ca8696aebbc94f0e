import Gateware.Hardware.Expr
import Gateware.Proofs.Results
import Gateware.Proofs.Semantics.Value

/-!
# The meaning of hardware expressions

Operators of a hardware expression work on rows of bits of one and the same type, wrap around at
their width, and take or drop the sign as their operands do.  Two of them are special.  A product
is as wide as both factors together, and a shift takes its amount as the number that the right
operand stands for, in the type that this operand has.

`Expr.eval` gives the value of an expression for given `Signals`.  Nothing is converted silently:
where types do not fit together, the expression is malformed.  There is more than one way to bring a
row to another width, and `Expr.evalWith` takes it as an argument.
-/

namespace Gateware.Hardware

/-- What the names in an expression stand for. -/
abbrev Signals := String → Option Bits

/-- A unary operation on a row of bits. -/
def unaryRow (op : UnaryOp) {w : Nat} (x : BitVec w) : BitVec w :=
  match op with
  | .not => ~~~x
  | .neg => -x

/-- A binary operation on two rows of one type. -/
def operate (op : BinaryOp) (t : BitType) (x y : BitVec t.width) : Except Fault Value :=
  match op with
  | .add => .ok (.vector ⟨t, x + y⟩)
  | .sub => .ok (.vector ⟨t, x - y⟩)
  | .mul =>
    let wide := t.width + t.width
    .ok (.vector ⟨⟨wide, t.signed⟩, extended t.signed wide x * extended t.signed wide y⟩)
  | .div =>
    if y = 0#t.width then .error .undefined
    else .ok (.vector ⟨t, if t.signed then x.sdiv y else x.udiv y⟩)
  | .mod =>
    if y = 0#t.width then .error .undefined
    else .ok (.vector ⟨t, if t.signed then x.srem y else x.umod y⟩)
  | .and => .ok (.vector ⟨t, x &&& y⟩)
  | .or => .ok (.vector ⟨t, x ||| y⟩)
  | .xor => .ok (.vector ⟨t, x ^^^ y⟩)
  | .eq => .ok (.truth (x == y))
  | .ne => .ok (.truth (x != y))
  | .lt => .ok (.truth (if t.signed then x.slt y else x.ult y))
  | .le => .ok (.truth (if t.signed then x.sle y else x.ule y))
  | .gt => .ok (.truth (if t.signed then y.slt x else y.ult x))
  | .ge => .ok (.truth (if t.signed then y.sle x else y.ule x))
  | .shl | .shr => .error .malformed

/-- A row shifted by a number of places.  A shift to the right fills in the sign, or zeros if there
is none. -/
def shiftRow (op : BinaryOp) (signed : Bool) {w : Nat} (x : BitVec w) (places : Nat) : BitVec w :=
  match op with
  | .shr => if signed then x.sshiftRight places else x >>> places
  | _ => x <<< places

/-- A shift by the number that the amount stands for. -/
def shift (op : BinaryOp) (x amount : Bits) : Except Fault Value :=
  if amount.number < 0 then .error .undefined
  else .ok (.vector ⟨x.type, shiftRow op x.type.signed x.row amount.number.toNat⟩)

/-- A binary operation on two values. -/
def binaryValue (op : BinaryOp) (x y : Bits) : Except Fault Value :=
  if op.isShift then shift op x y
  else if h : y.type = x.type then
    operate op x.type x.row (y.row.cast (congrArg BitType.width h))
  else .error .malformed

namespace Expr

/-- The value of an expression, given how rows are brought to a width. -/
def evalWith (resize : Bool → {w : Nat} → (width : Nat) → BitVec w → BitVec width)
    (signals : Signals) : Expr → Except Fault Value
  | .empty => .error .malformed
  | .identifier name =>
    match signals name with
    | some x => .ok (.vector x)
    | none => .error .malformed
  | .literal value width signed => .ok (.vector ⟨⟨width, signed⟩, .ofInt width value⟩)
  | .unary op e => do
    let x ← (← evalWith resize signals e).bits
    pure (.vector ⟨x.type, unaryRow op x.row⟩)
  | .binary op l r => do
    let x ← (← evalWith resize signals l).bits
    let y ← (← evalWith resize signals r).bits
    binaryValue op x y
  | .resize e width => do
    let x ← (← evalWith resize signals e).bits
    pure (.vector ⟨⟨width, x.type.signed⟩, resize x.type.signed width x.row⟩)
  | .cast signed e => do
    let x ← (← evalWith resize signals e).bits
    pure (.vector ⟨⟨x.type.width, signed⟩, x.row⟩)
  | .verbatim _ => .error .malformed

/-- The value of an expression.  Rows that become narrower keep their low bits. -/
def eval (signals : Signals) (e : Expr) : Except Fault Value := e.evalWith extended signals

end Expr

/-! ## Operations on values of one type -/

@[simp] lemma binaryValue_same {op : BinaryOp} (h : op.isShift = false) (t : BitType)
    (x y : BitVec t.width) : binaryValue op ⟨t, x⟩ ⟨t, y⟩ = operate op t x y := by
  simp [binaryValue, h]

section

variable {signals : Signals} {l r e : Expr} {t : BitType}

/-- Operands that are undefined leave the operation undefined. -/
lemma eval_binary (op : BinaryOp) {x : Option (BitVec t.width)} {s : BitType}
    {y : Option (BitVec s.width)} (hl : l.eval signals = defined t x)
    (hr : r.eval signals = defined s y) :
    (Expr.binary op l r).eval signals =
      match x, y with
      | some x, some y => binaryValue op ⟨t, x⟩ ⟨s, y⟩
      | _, _ => .error .undefined := by
  unfold Expr.eval at hl hr ⊢
  simp only [Expr.evalWith, hl, hr]
  cases x with
  | none => rfl
  | some x =>
      cases y with
      | none => rfl
      | some y => rfl

lemma eval_unary {op : UnaryOp} {x : Option (BitVec t.width)} (he : e.eval signals = defined t x) :
    (Expr.unary op e).eval signals = defined t (x.map (unaryRow op)) := by
  unfold Expr.eval at he ⊢
  simp only [Expr.evalWith, he]
  cases x with
  | none => rfl
  | some x => rfl

lemma eval_resize {x : Option (BitVec t.width)} (width : Nat) (he : e.eval signals = defined t x) :
    (Expr.resize e width).eval signals
      = defined ⟨width, t.signed⟩ (x.map (extended t.signed width)) := by
  unfold Expr.eval at he ⊢
  simp only [Expr.evalWith, he]
  cases x with
  | none => rfl
  | some x => rfl

lemma eval_cast {x : Option (BitVec t.width)} (signed : Bool) (he : e.eval signals = defined t x) :
    (Expr.cast signed e).eval signals = defined ⟨t.width, signed⟩ x := by
  unfold Expr.eval at he ⊢
  simp only [Expr.evalWith, he]
  cases x with
  | none => rfl
  | some x => rfl

end

end Gateware.Hardware
