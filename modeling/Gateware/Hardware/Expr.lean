import Gateware.Hardware.Type
import Gateware.Operator

/-!
# Hardware expressions

The expressions that a hardware description is made of.  Operators have one or two operands; no
expression is simplified when it is built.

`Expr.chain` combines any number of operands with one binary operator.  Its shape is fixed: for
operands `e0, e1, …, en` it is `e1 ⊕ (e2 ⊕ (… ⊕ (en ⊕ e0)))`, so that the first operand stands
innermost and the others nest outward in their order.
-/

namespace Gateware.Hardware

/-- An expression of a hardware description. -/
inductive Expr where
  /-- Nothing at all. -/
  | empty
  /-- The value of a port or signal. -/
  | identifier (name : String)
  /-- A constant of a given width. -/
  | literal (value : Int) (width : Nat) (signed : Bool)
  /-- A unary operation. -/
  | unary (op : UnaryOp) (operand : Expr)
  /-- A binary operation. -/
  | binary (op : BinaryOp) (left right : Expr)
  /-- An operand cut or extended to a width, with the same signedness. -/
  | resize (operand : Expr) (width : Nat)
  /-- The same bits, taken as a number with or without a sign. -/
  | cast (signed : Bool) (operand : Expr)
  /-- Text of the description language. -/
  | verbatim (text : String)
deriving Repr, DecidableEq, Inhabited

namespace Expr

/-- Whether an expression is nothing at all. -/
def isEmpty : Expr → Bool
  | empty => true
  | _ => false

/-- All parts of an expression: itself first, then those of its operands from left to right. -/
def parts : Expr → List Expr
  | unary op e => unary op e :: parts e
  | binary op l r => binary op l r :: (parts l ++ parts r)
  | resize e width => resize e width :: parts e
  | cast signed e => cast signed e :: parts e
  | e => [e]

/-- Whether an expression is a binary operation. -/
def isBinary : Expr → Bool
  | binary .. => true
  | _ => false

/-- The number of binary operations in an expression. -/
def binaryCount (e : Expr) : Nat := e.parts.countP isBinary

/-- How deep an expression is nested; one without operands has depth one. -/
def depth : Expr → Nat
  | unary _ e => 1 + depth e
  | binary _ l r => 1 + max (depth l) (depth r)
  | resize e _ => 1 + depth e
  | cast _ e => 1 + depth e
  | _ => 1

/-- Nests operands around an innermost one, the first of them outermost. -/
def nest (op : BinaryOp) (inner : Expr) (operands : List Expr) : Expr :=
  operands.foldr (binary op) inner

/-- Combines any number of operands with a binary operator. -/
def chain (op : BinaryOp) : List Expr → Expr
  | [] => empty
  | first :: rest => nest op first rest

end Expr

end Gateware.Hardware
