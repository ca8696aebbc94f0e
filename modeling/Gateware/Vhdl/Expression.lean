import Gateware.Hardware.Expr

/-!
# Expressions in VHDL

Operands are vectors of `numeric_std`.  Binary operations stand in parentheses, so the text has the
shape of the expression however VHDL would group operators.  Shifts are calls that take the amount
as an integer.

A constant is converted from an integer where all tools have one that large, and is otherwise
written bit by bit.
-/

namespace Gateware.Vhdl

open Hardware (Expr)

/-- The vector types, by signedness. -/
def vectorName (signed : Bool) : String := if signed then "signed" else "unsigned"

/-- A vector type. -/
def vectorType (t : BitType) : String := s!"{vectorName t.signed}({t.width - 1} downto 0)"

/-- The largest magnitude of an integer that every tool has. -/
def integerMax : Nat := 0x7FFFFFFF

/-- Constants are words of so many bits, in two's complement. -/
def wordBits : Nat := 128

/-- One bit of a word.  Beyond its width every bit is the sign. -/
def bitAt (value : Int) (i : Nat) : Bool :=
  if i < wordBits then Int.shiftRight value i % 2 == 1 else value < 0

/-- The lowest bits of a word, from high to low. -/
def bitText (value : Int) (width : Nat) : String :=
  String.ofList ((List.range width).reverse.map fun i => if bitAt value i then '1' else '0')

/-- Whether a constant can be converted from an integer. -/
def fitsInteger (value : Int) (signed : Bool) : Bool :=
  value.natAbs ≤ integerMax && (signed || 0 ≤ value)

/-- A constant. -/
def literal (value : Int) (width : Nat) (signed : Bool) : String :=
  if fitsInteger value signed then s!"to_{vectorName signed}({toString value}, {width})"
  else vectorName signed ++ "'(\"" ++ bitText value width ++ "\")"

/-- The text before the operand of a unary operation. -/
def unaryOpening : UnaryOp → String
  | .not => "(not "
  | .neg => "(-"

/-- The symbol between the operands of a binary operation.  The remainder takes the sign of the
dividend. -/
def binarySymbol : BinaryOp → String
  | .add => "+"
  | .sub => "-"
  | .mul => "*"
  | .div => "/"
  | .mod => "rem"
  | .and => "and"
  | .or => "or"
  | .xor => "xor"
  | .shl => "sll"
  | .shr => "srl"
  | .eq => "="
  | .ne => "/="
  | .lt => "<"
  | .le => "<="
  | .gt => ">"
  | .ge => ">="

/-- The call that a shift is written as. -/
def shiftFunction : BinaryOp → Option String
  | .shl => some "shift_left"
  | .shr => some "shift_right"
  | _ => none

/-- A binary operation, given the texts of its operands. -/
def binaryText (op : BinaryOp) (left right : String) : String :=
  match shiftFunction op with
  | some function => function ++ "(" ++ left ++ ", to_integer(" ++ right ++ "))"
  | none => "(" ++ left ++ " " ++ binarySymbol op ++ " " ++ right ++ ")"

/-- The text of an expression. -/
def expression : Expr → String
  | .empty => ""
  | .identifier name => name
  | .literal value width signed => literal value width signed
  | .unary op e => unaryOpening op ++ expression e ++ ")"
  | .binary op l r => binaryText op (expression l) (expression r)
  | .resize e width => "resize(" ++ expression e ++ ", " ++ toString width ++ ")"
  | .cast signed e => vectorName signed ++ "(" ++ expression e ++ ")"
  | .verbatim text => text

end Gateware.Vhdl
