import Gateware.Json.Record
import Gateware.Text.Blank

/-!
# Operators and their scaling rules

The operators a program may use, each with the mnemonic under which reports and programs name it.
Five binary operators are *associative*: any number of operands may be combined in any grouping.
Comparisons yield a truth value.

A delay is measured at a few widths only.  Every operator therefore has a rule that says how the
delay grows with the operand width; a measured delay is scaled by the ratio of two weights.
-/

namespace Gateware

/-- An operator with two operands, or more if it is associative. -/
inductive BinaryOp where
  | add | sub | mul | div | mod
  | and | or | xor
  | shl | shr
  | eq | ne | lt | le | gt | ge
deriving Repr, DecidableEq

/-- An operator with one operand. -/
inductive UnaryOp where
  | not | neg
deriving Repr, DecidableEq

/-- How the delay of an operator grows with the width of its operands. -/
inductive ScalingRule where
  /-- Not at all: each bit is handled on its own. -/
  | constant
  /-- With the number of stages of a shifter. -/
  | logarithmic
  /-- With the length of a carry chain. -/
  | linear
  /-- With the area of a multiplier or divider. -/
  | quadratic
deriving Repr, DecidableEq

namespace BinaryOp

/-- Every binary operator, in the order that sorts operations. -/
def all : List BinaryOp :=
  [.add, .sub, .mul, .div, .mod, .and, .or, .xor, .shl, .shr, .eq, .ne, .lt, .le, .gt, .ge]

/-- The name of an operator in reports and programs. -/
def mnemonic : BinaryOp → String
  | add => "add"
  | sub => "sub"
  | mul => "mul"
  | div => "div"
  | mod => "mod"
  | and => "and"
  | or => "or"
  | xor => "xor"
  | shl => "shl"
  | shr => "shr"
  | eq => "eq"
  | ne => "ne"
  | lt => "lt"
  | le => "le"
  | gt => "gt"
  | ge => "ge"

/-- Whether the operator yields a truth value. -/
def isComparison : BinaryOp → Bool
  | eq | ne | lt | le | gt | ge => true
  | _ => false

/-- Whether operands may be regrouped and reordered freely. -/
def isAssociative : BinaryOp → Bool
  | add | mul | and | or | xor => true
  | _ => false

/-- Whether the right operand is a shift amount, which keeps its own type. -/
def isShift : BinaryOp → Bool
  | shl | shr => true
  | _ => false

/-- The scaling rule of an operator. -/
def rule : BinaryOp → ScalingRule
  | and | or | xor => .constant
  | shl | shr => .logarithmic
  | mul | div | mod => .quadratic
  | add | sub | eq | ne | lt | le | gt | ge => .linear

/-- The operator with a mnemonic. -/
def ofMnemonic (name : String) : Option BinaryOp := all.find? (·.mnemonic == name)

end BinaryOp

namespace UnaryOp

/-- Every unary operator, in the order that sorts operations. -/
def all : List UnaryOp := [.not, .neg]

/-- The name of an operator in reports and programs. -/
def mnemonic : UnaryOp → String
  | not => "not"
  | neg => "neg"

/-- The scaling rule of an operator. -/
def rule : UnaryOp → ScalingRule
  | not => .constant
  | neg => .linear

/-- The operator with a mnemonic. -/
def ofMnemonic (name : String) : Option UnaryOp := all.find? (·.mnemonic == name)

end UnaryOp

/-- An operator of either kind. -/
inductive Operator where
  | binary (op : BinaryOp)
  | unary (op : UnaryOp)
deriving Repr, DecidableEq

/-- Why a text names no operator: the text itself, without the blanks around it. -/
inductive OperatorError where
  | unknown (text : String)
deriving Repr, DecidableEq

/-- The message of an operator error. -/
def OperatorError.message : OperatorError → String
  | unknown text => s!"unknown operator mnemonic '{text}'"

namespace Operator

/-- Every operator, binary ones first. -/
def all : List Operator := BinaryOp.all.map binary ++ UnaryOp.all.map unary

/-- The name of an operator in reports and programs. -/
def mnemonic : Operator → String
  | binary op => op.mnemonic
  | unary op => op.mnemonic

/-- The scaling rule of an operator. -/
def rule : Operator → ScalingRule
  | binary op => op.rule
  | unary op => op.rule

/-- The position of an operator in the list of all operators. -/
def rank (op : Operator) : Nat := all.idxOf op

/-- The operator with a mnemonic. -/
def ofMnemonic (name : String) : Option Operator :=
  ((BinaryOp.ofMnemonic name).map binary).or ((UnaryOp.ofMnemonic name).map unary)

/-- The operator that a text names, in any letter case and with blanks around it. -/
def parse (source : String) : Except OperatorError Operator :=
  let name := Text.trimmed source
  match ofMnemonic (Text.lowered name) with
  | some op => .ok op
  | none => .error (.unknown name)

/-- An operator as JSON: its mnemonic. -/
def toJson (op : Operator) : Json := .text op.mnemonic

end Operator

/-! ## Operators in JSON

A mnemonic may also be written as the one key of an object whose value is empty. -/

/-- The name in a JSON value that stands for a plain name: a text, or an object with one key whose
value counts as empty. -/
def Json.asName (isEmpty : Json → Bool) : Json → Option String
  | .text s => some s
  | .object [(name, value)] => if isEmpty value then some name else none
  | _ => none

/-- The value that stands for nothing. -/
def Json.isNull : Json → Bool
  | .null => true
  | _ => false

/-- An operator of either kind, all of whose text has to be readable. -/
def Operator.ofJson (depth : Nat) (j : Json) : Option Operator :=
  if j.readableWithin depth then (j.asName Json.isNull).bind ofMnemonic else none

/-! ## Scaling -/

namespace ScalingRule

/-- The relative size of the logic at a width, given how logarithms are computed.  Only ratios of
weights have a meaning. -/
def weightWith (rule : ScalingRule) (log2 : Float → Float) (width : Nat) : Float :=
  let w := Float.ofNat width
  match rule with
  | constant => 1.0
  | logarithmic => log2 (w + 1.0)
  | linear => w
  | quadratic => w * w

/-- The relative size of the logic at a width, with the logarithms of the machine. -/
def weight (rule : ScalingRule) (width : Nat) : Float := rule.weightWith Float.log2 width

/-- The delay at width `target` of an operator measured at width `source`. -/
def scale (rule : ScalingRule) (delay : Float) (source target : Nat) : Float :=
  delay * rule.weight target / rule.weight source

end ScalingRule

end Gateware
