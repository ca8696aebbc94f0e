import Gateware.Device.Error
import Gateware.Hardware.Expr
import Gateware.Journal
import Gateware.Operation
import Gateware.Program
import Gateware.Timing.Cost
import Gateware.Vhdl.Identifier

/-!
# Lowering members to hardware expressions

The body of a member becomes one hardware expression.  Every operand is brought to the type of the
operation around it — cut or extended to its width first, and then taken as a number with or
without a sign — except for shift amounts, which keep their own type.  Products are twice as wide as
their factors and are cut back right away.

Along with the expression goes the delay of its longest chain of operators.  Costs are taken from a
`CostModel`, which prices operations and says how costs add up, so that the delay of an expression
can be studied apart from the way in which numbers are represented.
-/

namespace Gateware

/-- Why a program has no hardware description. -/
inductive GenerationError where
  | noMembers
  /-- Two members would have the same entity name. -/
  | nameCollision (first second entity : String)
  /-- Two inputs of a member would have the same port name. -/
  | portCollision (member first second port : String)
  | unknownVariable (member name : String)
  | emptyOperands (member op : String)
  | operandCount (member op : String) (count : Nat)
  /-- A comparison that is not the result of its member. -/
  | nestedComparison (member : String)
  | comparisonWidth (member : String) (width : Nat)
  | unsignedNegation (member : String)
  | zeroWidth (member : String)
  | timing (error : TimingError)
  | device (error : DeviceError)

/-- The message of a generation error. -/
def GenerationError.message : GenerationError → String
  | noMembers => "the program has no hardware members"
  | nameCollision first second entity =>
    s!"members '{first}' and '{second}' map to the same entity name '{entity}'"
  | portCollision member first second port =>
    s!"member '{member}': inputs '{first}' and '{second}' map to the same port '{port}'"
  | unknownVariable member name => s!"member '{member}': unknown variable '{name}'"
  | emptyOperands member op => s!"member '{member}': `{op}` has no operands"
  | operandCount member op count =>
    s!"member '{member}': `{op}` takes exactly two operands, found {count}"
  | nestedComparison member =>
    s!"member '{member}': comparisons are only supported as the member's result"
  | comparisonWidth member width =>
    s!"member '{member}': a comparison result must be one bit wide, found {width}"
  | unsignedNegation member => s!"member '{member}': negation requires a signed operand"
  | zeroWidth member => s!"member '{member}': zero-width value"
  | timing error => error.message
  | device error => error.message

/-! ## Costs -/

/-- How operations are priced, and how costs combine along an expression. -/
structure CostModel (κ : Type) where
  /-- The cost of nothing. -/
  zero : κ
  /-- One cost after another. -/
  add : κ → κ → κ
  /-- The longer of two costs. -/
  later : κ → κ → κ
  /-- The cost of an operation. -/
  price : Operation → Traced TimingError κ

/-- The costs of a device with the given measurements, in clock cycles. -/
def CostModel.ofTable (manifest : Manifest) (table : TimingTable) : CostModel Cycles where
  zero := .zero
  add := .add
  later := .later
  price := Gateware.price manifest table

/-! ## Lowered expressions -/

/-- A lowered expression with its type and its delay. -/
structure Lowered (κ : Type) where
  expr : Hardware.Expr
  type : BitType
  /-- The delay of the longest chain of operators. -/
  path : κ
  /-- Whether this is a truth value rather than a number. -/
  comparison : Bool := false

/-- An expression of one type brought to another. -/
def convert (source target : BitType) (e : Hardware.Expr) : Hardware.Expr :=
  let e := if source.width == target.width then e else .resize e target.width
  if source.signed == target.signed then e else .cast target.signed e

namespace Lowered

variable {κ : Type}

/-- The expression brought to a type. -/
def toType (x : Lowered κ) (target : BitType) : Hardware.Expr := convert x.type target x.expr

/-- A chain in which every operation of the given number is cut back to a width. -/
def cutProducts (width : Nat) : (count : Nat) → Hardware.Expr → Hardware.Expr
  | count + 1, .binary op l r => .resize (.binary op l (cutProducts width count r)) width
  | _, e => e

/-- The expression of an associative operation. -/
def chainExpr (op : BinaryOp) (operands : List Hardware.Expr) (width : Nat) : Hardware.Expr :=
  let e := Hardware.Expr.chain op operands
  if op == .mul then cutProducts width (operands.length - 1) e else e

/-- The delay of a chain: the first operand passes through all operations, and the others enter one
by one further out. -/
def chainPath (model : CostModel κ) (cost : κ) : List κ → κ
  | [] => model.zero
  | first :: rest => rest.foldr (fun path inner => model.add (model.later inner path) cost) first

/-- An associative operation. -/
def associative (model : CostModel κ) (op : BinaryOp) (type : BitType) (cost : κ)
    (operands : List (Lowered κ)) : Lowered κ where
  expr := chainExpr op (operands.map fun x => x.toType type) type.width
  type := type
  path := chainPath model cost (operands.map (·.path))

/-- An operation with two operands.  Comparisons yield one bit. -/
def binary (model : CostModel κ) (op : BinaryOp) (type : BitType) (cost : κ)
    (left right : Lowered κ) : Lowered κ where
  expr := .binary op (left.toType type) (if op.isShift then right.expr else right.toType type)
  type := if op.isComparison then ⟨1, false⟩ else type
  path := model.add (model.later left.path right.path) cost
  comparison := op.isComparison

/-- An operation with one operand. -/
def unary (model : CostModel κ) (op : UnaryOp) (type : BitType) (cost : κ)
    (operand : Lowered κ) : Lowered κ where
  expr := .unary op (operand.toType type)
  type := type
  path := model.add operand.path cost

end Lowered

/-! ## Lowering -/

/-- The name of the port of an input. -/
def portName (input : String) : String := Vhdl.sanitize ("in_" ++ input)

/-- Values need at least one bit. -/
def checkWidth (member : String) (type : BitType) : Except GenerationError Unit :=
  if type.width == 0 then .error (.zeroWidth member) else .ok ()

/-- Only numbers with a sign can be negated. -/
def checkNegation (member : String) (op : UnaryOp) (type : BitType) : Except GenerationError Unit :=
  if op == .neg && !type.signed then .error (.unsignedNegation member) else .ok ()

/-- Comparisons stand only at the top, and operators that are not associative have two operands. -/
def checkOperands (member : String) (top : Bool) (op : BinaryOp) (count : Nat) :
    Except GenerationError Unit :=
  if op.isComparison && !top then .error (.nestedComparison member)
  else if count == 0 then .error (.emptyOperands member op.mnemonic)
  else if !op.isAssociative && count != 2 then .error (.operandCount member op.mnemonic count)
  else .ok ()

mutual

/-- Lowers an expression of a member; `top` says that it is the whole body. -/
def lower {κ : Type} (model : CostModel κ) (member : Program.Member) (top : Bool) :
    Program.Expr → Traced GenerationError (Lowered κ)
  | .input name =>
    match member.input? name with
    | none => .fail (.unknownVariable member.name name)
    | some input => do
      .ofExcept (checkWidth member.name input.type)
      pure { expr := .identifier (portName name), type := input.type, path := model.zero }
  | .constant value type => do
    .ofExcept (checkWidth member.name type)
    pure { expr := .literal value type.width type.signed, type := type, path := model.zero }
  | .unary op operand type => do
    .ofExcept (checkWidth member.name type)
    .ofExcept (checkNegation member.name op type)
    let cost ← (model.price ⟨.unary op, type.width, type.signed⟩).mapError .timing
    let operand ← lower model member false operand
    pure (.unary model op type cost operand)
  | .binary op operands type => do
    .ofExcept (checkWidth member.name type)
    .ofExcept (checkOperands member.name top op operands.length)
    let cost ← (model.price ⟨.binary op, type.width, type.signed⟩).mapError .timing
    let lowered ← lowerAll model member operands
    if op.isAssociative then pure (.associative model op type cost lowered)
    else match lowered with
      | [left, right] => pure (.binary model op type cost left right)
      | _ => .fail (.operandCount member.name op.mnemonic operands.length)

/-- Lowers operands in order. -/
def lowerAll {κ : Type} (model : CostModel κ) (member : Program.Member) :
    List Program.Expr → Traced GenerationError (List (Lowered κ))
  | [] => pure []
  | e :: es => do
    let x ← lower model member false e
    let xs ← lowerAll model member es
    pure (x :: xs)

end

end Gateware
