import Gateware.Json.Printer
import Gateware.Json.Reader
import Gateware.Json.Record
import Gateware.Program

/-!
# Programs in JSON

`Program.toJson` writes a program and `Program.read` reads one.  Records may be written as objects
or as arrays of their fields.  An expression is an object with a `kind`, anywhere among its fields,
or an array that starts with the kind; the fields that belong to the kind have to be there exactly
once, and in an array nothing else.

All of an expression is looked at, so all of it has to be readable and within the nesting limit.
Inside an expression the kind may also be given by its number.
-/

namespace Gateware.Program

/-! ## Writing -/

/-- The fields of a type. -/
def typeFields (t : BitType) : List (String × Json) :=
  [("width", .int t.width), ("signed", .bool t.signed)]

mutual

/-- An expression in JSON. -/
def Expr.toJson : Expr → Json
  | .input name => .object [("kind", .text "variable"), ("name", .text name)]
  | .constant value type =>
    .object ([("kind", .text "constant"), ("value", .int value)] ++ typeFields type)
  | .binary op operands type =>
    .object ([("kind", .text "binary"), ("op", .text op.mnemonic),
      ("operands", .array (exprsToJson operands))] ++ typeFields type)
  | .unary op operand type =>
    .object ([("kind", .text "unary"), ("op", .text op.mnemonic), ("operand", operand.toJson)] ++
      typeFields type)

/-- Expressions in JSON. -/
def exprsToJson : List Expr → List Json
  | [] => []
  | e :: es => e.toJson :: exprsToJson es

end

/-- An input in JSON. -/
def Input.toJson (i : Input) : Json := .object (("name", .text i.name) :: typeFields i.type)

/-- A member in JSON. -/
def Member.toJson (m : Member) : Json :=
  .object [("name", .text m.name), ("inputs", .array (m.inputs.map Input.toJson)),
    ("result", .object (typeFields m.result)), ("body", m.body.toJson)]

/-- An assembly in JSON. -/
def Assembly.toJson : Assembly → Json
  | .file path => .object [("file", .text path)]
  | .inMemory name => .object [("in_memory", .text name)]

/-- A program in JSON. -/
def toJson (p : Program) : Json :=
  .object [("assemblies", .array (p.assemblies.map Assembly.toJson)),
    ("members", .array (p.members.map Member.toJson))]

/-! ## Reading expressions -/

/-- The kinds of expressions. -/
inductive ExprKind where
  | input
  | constant
  | binary
  | unary
deriving Repr, DecidableEq

namespace ExprKind

/-- All kinds, in the order of their numbers. -/
def all : List ExprKind := [input, constant, binary, unary]

/-- The name of a kind. -/
def name : ExprKind → String
  | input => "variable"
  | constant => "constant"
  | binary => "binary"
  | unary => "unary"

/-- The fields of a kind. -/
def fields : ExprKind → List String
  | input => ["name"]
  | constant => ["value", "width", "signed"]
  | binary => ["op", "operands", "width", "signed"]
  | unary => ["op", "operand", "width", "signed"]

/-- The kind that a value names.  Inside an expression it may be a number. -/
def ofJson (inside : Bool) : Json → Option ExprKind
  | .text s => all.find? (·.name == s)
  | .int n => if inside && 0 ≤ n then all[n.toNat]? else none
  | _ => none

end ExprKind

/-- The only value under a name. -/
def single (name : String) (fields : List (String × Json)) : Option Json :=
  match fields.filter (·.1 == name) with
  | [(_, value)] => some value
  | _ => none

/-- The kind of an expression and the values of the fields of that kind. -/
def openExpr (inside : Bool) : Json → Option (ExprKind × List Json)
  | .object fields => do
    let kind ← (single "kind" fields).bind (ExprKind.ofJson inside)
    let values ← kind.fields.mapM fun name => single name fields
    some (kind, values)
  | .array (tag :: values) => do
    let kind ← ExprKind.ofJson inside tag
    if values.length == kind.fields.length then some (kind, values) else none
  | _ => none

/-- The name of an operator, as text or as an object that has the name as its only key. -/
def operatorName (j : Json) : Option String :=
  j.asName fun
    | .null => true
    | .object [] => true
    | _ => false

/-- A type from the values of its fields. -/
def typeOf (width signed : Json) : Option BitType := do
  let width ← width.asNat maxWord
  let signed ← signed.asBool
  some ⟨width, signed⟩

/-- An expression from JSON in which fewer than `bound` expressions are nested. -/
def exprOfJson (inside : Bool) : (bound : Nat) → Json → Option Expr
  | 0, _ => none
  | bound + 1, j =>
    match openExpr inside j with
    | some (.input, [name]) => name.asText.map .input
    | some (.constant, [value, width, signed]) => do
      let value ← value.asLong
      let type ← typeOf width signed
      some (.constant value type)
    | some (.binary, [op, .array operands, width, signed]) => do
      let op ← (operatorName op).bind BinaryOp.ofMnemonic
      let operands ← operands.mapM fun j => exprOfJson true bound j
      let type ← typeOf width signed
      some (.binary op operands type)
    | some (.unary, [op, operand, width, signed]) => do
      let op ← (operatorName op).bind UnaryOp.ofMnemonic
      let operand ← exprOfJson true bound operand
      let type ← typeOf width signed
      some (.unary op operand type)
    | _ => none

/-- An expression from JSON, with a number of containers that may be opened. -/
def Expr.ofJson (depth : Nat) (j : Json) : Option Expr :=
  if j.readableWithin depth then exprOfJson false depth j else none

/-! ## Reading programs -/

/-- A type from JSON. -/
def typeOfJson (depth : Nat) (j : Json) : Option BitType :=
  match j.record ["width", "signed"] depth with
  | some (_, [some width, some signed]) => typeOf width signed
  | _ => none

/-- An input from JSON. -/
def Input.ofJson (depth : Nat) (j : Json) : Option Input :=
  match j.record ["name", "width", "signed"] depth with
  | some (_, [some name, some width, some signed]) => do
    let name ← name.asText
    let type ← typeOf width signed
    some ⟨name, type⟩
  | _ => none

/-- A member from JSON. -/
def Member.ofJson (depth : Nat) (j : Json) : Option Member :=
  match j.record ["name", "inputs", "result", "body"] depth with
  | some (depth, [some name, some inputs, some result, some body]) => do
    let name ← name.asText
    let inputs ← Json.items Input.ofJson depth inputs
    let result ← typeOfJson depth result
    let body ← Expr.ofJson depth body
    some ⟨name, inputs, result, body⟩
  | _ => none

/-- An assembly from JSON. -/
def Assembly.ofJson : (depth : Nat) → Json → Option Assembly
  | 0, _ => none
  | _ + 1, .object [("file", .text path)] => some (.file path)
  | _ + 1, .object [("in_memory", .text name)] => some (.inMemory name)
  | _ + 1, _ => none

/-- A program from JSON. -/
def ofJson (depth : Nat) (j : Json) : Option Program :=
  match j.record ["assemblies", "members"] depth with
  | some (depth, [some assemblies, some members]) => do
    let assemblies ← Json.items Assembly.ofJson depth assemblies
    let members ← Json.items Member.ofJson depth members
    some ⟨assemblies, members⟩
  | _ => none

/-- A program from JSON text. -/
def read (source : String) : Option Program := (Json.read source).bind (ofJson Json.nestingLimit)

end Gateware.Program
