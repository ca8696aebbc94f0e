import Gateware.Hardware.Type
import Gateware.Operator

/-!
# Programs

A program as the front end hands it over: the assemblies it was compiled into, and the members that
are to become hardware.  A member computes one expression over its inputs; every operation says in
which type it computes.
-/

namespace Gateware

namespace Program

/-- An expression of a program.  A binary operation has any number of operands if its operator is
associative; the type of a comparison is that of the operands. -/
inductive Expr where
  /-- An input of the member. -/
  | input (name : String)
  | constant (value : Int) (type : BitType)
  | binary (op : BinaryOp) (operands : List Expr) (type : BitType)
  | unary (op : UnaryOp) (operand : Expr) (type : BitType)
deriving Repr, Inhabited

/-- An input of a member. -/
structure Input where
  name : String
  type : BitType
deriving Repr, DecidableEq

/-- A member that becomes hardware. -/
structure Member where
  /-- The full name of the member in the program. -/
  name : String
  inputs : List Input
  result : BitType
  body : Expr
deriving Repr

/-- The input with a name; the first one if there are several. -/
def Member.input? (m : Member) (name : String) : Option Input := m.inputs.find? (·.name == name)

/-- The memory cells that hold the inputs and the result of a member. -/
def Member.cells (m : Member) : Nat := 
  m.inputs.foldr (fun input cells => input.type.cells + cells) m.result.cells

/-- Where an assembly is. -/
inductive Assembly where
  | file (path : String)
  /-- Generated, and never written to a file. -/
  | inMemory (name : String)
deriving Repr, DecidableEq

/-- Why the assemblies of a program cannot be used. -/
inductive AssemblyError where
  | none
  | inMemory (name : String)
deriving Repr, DecidableEq

/-- The message of an assembly error. -/
def AssemblyError.message : AssemblyError → String
  | none => "the program lists no assemblies"
  | inMemory name =>
    s!"assembly '{name}' exists only in memory; hardware compilation requires file-backed assemblies"

/-- The paths of assemblies, which all have to be files. -/
def filePaths : List Assembly → Except AssemblyError (List String)
  | [] => .ok []
  | .file path :: rest => (filePaths rest).map (path :: ·)
  | .inMemory name :: _ => .error (.inMemory name)

end Program

/-- A program to compile. -/
structure Program where
  assemblies : List Program.Assembly
  members : List Program.Member
deriving Repr

/-- The paths of the assemblies of a program, of which there has to be one. -/
def Program.assemblyPaths (p : Program) : Except AssemblyError (List String) :=
  if p.assemblies.isEmpty then .error .none else filePaths p.assemblies

end Gateware
