import Gateware.Action
import Gateware.Compile.Context
import Gateware.Compile.Lowering
import Gateware.Vhdl.Entity
import Gateware.Vhdl.Expression
import Gateware.Vhdl.WaitCounter

/-!
# Generating the description

Every member becomes an entity: its inputs are ports, its lowered body drives the result, and a wait
counter tells when the result is valid.  The names of entities, and those of the ports of one
entity, must differ in more than letter case.

The description is the text of all entities in the order of the members, and the memory is planned
for the largest member.
-/

namespace Gateware

/-! ## Names -/

/-- The name of the entity of a member. -/
def entityName (top member : String) : String := Vhdl.sanitize (top ++ "_" ++ member)

/-- The first pair of inputs, in order, whose ports are the same identifier, with the port of the
second.  `owners` are the inputs that came before, by identifier. -/
def portClash (owners : List (String × String)) :
    List Program.Input → Option (String × String × String)
  | [] => none
  | input :: rest =>
    let port := portName input.name
    match owners.lookup (Vhdl.identifierKey port) with
    | some first => some (first, input.name, port)
    | none => portClash ((Vhdl.identifierKey port, input.name) :: owners) rest

/-- The ports of a member have to be different identifiers. -/
def checkPorts (m : Program.Member) : Except GenerationError Unit :=
  match portClash [] m.inputs with
  | some (first, second, port) => .error (.portCollision m.name first second port)
  | none => .ok ()

/-! ## Entities -/

/-- The port of an input. -/
def inputPort (member : String) (input : Program.Input) : Except GenerationError Vhdl.EntityPort := do
  checkWidth member input.type
  pure ⟨portName input.name, .input, Vhdl.vectorType input.type⟩

/-- The ports of inputs, in order. -/
def inputPorts (member : String) : List Program.Input →
    Except GenerationError (List Vhdl.EntityPort)
  | [] => pure []
  | input :: rest => do
    let port ← inputPort member input
    let ports ← inputPorts member rest
    pure (port :: ports)

/-- The statement that drives the result.  A truth value becomes one bit. -/
def resultStatement {κ : Type} (m : Program.Member) (body : Lowered κ) :
    Except GenerationError String :=
  if body.comparison then
    if m.result.width != 1 then .error (.comparisonWidth m.name m.result.width)
    else .ok ("result <= \"1\" when " ++ Vhdl.expression body.expr ++ " else \"0\";")
  else .ok ("result <= " ++ Vhdl.expression (body.toType m.result) ++ ";")

/-- The entity of a member with the given body. -/
def memberEntity {κ : Type} (name : String) (m : Program.Member) (body : Lowered κ) (wait : Nat) :
    Except GenerationError Vhdl.Entity := do
  let inputs ← inputPorts m.name m.inputs
  checkWidth m.name m.result
  let statement ← resultStatement m body
  pure
    { name := name
      ports := [⟨"clk", .input, "std_logic"⟩, ⟨"start", .input, "std_logic"⟩] ++ inputs ++
        [⟨"result", .output, Vhdl.vectorType m.result⟩, ⟨"done", .output, "std_logic"⟩]
      declarations := Vhdl.Counter.declarations wait
      statements := [statement, Vhdl.Counter.process] }

/-! ## Members -/

/-- A member in hardware. -/
structure GeneratedMember where
  /-- The text of the entity. -/
  source : String
  cost : MemberCost
  /-- The memory cells of the member. -/
  cells : Nat

/-- Generates the entity of a member under a name. -/
def generateMember (model : CostModel Cycles) (name : String) (m : Program.Member) :
    Traced GenerationError GeneratedMember := do
  .ofExcept (checkPorts m)
  let body ← lower model m true m.body
  let wait := body.path.whole
  .note .generation .debug s!"{m.name}: critical path {body.path.render} ({wait} wait cycles)"
  let entity ← .ofExcept (memberEntity name m body wait)
  pure ⟨entity.render, ⟨m.name, name, body.path, wait⟩, m.cells⟩

/-- Generates members in order.  `owners` are the members that came before, by the identifiers of
their entities. -/
def generateMembers (model : CostModel Cycles) (top : String) (owners : List (String × String)) :
    List Program.Member → Traced GenerationError (List GeneratedMember)
  | [] => pure []
  | m :: rest => do
    let name := entityName top m.name
    let key := Vhdl.identifierKey name
    match owners.lookup key with
    | some first => .fail (.nameCollision first m.name name)
    | none => do
      let generated ← generateMember model name m
      let others ← generateMembers model top ((key, m.name) :: owners) rest
      pure (generated :: others)

/-! ## Programs -/

/-- The cells of the largest member. -/
def largestCells (members : List GeneratedMember) : Nat :=
  members.foldl (fun n m => max n m.cells) 0

/-- Puts the description of a program into the context, with the costs of its members and the
memory layout. -/
def Context.describe (memory : MemorySettings) : Action Context GenerationError Unit := do
  let c ← .get
  if c.program.members.isEmpty then .lift (.fail .noMembers)
  else
    let manifest := c.device.manifest
    let table ← .lift (c.device.delays.mapError .timing)
    let members ←
      .lift (generateMembers (.ofTable manifest table) c.request.top [] c.program.members)
    let layout ←
      .lift ((Traced.ofExcept (memory.plan (largestCells members) manifest)).mapError .device)
    .modify fun c => { c with layout := some layout }
    .note .generation .info
      s!"generated {members.length} entities for {manifest.name} at {manifest.clock.render}"
    .modify fun c => { c with costs := members.map (·.cost) }
    .modify fun c =>
      { c with description := some ⟨String.intercalate "\n" (members.map (·.source)), .vhdl⟩ }

/-- The context with the description of its program, if one can be generated. -/
def Context.generate (memory : MemorySettings) (c : Context) : Traced GenerationError Context :=
  (Context.describe memory).outcome c

end Gateware
