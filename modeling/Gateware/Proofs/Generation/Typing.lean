import Gateware.Proofs.Generation.Inversion
import Gateware.Proofs.Lowering.Typing

/-!
# Generated descriptions are well typed

Every entity of a description assigns to its result once, and what it assigns is the text of an
expression.  `generate_typed` says of all entities of a program that this expression keeps to the
typing rules of `Hardware.HasType` for the ports that the entity declares, and that it has exactly
the type of the result, or is a condition that becomes the only bit of the result.
-/

namespace Gateware

open Hardware (HasType IsCondition)

/-- The statements that drive a result of a type by a well-typed expression over some ports. -/
inductive Drives (ports : Hardware.Ports) (t : BitType) : String → Prop
  | number {e : Hardware.Expr} (he : HasType ports e t) :
      Drives ports t ("result <= " ++ Vhdl.expression e ++ ";")
  | condition {e : Hardware.Expr} (he : IsCondition ports e) (ht : t.width = 1) :
      Drives ports t ("result <= \"1\" when " ++ Vhdl.expression e ++ " else \"0\";")

/-- An entity that declares the given input ports, no two of them the same identifier, and drives
its result from them. -/
structure Vhdl.Entity.Typed (ports : Hardware.Ports) (result : BitType) (entity : Vhdl.Entity) :
    Prop where
  ports_eq : entity.ports = [⟨"clk", .input, "std_logic"⟩, ⟨"start", .input, "std_logic"⟩] ++
    ports.map (fun port => ⟨port.1, .input, Vhdl.vectorType port.2⟩) ++
    [⟨"result", .output, Vhdl.vectorType result⟩, ⟨"done", .output, "std_logic"⟩]
  distinct : (ports.map fun port => Vhdl.identifierKey port.1).Nodup
  ports_pos : ∀ port ∈ ports, 0 < port.2.width
  result_pos : 0 < result.width
  drives : ∃ statement, Drives ports result statement ∧
    entity.statements = [statement, Vhdl.Counter.process]

/-- A description made of one well-typed entity for every member of a program, in order. -/
def Description.Typed (top : String) (members : List Program.Member) (d : Description) : Prop :=
  ∃ entities, d = ⟨String.intercalate "\n" (entities.map Vhdl.Entity.render), .vhdl⟩ ∧
    List.Forall₂ (fun m entity => entity.name = entityName top m.name ∧
      entity.Typed m.portTypes m.result) members entities

/-- The statement that a lowered body is written as. -/
lemma Lowered.WellTyped.drives {κ : Type} {ports : Hardware.Ports} {m : Program.Member}
    {body : Lowered κ} {statement : String} (hbody : body.WellTyped ports)
    (hresult : 0 < m.result.width) (h : resultStatement m body = .ok statement) :
    Drives ports m.result statement := by
  obtain ⟨hwidth, rfl⟩ := resultStatement_eq_ok.mp h
  cases hc : body.comparison with
  | true =>
      simp only [Lowered.WellTyped, hc, if_true] at hbody
      exact .condition hbody (hwidth hc)
  | false => exact .number (hbody.toType hc hresult)

lemma Program.Member.HasEntity.typed {model : CostModel Cycles} {top : String}
    {m : Program.Member} {entity : Vhdl.Entity} (h : m.HasEntity model top entity) :
    entity.name = entityName top m.name ∧ entity.Typed m.portTypes m.result := by
  obtain ⟨hports, body, hbody, hentity⟩ := h
  obtain ⟨hinputs, hresult, statement, hstatement, rfl⟩ := memberEntity_eq_ok.mp hentity
  have htyped : body.WellTyped m.portTypes := (lower_typed m.body hbody).2
  refine ⟨rfl, ?_, ?_, ?_, hresult, statement, htyped.drives hresult hstatement, rfl⟩
  · simp [Program.Member.entity, Program.Member.portTypes, Program.Input.port]
  · rw [Program.Member.portTypes, List.map_map]
    exact checkPorts_eq_ok.mp hports
  · intro port hport
    obtain ⟨input, hinput, rfl⟩ := List.mem_map.mp hport
    exact hinputs input hinput

/-- **Descriptions are well typed.**  In every entity of a generated description, the right-hand
side of the assignment to the result is the text of an expression in which the operands of every
operation have one type, products are cut back at once, only shift amounts keep their own type, only
numbers with a sign are negated, and nothing has no bits. -/
theorem generate_typed (memory : MemorySettings) (c c' : Context)
    (h : (c.generate memory).result = .ok c') :
    ∃ d, c'.description = some d ∧ d.Typed c.request.top c.program.members := by
  obtain ⟨table, entities, hentities, hdescription⟩ := generate_entities h
  refine ⟨_, hdescription, entities, rfl, ?_⟩
  exact hentities.imp fun m entity hentity => hentity.typed

theorem generate_typed_sample :
    ∃ c' d, (Context.sample.generate {}).result = .ok c' ∧ c'.description = some d ∧
      d.Typed "kiln_hardware" Context.sample.program.members := by
  obtain ⟨c', h⟩ := exists_generate_sample
  obtain ⟨d, hd, htyped⟩ := generate_typed {} .sample c' h
  exact ⟨c', d, h, hd, htyped⟩

end Gateware
