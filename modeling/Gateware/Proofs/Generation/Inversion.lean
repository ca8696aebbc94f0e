import Gateware.Compile.Generation
import Gateware.Proofs.Lowering.Inversion

/-!
# What generation accepts, and what it makes of it

Generation works through the members of a program, and for each member through its ports, its body
and its entity.  The lemmas here say for every stage exactly when it succeeds and with which result,
up to `generate_eq_ok` for a whole program.

Ports and entities are kept apart by their identifiers in lower case (`Program.Input.key`,
`Program.Member.key`): a scan remembers the ones that it has met together with their owners.  It
ends well exactly if no identifier comes twice.  `Owned` is what the scan knows about its owners; it
is what tells which of two items that clash came first.
-/

namespace Gateware

/-! ## Identifiers and their owners -/

/-- The identifier of the port of an input. -/
def Program.Input.key (input : Program.Input) : String := Vhdl.identifierKey (portName input.name)

/-- The identifier of the entity of a member. -/
def Program.Member.key (top : String) (m : Program.Member) : String :=
  Vhdl.identifierKey (entityName top m.name)

/-- Every owner is the name of an item that has been passed, under the identifier of that item. -/
def Owned {α : Type} (key name : α → String) (passed : List α) (owners : List (String × String)) :
    Prop :=
  ∀ k n, owners.lookup k = some n → ∃ a ∈ passed, key a = k ∧ name a = n

section

variable {α : Type} {key name : α → String} {passed : List α} {owners : List (String × String)}

lemma owned_nil : Owned key name [] [] := by
  intro k n h
  simp at h

/-- Passing an item and remembering it. -/
lemma Owned.pass (h : Owned key name passed owners) (a : α) :
    Owned key name (passed ++ [a]) ((key a, name a) :: owners) := by
  intro k n hlookup
  rw [List.lookup_cons] at hlookup
  split at hlookup
  · rename_i hk
    exact ⟨a, by simp, (beq_iff_eq.mp hk).symm, by simpa using hlookup⟩
  · obtain ⟨b, hb, hkey, hname⟩ := h k n hlookup
    exact ⟨b, by simp [hb], hkey, hname⟩

/-- An item whose identifier has an owner comes after that owner. -/
lemma Owned.sublist (h : Owned key name passed owners) {b : α} {first : String}
    (hlookup : owners.lookup (key b) = some first) (rest : List α) :
    ∃ a, [a, b].Sublist (passed ++ b :: rest) ∧ name a = first ∧ key a = key b := by
  obtain ⟨a, ha, hkey, hname⟩ := h (key b) first hlookup
  have hsub : ([a] ++ [b]).Sublist (passed ++ b :: rest) :=
    (List.singleton_sublist.mpr ha).append (by simp)
  exact ⟨a, hsub, hname, hkey⟩

/-- A list can be passed without a clash exactly if this holds for its first item, and for the
others once that is remembered. -/
lemma free_cons (name : α → String) {a : α} {rest : List α} :
    (((a :: rest).map key).Nodup ∧ ∀ x ∈ a :: rest, owners.lookup (key x) = none) ↔
      owners.lookup (key a) = none ∧ (rest.map key).Nodup ∧
        ∀ x ∈ rest, ((key a, name a) :: owners).lookup (key x) = none := by
  have hlookup : ∀ x, ((key a, name a) :: owners).lookup (key x) = none ↔
      key a ≠ key x ∧ owners.lookup (key x) = none := by
    intro x
    rw [List.lookup_cons]
    by_cases h : key x = key a
    · simp [h]
    · have hne : (key x == key a) = false := by simpa using h
      simp [hne, Ne.symm h]
  simp only [hlookup, List.map_cons, List.nodup_cons, List.mem_map, not_exists, not_and,
    List.mem_cons, forall_eq_or_imp]
  constructor
  · rintro ⟨⟨hnew, hnodup⟩, ha, hrest⟩
    exact ⟨ha, hnodup, fun x hx => ⟨fun h => hnew x hx h.symm, hrest x hx⟩⟩
  · rintro ⟨ha, hnodup, hrest⟩
    exact ⟨⟨fun x hx h => (hrest x hx).1 h.symm, hnodup⟩, ha, fun x hx => (hrest x hx).2⟩

end

/-! ## Ports -/

lemma portClash_cons (owners : List (String × String)) (input : Program.Input)
    (rest : List Program.Input) :
    portClash owners (input :: rest) =
      match owners.lookup input.key with
      | some first => some (first, input.name, portName input.name)
      | none => portClash ((input.key, input.name) :: owners) rest := rfl

/-- The ports of inputs are different identifiers exactly if there is no clash. -/
lemma portClash_eq_none : ∀ (inputs : List Program.Input) (owners : List (String × String)),
    portClash owners inputs = none ↔
      (inputs.map Program.Input.key).Nodup ∧ ∀ i ∈ inputs, owners.lookup i.key = none
  | [], owners => by simp [portClash]
  | input :: rest, owners => by
      have ih := portClash_eq_none rest ((input.key, input.name) :: owners)
      rw [free_cons Program.Input.name, ← ih, portClash_cons]
      cases owners.lookup input.key with
      | none => simp
      | some first => simp

/-- Two inputs that clash come in the order in which they are named. -/
lemma portClash_eq_some : ∀ {inputs passed : List Program.Input} {owners : List (String × String)}
    {first second port : String}, Owned Program.Input.key Program.Input.name passed owners →
    portClash owners inputs = some (first, second, port) →
      ∃ a b, [a, b].Sublist (passed ++ inputs) ∧ a.name = first ∧ b.name = second ∧
        port = portName b.name ∧ a.key = b.key
  | [], _, _, _, _, _, _, h => by simp [portClash] at h
  | input :: rest, passed, owners, first, second, port, howned, h => by
      rw [portClash_cons] at h
      split at h
      · rename_i owner hlookup
        simp only [Option.some.injEq, Prod.mk.injEq] at h
        obtain ⟨rfl, rfl, rfl⟩ := h
        obtain ⟨a, hsub, hname, hkey⟩ := howned.sublist hlookup rest
        exact ⟨a, input, hsub, hname, rfl, rfl, hkey⟩
      · have hrest := portClash_eq_some (howned.pass input) h
        simpa using hrest

lemma checkPorts_eq_ok {m : Program.Member} {u : Unit} :
    checkPorts m = .ok u ↔ (m.inputs.map Program.Input.key).Nodup := by
  have hnone := portClash_eq_none m.inputs []
  simp only [List.lookup_nil, implies_true, and_true] at hnone
  rw [← hnone, checkPorts]
  cases portClash [] m.inputs with
  | none => simp
  | some clash => simp

lemma checkPorts_eq_error {m : Program.Member} {e : GenerationError} :
    checkPorts m = .error e →
      ∃ a b, e = .portCollision m.name a.name b.name (portName b.name) ∧
        [a, b].Sublist m.inputs ∧ a.key = b.key := by
  rw [checkPorts]
  cases hclash : portClash [] m.inputs with
  | none => simp
  | some clash =>
      obtain ⟨first, second, port⟩ := clash
      rintro ⟨⟩
      obtain ⟨a, b, hsub, rfl, rfl, rfl, hkey⟩ := portClash_eq_some owned_nil hclash
      exact ⟨a, b, rfl, by simpa using hsub, hkey⟩

/-- The port of an input as it is declared. -/
def Program.Input.port (input : Program.Input) : Vhdl.EntityPort :=
  ⟨portName input.name, .input, Vhdl.vectorType input.type⟩

lemma inputPorts_eq_ok {member : String} : ∀ (inputs : List Program.Input)
    (ports : List Vhdl.EntityPort), inputPorts member inputs = .ok ports ↔
      (∀ i ∈ inputs, 0 < i.type.width) ∧ ports = inputs.map Program.Input.port
  | [], ports => by simp [inputPorts, eq_comm]
  | input :: rest, ports => by
      simp only [inputPorts, inputPort, except_bind, except_pure, bind_eq_ok, checkWidth_eq_ok,
        inputPorts_eq_ok rest, Except.ok.injEq, List.mem_cons, forall_eq_or_imp,
        List.map_cons]
      constructor
      · rintro ⟨port, ⟨-, hwidth, rfl⟩, others, ⟨hrest, rfl⟩, rfl⟩
        exact ⟨⟨hwidth, hrest⟩, rfl⟩
      · rintro ⟨⟨hwidth, hrest⟩, rfl⟩
        exact ⟨_, ⟨(), hwidth, rfl⟩, _, ⟨hrest, rfl⟩, rfl⟩

/-! ## Entities -/

/-- The entity of a member, given the statement that drives its result. -/
def Program.Member.entity (m : Program.Member) (name statement : String) (wait : Nat) :
    Vhdl.Entity where
  name := name
  ports := [⟨"clk", .input, "std_logic"⟩, ⟨"start", .input, "std_logic"⟩] ++
    m.inputs.map Program.Input.port ++
    [⟨"result", .output, Vhdl.vectorType m.result⟩, ⟨"done", .output, "std_logic"⟩]
  declarations := Vhdl.Counter.declarations wait
  statements := [statement, Vhdl.Counter.process]

section

variable {κ : Type} {m : Program.Member} {name : String} {body : Lowered κ} {wait : Nat}

/-- The result is driven by a condition if it has one bit, and by a number of its type. -/
lemma resultStatement_eq_ok {statement : String} :
    resultStatement m body = .ok statement ↔
      (body.comparison = true → m.result.width = 1) ∧
        statement = if body.comparison
          then "result <= \"1\" when " ++ Vhdl.expression body.expr ++ " else \"0\";"
          else "result <= " ++ Vhdl.expression (body.toType m.result) ++ ";" := by
  unfold resultStatement
  split_ifs with hcompare hwidth
  · have hne : m.result.width ≠ 1 := by simpa using hwidth
    simp [hcompare, hne]
  · have heq : m.result.width = 1 := by simpa using hwidth
    simp [hcompare, heq, eq_comm]
  · simp [hcompare, eq_comm]

lemma memberEntity_eq_ok {entity : Vhdl.Entity} :
    memberEntity name m body wait = .ok entity ↔
      (∀ i ∈ m.inputs, 0 < i.type.width) ∧ 0 < m.result.width ∧
        ∃ statement, resultStatement m body = .ok statement ∧
          entity = m.entity name statement wait := by
  simp only [memberEntity, except_bind, except_pure, bind_eq_ok, inputPorts_eq_ok,
    checkWidth_eq_ok, Except.ok.injEq]
  constructor
  · rintro ⟨ports, ⟨hinputs, rfl⟩, -, hresult, statement, hstatement, rfl⟩
    exact ⟨hinputs, hresult, statement, hstatement, rfl⟩
  · rintro ⟨hinputs, hresult, statement, hstatement, rfl⟩
    exact ⟨_, ⟨hinputs, rfl⟩, (), hresult, statement, hstatement, rfl⟩

end

/-! ## Members -/

section

variable {model : CostModel Cycles} {m : Program.Member} {name top : String}

lemma generateMember_eq_ok {g : GeneratedMember} :
    (generateMember model name m).result = .ok g ↔
      checkPorts m = .ok () ∧ ∃ body, (lower model m true m.body).result = .ok body ∧
        ∃ entity, memberEntity name m body body.path.whole = .ok entity ∧
          g = ⟨entity.render, ⟨m.name, name, body.path, body.path.whole⟩, m.cells⟩ := by
  simp only [generateMember, Traced.result_bind, Traced.result_ofExcept, Traced.result_note,
    Traced.result_pure, bind_eq_ok, Except.ok.injEq]
  constructor
  · rintro ⟨⟨⟩, hports, body, hbody, -, -, entity, hentity, rfl⟩
    exact ⟨hports, body, hbody, entity, hentity, rfl⟩
  · rintro ⟨hports, body, hbody, entity, hentity, rfl⟩
    exact ⟨(), hports, body, hbody, (), trivial, entity, hentity, rfl⟩

lemma generateMembers_cons (owners : List (String × String)) (rest : List Program.Member) :
    (generateMembers model top owners (m :: rest)).result =
      match owners.lookup (m.key top) with
      | some first => .error (.nameCollision first m.name (entityName top m.name))
      | none => (generateMember model (entityName top m.name) m).result.bind fun g =>
          (generateMembers model top ((m.key top, m.name) :: owners) rest).result.bind fun gs =>
            .ok (g :: gs) := by
  rw [generateMembers]
  simp only [← Program.Member.key.eq_1]
  cases owners.lookup (m.key top) with
  | none => simp
  | some first => simp

/-- Members are generated one by one, and their entities are different identifiers. -/
lemma generateMembers_eq_ok : ∀ (members : List Program.Member) (owners : List (String × String))
    (gs : List GeneratedMember), (generateMembers model top owners members).result = .ok gs ↔
      ((members.map (Program.Member.key top)).Nodup ∧
        ∀ m ∈ members, owners.lookup (m.key top) = none) ∧
      List.Forall₂ (fun m g => (generateMember model (entityName top m.name) m).result = .ok g)
        members gs
  | [], owners, gs => by simp [generateMembers, eq_comm]
  | m :: rest, owners, gs => by
      rw [generateMembers_cons, free_cons Program.Member.name]
      cases owners.lookup (m.key top) with
      | some first => simp
      | none =>
          simp only [bind_eq_ok, generateMembers_eq_ok rest, Except.ok.injEq, true_and]
          constructor
          · rintro ⟨g, hg, others, ⟨hfree, hothers⟩, rfl⟩
            exact ⟨hfree, .cons hg hothers⟩
          · rintro ⟨hfree, hall⟩
            cases hall with
            | cons hg hothers => exact ⟨_, hg, _, ⟨hfree, hothers⟩, rfl⟩

end

/-! ## Programs -/

/-- The costs of the device of a context, given its measurements. -/
def Context.costModel (c : Context) (table : TimingTable) : CostModel Cycles :=
  .ofTable c.device.manifest table

/-- The context with what was generated. -/
def Context.described (c : Context) (layout : MemoryLayout) (gs : List GeneratedMember) : Context :=
  { c with
    layout := some layout
    costs := gs.map (·.cost)
    description := some ⟨String.intercalate "\n" (gs.map (·.source)), .vhdl⟩ }

/-- Generation stage by stage.  All that can fail comes before the first change to the context. -/
lemma generate_result (memory : MemorySettings) (c : Context) :
    (c.generate memory).result =
      if c.program.members.isEmpty then .error .noMembers
      else (c.device.delays.result.mapError .timing).bind fun table =>
        (generateMembers (c.costModel table) c.request.top [] c.program.members).result.bind
          fun gs => ((memory.plan (largestCells gs) c.device.manifest).mapError .device).bind
            fun layout => .ok (c.described layout gs) := by
  rw [Context.generate, Context.describe, Action.outcome_get_bind]
  split_ifs
  · rfl
  · simp only [Action.result_lift_bind, Action.outcome_modify_bind, Action.result_note_bind,
      Action.result_modify, Traced.result_mapError, Traced.result_ofExcept]
    rfl

/-- **When a description is generated**, and what it consists of. -/
theorem generate_eq_ok {memory : MemorySettings} {c c' : Context} :
    (c.generate memory).result = .ok c' ↔
      c.program.members ≠ [] ∧ ∃ table, TimingTable.parse c.device.report = .ok table ∧
        (c.program.members.map (Program.Member.key c.request.top)).Nodup ∧
        ∃ gs, List.Forall₂
            (fun m g => (generateMember (c.costModel table) (entityName c.request.top m.name)
              m).result = .ok g) c.program.members gs ∧
          ∃ layout, memory.plan (largestCells gs) c.device.manifest = .ok layout ∧
            c' = c.described layout gs := by
  have hdelays : c.device.delays.result = TimingTable.parse c.device.report := rfl
  rw [generate_result]
  by_cases hempty : c.program.members = []
  · simp [hempty]
  · simp only [List.isEmpty_iff, hempty, if_false, bind_eq_ok, mapError_eq_ok,
      generateMembers_eq_ok, List.lookup_nil, implies_true, and_true, Except.ok.injEq, hdelays]
    constructor
    · rintro ⟨table, htable, gs, ⟨hnodup, hgs⟩, layout, hlayout, rfl⟩
      exact ⟨hempty, table, htable, hnodup, gs, hgs, layout, hlayout, rfl⟩
    · rintro ⟨-, table, htable, hnodup, gs, hgs, layout, hlayout, rfl⟩
      exact ⟨table, htable, gs, ⟨hnodup, hgs⟩, layout, hlayout, rfl⟩

/-! ## Descriptions -/

/-- What generation makes of a member. -/
def Program.Member.HasEntity (model : CostModel Cycles) (top : String) (m : Program.Member)
    (entity : Vhdl.Entity) : Prop :=
  checkPorts m = .ok () ∧ ∃ body, (lower model m true m.body).result = .ok body ∧
    memberEntity (entityName top m.name) m body body.path.whole = .ok entity

lemma exists_entities {model : CostModel Cycles} {top : String} {members : List Program.Member}
    {gs : List GeneratedMember}
    (h : List.Forall₂ (fun m g => (generateMember model (entityName top m.name) m).result = .ok g)
      members gs) :
    ∃ entities, List.Forall₂ (Program.Member.HasEntity model top) members entities ∧
      gs.map (·.source) = entities.map Vhdl.Entity.render := by
  induction h with
  | nil => exact ⟨[], .nil, rfl⟩
  | cons hg _ ih =>
      obtain ⟨entities, hentities, hsources⟩ := ih
      obtain ⟨hports, body, hbody, entity, hentity, rfl⟩ := generateMember_eq_ok.mp hg
      refine ⟨entity :: entities, .cons ⟨hports, body, hbody, hentity⟩ hentities, ?_⟩
      simp only [List.map_cons, hsources]

/-- A generated description is the text of one entity for every member, in order. -/
lemma generate_entities {memory : MemorySettings} {c c' : Context}
    (h : (c.generate memory).result = .ok c') :
    ∃ table entities,
      List.Forall₂ (Program.Member.HasEntity (c.costModel table) c.request.top)
        c.program.members entities ∧
      c'.description = some ⟨String.intercalate "\n" (entities.map Vhdl.Entity.render), .vhdl⟩ := by
  obtain ⟨-, table, -, -, gs, hgs, layout, -, rfl⟩ := generate_eq_ok.mp h
  obtain ⟨entities, hentities, hsources⟩ := exists_entities hgs
  refine ⟨table, entities, hentities, ?_⟩
  simp only [Context.described, hsources]

/-! ## A program with a description

The conditions of `generate_eq_ok` can be met: here by a product and a comparison, whose members and
inputs do not have identifiers as names. -/

/-- A device with two measurements. -/
def Device.bench : Device :=
  .withDefaults
    { name := "Bench"
      family := "Test"
      toolChain := "None"
      clock := .ofMhz 100
      memory := mebibyte
      channels := []
      platforms := [] }
    "mul signed32 3.5\nlt unsigned8 1" 64 4

/-- A program of two members for that device. -/
def Context.sample : Context where
  program := ⟨[],
    [{ name := "Filter.Scale"
       inputs := [⟨"a b", ⟨8, true⟩⟩, ⟨"", ⟨16, false⟩⟩]
       result := ⟨24, true⟩
       body := .binary .mul [.input "a b", .input "", .constant 3 ⟨4, false⟩] ⟨16, true⟩ },
     { name := "Filter.Less?"
       inputs := [⟨"a", ⟨8, true⟩⟩, ⟨"b", ⟨8, true⟩⟩]
       result := ⟨1, false⟩
       body := .binary .lt [.input "a", .input "b"] ⟨12, true⟩ }]⟩
  request := { device := "Bench" }
  device := .bench

lemma exists_generate_sample : ∃ c', (Context.sample.generate {}).result = .ok c' := by
  have hok : (Context.sample.generate {}).result.isOk = true := by decide +kernel
  cases h : (Context.sample.generate {}).result with
  | error e =>
      rw [h] at hok
      simp [Except.isOk, Except.toBool] at hok
  | ok c' => exact ⟨c', rfl⟩

end Gateware
