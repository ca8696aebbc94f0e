import Gateware.Proofs.Generation.Inversion
import Gateware.Proofs.Vhdl.Characters

/-!
# Names leave no trace

The names of members, of their inputs and of the top come from outside and may hold any characters.
A description shows of them only what is left after they have been made into identifiers.  So if
everything is renamed and the identifiers stay what they were, the description stays the same to the
last character (`Context.Renamed`, `generate_renamed`).

A renaming of the inputs of a member that keeps their ports cannot make two of them one, since then
they would have had the same port before.  This is why variables still refer to the input that they
referred to (`input?_renamed`), and from there lowering does not see the difference
(`lower_renamed`).
-/

namespace Gateware

/-! ## Renaming -/

mutual

/-- An expression in which inputs have other names. -/
def Program.Expr.rename (f : String → String) : Program.Expr → Program.Expr
  | .input name => .input (f name)
  | .constant value type => .constant value type
  | .binary op operands type => .binary op (renameAll f operands) type
  | .unary op operand type => .unary op (operand.rename f) type

/-- Expressions in which inputs have other names. -/
def Program.Expr.renameAll (f : String → String) : List Program.Expr → List Program.Expr
  | [] => []
  | e :: es => e.rename f :: renameAll f es

end

/-- An input under another name. -/
def Program.Input.rename (f : String → String) (input : Program.Input) : Program.Input :=
  { input with name := f input.name }

/-- A member under another name, with other names for its inputs. -/
def Program.Member.rename (name : String) (f : String → String) (m : Program.Member) :
    Program.Member where
  name := name
  inputs := m.inputs.map (Program.Input.rename f)
  result := m.result
  body := m.body.rename f

/-- The second member is the first one with other names, which become the same identifiers. -/
def Program.Member.Renamed (top top' : String) (m m' : Program.Member) : Prop :=
  ∃ f, m' = m.rename m'.name f ∧
    entityName top' m'.name = entityName top m.name ∧
    ∀ input ∈ m.inputs, portName (f input.name) = portName input.name

/-- The second context asks for the same hardware as the first under other names, which become the
same identifiers. -/
structure Context.Renamed (c d : Context) : Prop where
  device : d.device = c.device
  members : List.Forall₂ (Program.Member.Renamed c.request.top d.request.top)
    c.program.members d.program.members

@[simp]
lemma renameAll_eq_map (f : String → String) : ∀ es : List Program.Expr,
    Program.Expr.renameAll f es = es.map (Program.Expr.rename f)
  | [] => rfl
  | e :: es => by rw [Program.Expr.renameAll, renameAll_eq_map f es, List.map_cons]

/-! ## Members -/

section

variable {m : Program.Member} {name : String} {f : String → String}
  (hports : ∀ input ∈ m.inputs, portName (f input.name) = portName input.name)

include hports

/-- The ports of renamed inputs are the same. -/
lemma inputs_renamed {α : Type} (g : String → BitType → α) :
    (m.rename name f).inputs.map (fun input => g (portName input.name) input.type) =
      m.inputs.map fun input => g (portName input.name) input.type := by
  rw [Program.Member.rename, List.map_map]
  refine List.map_congr_left fun input hinput => ?_
  simp only [Function.comp_apply, Program.Input.rename, hports input hinput]

/-- A renamed variable refers to the input that it referred to before. -/
lemma input?_renamed (hdistinct : (m.inputs.map Program.Input.key).Nodup) {x : String}
    {input : Program.Input} (h : m.input? x = some input) :
    (m.rename name f).input? (f x) = some (input.rename f) := by
  obtain ⟨hmem, rfl⟩ := Program.Member.input?_eq_some h
  have hsame : ∀ other ∈ m.inputs, (f other.name == f input.name) = (other.name == input.name) := by
    intro other hother
    refine Bool.eq_iff_iff.mpr ?_
    rw [beq_iff_eq, beq_iff_eq]
    constructor
    · intro heq
      -- inputs that are given one name had one port before
      have hport : portName other.name = portName input.name := by
        rw [← hports other hother, ← hports input hmem, heq]
      have hkey : other.key = input.key := congrArg Vhdl.identifierKey hport
      rw [List.inj_on_of_nodup_map hdistinct hother hmem hkey]
    · exact congrArg f
  rw [Program.Member.input?, Program.Member.rename, List.find?_map]
  have hfind : m.inputs.find? ((fun i : Program.Input => i.name == f input.name) ∘
      Program.Input.rename f) = some input := by
    rw [← h, Program.Member.input?]
    exact List.find?_congr hsame
  rw [hfind, Option.map_some]

/-- **Lowering does not see names.** -/
lemma lower_renamed (hdistinct : (m.inputs.map Program.Input.key).Nodup) {κ : Type}
    {model : CostModel κ} (e : Program.Expr) : ∀ {top : Bool} {x : Lowered κ},
    (lower model m top e).result = .ok x →
      (lower model (m.rename name f) top (e.rename f)).result = .ok x := by
  induction e using Program.Expr.induction with
  | input x =>
      intro top y h
      obtain ⟨input, hinput, hwidth, rfl⟩ := lower_input.mp h
      obtain ⟨hmem, rfl⟩ := Program.Member.input?_eq_some hinput
      refine lower_input.mpr ⟨_, input?_renamed hports hdistinct hinput, hwidth, ?_⟩
      rw [hports input hmem]
      rfl
  | constant value type =>
      intro top y h
      exact lower_constant.mpr (lower_constant.mp h)
  | unary op operand type ih =>
      intro top y h
      obtain ⟨hwidth, hneg, cost, hcost, z, hz, rfl⟩ := lower_unary.mp h
      exact lower_unary.mpr ⟨hwidth, hneg, cost, hcost, z, ih hz, rfl⟩
  | binary op operands type ih =>
      intro top y h
      obtain ⟨hwidth, htop, hpos, htwo, cost, hcost, xs, hxs, hjoin⟩ := lower_binary.mp h
      rw [Program.Expr.rename, renameAll_eq_map]
      refine lower_binary.mpr ⟨hwidth, htop, by simpa using hpos, by simpa using htwo, cost, hcost,
        xs, ?_, hjoin⟩
      rw [List.forall₂_map_left_iff]
      exact ((List.forall₂_and_left operands xs).mpr ⟨ih, hxs⟩).imp fun e x h => h.1 h.2

/-- A renamed member has the same entity. -/
lemma memberEntity_renamed {κ : Type} {body : Lowered κ} {entity : Vhdl.Entity} {label : String}
    {wait : Nat} (h : memberEntity label m body wait = .ok entity) :
    memberEntity label (m.rename name f) body wait = .ok entity := by
  obtain ⟨hinputs, hresult, statement, hstatement, rfl⟩ := memberEntity_eq_ok.mp h
  -- the name of a member is part of errors only
  have hvalue := resultStatement_eq_ok.mp hstatement
  refine memberEntity_eq_ok.mpr ⟨?_, hresult, statement, resultStatement_eq_ok.mpr hvalue, ?_⟩
  · intro input hinput
    obtain ⟨original, horiginal, rfl⟩ := List.mem_map.mp hinput
    exact hinputs original horiginal
  · have hsame : (m.rename name f).inputs.map Program.Input.port =
        m.inputs.map Program.Input.port :=
      inputs_renamed hports fun port type =>
        (⟨port, .input, Vhdl.vectorType type⟩ : Vhdl.EntityPort)
    rw [Program.Member.entity, Program.Member.entity, hsame]
    rfl

end

lemma cells_renamed (m : Program.Member) (name : String) (f : String → String) :
    (m.rename name f).cells = m.cells := by
  simp only [Program.Member.cells, Program.Member.rename, List.foldr_map, Program.Input.rename]

section

variable {model : CostModel Cycles} {top top' : String} {m m' : Program.Member}

/-- A renamed member becomes the same hardware. -/
lemma generateMember_renamed {g : GeneratedMember} (h : m.Renamed top top' m')
    (hg : (generateMember model (entityName top m.name) m).result = .ok g) :
    (generateMember model (entityName top' m'.name) m').result =
      .ok { g with cost.member := m'.name } := by
  obtain ⟨f, hm', hentity, hports⟩ := h
  obtain ⟨hcheck, body, hbody, entity, hmember, rfl⟩ := generateMember_eq_ok.mp hg
  have hdistinct : (m.inputs.map Program.Input.key).Nodup := checkPorts_eq_ok.mp hcheck
  have hkeys : (m.rename m'.name f).inputs.map Program.Input.key = m.inputs.map Program.Input.key :=
    inputs_renamed hports fun port _ => Vhdl.identifierKey port
  rw [hentity, generateMember_eq_ok, hm']
  refine ⟨checkPorts_eq_ok.mpr (by rw [hkeys]; exact hdistinct), body,
    lower_renamed hports hdistinct m.body hbody, entity, memberEntity_renamed hports hmember, ?_⟩
  rw [cells_renamed]

end

/-! ## Programs -/

/-- Two members have the same entity, delay and wait. -/
structure MemberCost.SameHardware (a b : MemberCost) : Prop where
  entity : b.entity = a.entity
  cycles : b.cycles = a.cycles
  wait : b.wait = a.wait

/-- Two members become the same, but for their names. -/
structure GeneratedMember.SameHardware (g g' : GeneratedMember) : Prop where
  source : g'.source = g.source
  cells : g'.cells = g.cells
  cost : g.cost.SameHardware g'.cost

/-- What was generated is the same, but for the names of members. -/
structure Context.SameHardware (c d : Context) : Prop where
  description : d.description = c.description
  layout : d.layout = c.layout
  costs : List.Forall₂ MemberCost.SameHardware c.costs d.costs

section

variable {model : CostModel Cycles} {top top' : String} {ms ms' : List Program.Member}
  {gs : List GeneratedMember}

/-- Renamed members become the same hardware one by one. -/
lemma exists_generated_renamed
    (h : List.Forall₂ (Program.Member.Renamed top top') ms ms')
    (hgs : List.Forall₂
      (fun m g => (generateMember model (entityName top m.name) m).result = .ok g) ms gs) :
    ∃ gs', List.Forall₂
        (fun m g => (generateMember model (entityName top' m.name) m).result = .ok g) ms' gs' ∧
      List.Forall₂ GeneratedMember.SameHardware gs gs' := by
  induction h generalizing gs with
  | nil =>
      cases hgs
      exact ⟨[], .nil, .nil⟩
  | cons hm _ ih =>
      cases hgs with
      | cons hg hrest =>
          obtain ⟨gs', hgs', hsame⟩ := ih hrest
          exact ⟨_, .cons (generateMember_renamed hm hg) hgs', .cons ⟨rfl, rfl, rfl, rfl, rfl⟩ hsame⟩

lemma keys_renamed (h : List.Forall₂ (Program.Member.Renamed top top') ms ms') :
    ms'.map (Program.Member.key top') = ms.map (Program.Member.key top) := by
  induction h with
  | nil => rfl
  | cons hm _ ih =>
      obtain ⟨f, -, hentity, -⟩ := hm
      rw [List.map_cons, List.map_cons, ih, Program.Member.key, hentity]
      rfl

/-- A projection that the same hardware shares is shared by lists of it. -/
lemma map_sameHardware {gs' : List GeneratedMember} {α : Type} (p : GeneratedMember → α)
    (hp : ∀ g g', g.SameHardware g' → p g' = p g)
    (h : List.Forall₂ GeneratedMember.SameHardware gs gs') : gs'.map p = gs.map p := by
  induction h with
  | nil => rfl
  | cons hg _ ih => rw [List.map_cons, List.map_cons, ih, hp _ _ hg]

end

/-- Renaming keeps what is generated. -/
lemma generate_renamed {memory : MemorySettings} {c d c' : Context} (hrenamed : c.Renamed d)
    (h : (c.generate memory).result = .ok c') :
    ∃ d', (d.generate memory).result = .ok d' ∧ c'.SameHardware d' := by
  obtain ⟨hne, table, htable, hnodup, gs, hgs, layout, hlayout, rfl⟩ := generate_eq_ok.mp h
  obtain ⟨gs', hgs', hsame⟩ := exists_generated_renamed hrenamed.members hgs
  have hsources := map_sameHardware (·.source) (fun _ _ hg => hg.source) hsame
  have hcells : largestCells gs' = largestCells gs := by
    have hmap := map_sameHardware (·.cells) (fun _ _ hg => hg.cells) hsame
    have hmax := congrArg (List.foldl max 0) hmap
    rwa [List.foldl_map, List.foldl_map] at hmax
  refine ⟨d.described layout gs', generate_eq_ok.mpr ⟨?_, table, ?_, ?_, gs', ?_, layout, ?_, rfl⟩,
    ?_, rfl, ?_⟩
  · intro hnil
    exact hne (List.forall₂_nil_right_iff.mp (hnil ▸ hrenamed.members))
  · rw [hrenamed.device]
    exact htable
  · rw [keys_renamed hrenamed.members]
    exact hnodup
  · rw [Context.costModel, hrenamed.device]
    exact hgs'
  · rw [hcells, hrenamed.device]
    exact hlayout
  · simp only [Context.described, hsources]
  · simp only [Context.described, List.forall₂_map_left_iff, List.forall₂_map_right_iff]
    exact hsame.imp fun g g' hg => hg.cost

/-- **Names cannot get text into a description.**  If two programs are the same but for the names of
members, inputs and top, and these become the same identifiers, then the same description is
generated for both, with the same entities, delays and waits.  And whatever characters the names
have, a description consists of visible characters of ASCII, spaces and line ends. -/
theorem names_leave_no_trace (memory : MemorySettings) (c c' : Context)
    (h : (c.generate memory).result = .ok c') :
    (∀ d, c.Renamed d → ∃ d', (d.generate memory).result = .ok d' ∧ c'.SameHardware d') ∧
      ∃ source, c'.description = some ⟨source, .vhdl⟩ ∧ Vhdl.Printable source :=
  ⟨fun _ hrenamed => generate_renamed hrenamed h, generate_printable h⟩

/-- The sample under names that would change the source if they were written to it. -/
def Context.disguised : Context where
  program := ⟨[],
    [{ name := "Filter;\n--Scale"
       inputs := [⟨"a);\nb", ⟨8, true⟩⟩, ⟨"é", ⟨16, false⟩⟩]
       result := ⟨24, true⟩
       body := .binary .mul [.input "a);\nb", .input "é", .constant 3 ⟨4, false⟩] ⟨16, true⟩ },
     { name := "Filter Less\t"
       inputs := [⟨"?a", ⟨8, true⟩⟩, ⟨"?b", ⟨8, true⟩⟩]
       result := ⟨1, false⟩
       body := .binary .lt [.input "?a", .input "?b"] ⟨12, true⟩ }]⟩
  request := { device := "Bench", top := "kiln\nhardware" }
  device := .bench

/-- The names that the inputs of the sample have there. -/
def disguise : String → String
  | "a b" => "a);\nb"
  | "" => "é"
  | "a" => "?a"
  | "b" => "?b"
  | name => name

lemma sample_renamed : Context.sample.Renamed .disguised where
  device := rfl
  members := by
    refine .cons ⟨disguise, ?_, ?_, ?_⟩ (.cons ⟨disguise, ?_, ?_, ?_⟩ .nil)
    · rfl
    · decide +kernel
    · decide +kernel
    · rfl
    · decide +kernel
    · decide +kernel

theorem names_leave_no_trace_sample :
    Context.sample.Renamed .disguised ∧
      ∃ c' d' source, (Context.sample.generate {}).result = .ok c' ∧
        (Context.disguised.generate {}).result = .ok d' ∧ c'.SameHardware d' ∧
        c'.description = some ⟨source, .vhdl⟩ ∧ Vhdl.Printable source := by
  obtain ⟨c', h⟩ := exists_generate_sample
  obtain ⟨hrenamed, source, hsource, hprintable⟩ := names_leave_no_trace {} .sample c' h
  obtain ⟨d', hd, hsame⟩ := hrenamed .disguised sample_renamed
  exact ⟨sample_renamed, c', d', source, h, hd, hsame, hsource, hprintable⟩

end Gateware
