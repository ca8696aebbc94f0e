import Gateware.Proofs.Generation.Inversion
import Gateware.Proofs.Lowering.Acceptance
import Gateware.Proofs.Memory.Layout

/-!
# Which programs have a description

The checks of generation are spread over its stages: names while it goes through the members, ports
before a body is lowered, the body while it is lowered, widths when the entity is put together, and
the memory at the end.  `Context.WellFormed` collects what a program has to be like without regard
to these stages.  By `generate_accepts` nothing else is needed, and nothing less is enough.
-/

namespace Gateware

/-- What a member has to be like. -/
structure Program.Member.WellFormed (table : TimingTable) (m : Program.Member) : Prop where
  /-- No two ports are the same identifier. -/
  ports_distinct : (m.inputs.map Program.Input.key).Nodup
  inputs_pos : ∀ i ∈ m.inputs, 0 < i.type.width
  result_pos : 0 < m.result.width
  body_allowed : ∀ e, m.body.Contains e → e.Allowed table m
  /-- Nothing inside the body is a comparison. -/
  comparison_top : ∀ x ∈ m.body.operands, ∀ e, x.Contains e → e.isComparison = false
  comparison_width : m.body.isComparison = true → m.result.width = 1

/-- What a program, its device and the memory settings have to be like. -/
structure Context.WellFormed (memory : MemorySettings) (c : Context) : Prop where
  has_members : c.program.members ≠ []
  /-- No two entities are the same identifier. -/
  entities_distinct : (c.program.members.map (Program.Member.key c.request.top)).Nodup
  members_wellFormed : ∃ table, TimingTable.parse c.device.report = .ok table ∧
    ∀ m ∈ c.program.members, m.WellFormed table
  /-- The buffer of a largest member fits into the memory of the device. -/
  largest_fits : ∃ m ∈ c.program.members, (∀ m' ∈ c.program.members, m'.cells ≤ m.cells) ∧
    memory.totalBytes m.cells ≤ c.device.manifest.memory

/-! ## Members -/

lemma generateMember_accepts {manifest : Manifest} {table : TimingTable} {name : String}
    {m : Program.Member} :
    (∃ g, (generateMember (.ofTable manifest table) name m).result = .ok g) ↔
      m.WellFormed table := by
  simp only [generateMember_eq_ok, checkPorts_eq_ok, memberEntity_eq_ok, resultStatement_eq_ok]
  constructor
  · rintro ⟨g, hports, body, hbody, entity, ⟨hinputs, hresult, statement, ⟨hwidth, -⟩, -⟩, -⟩
    obtain ⟨hallowed, htop⟩ := (lower_body_accepts hinputs m.body).mp ⟨body, hbody⟩
    rw [lower_comparison hbody] at hwidth
    exact ⟨hports, hinputs, hresult, hallowed, htop, hwidth⟩
  · rintro ⟨hports, hinputs, hresult, hallowed, htop, hwidth⟩
    obtain ⟨body, hbody⟩ := (lower_body_accepts hinputs m.body).mpr ⟨hallowed, htop⟩
    rw [← lower_comparison hbody] at hwidth
    exact ⟨_, hports, body, hbody, _, ⟨hinputs, hresult, _, ⟨hwidth, rfl⟩, rfl⟩, rfl⟩

/-! ## The largest member -/

/-- Generation keeps the cells of the members. -/
lemma generated_cells {model : CostModel Cycles} {top : String} {members : List Program.Member}
    {gs : List GeneratedMember}
    (h : List.Forall₂ (fun m g => (generateMember model (entityName top m.name) m).result = .ok g)
      members gs) :
    gs.map (·.cells) = members.map Program.Member.cells := by
  induction h with
  | nil => rfl
  | cons hg _ ih =>
      obtain ⟨-, body, -, entity, -, rfl⟩ := generateMember_eq_ok.mp hg
      simp only [List.map_cons, ih]

lemma max?_cells {gs : List GeneratedMember} (hne : gs ≠ []) :
    (gs.map (·.cells)).max? = some (largestCells gs) := by
  cases gs with
  | nil => exact absurd rfl hne
  | cons g gs =>
      rw [List.map_cons, List.max?_cons', List.foldl_map]
      simp [largestCells]

/-- What holds of the largest number of cells holds of the cells of a largest member. -/
lemma largestCells_iff (P : Nat → Prop) {members : List Program.Member}
    {gs : List GeneratedMember} (hcells : gs.map (·.cells) = members.map Program.Member.cells)
    (hne : members ≠ []) :
    P (largestCells gs) ↔
      ∃ m ∈ members, (∀ m' ∈ members, m'.cells ≤ m.cells) ∧ P m.cells := by
  have hgs : gs ≠ [] := by
    rintro rfl
    simp only [List.map_nil, List.nil_eq, List.map_eq_nil_iff] at hcells
    exact hne hcells
  have hmax := List.max?_eq_some_iff.mp (hcells ▸ max?_cells hgs)
  simp only [List.mem_map, forall_exists_index, and_imp, forall_apply_eq_imp_iff₂] at hmax
  obtain ⟨⟨m, hm, hlargest⟩, hupper⟩ := hmax
  constructor
  · intro h
    exact ⟨m, hm, fun m' hm' => hlargest ▸ hupper m' hm', hlargest ▸ h⟩
  · rintro ⟨m', hm', hupper', h⟩
    have heq : m'.cells = largestCells gs :=
      Nat.le_antisymm (hupper m' hm') (hlargest ▸ hupper' m hm)
    exact heq ▸ h

/-! ## Programs -/

/-- **Exactly the well-formed programs have a description.** -/
theorem generate_accepts (memory : MemorySettings) (c : Context) :
    (∃ c', (c.generate memory).result = .ok c') ↔ c.WellFormed memory := by
  let fits : Nat → Prop := fun cells => memory.totalBytes cells ≤ c.device.manifest.memory
  simp only [generate_eq_ok, MemorySettings.plan_eq_ok]
  constructor
  · rintro ⟨c', hne, table, htable, hnodup, gs, hgs, layout, ⟨hfits, -⟩, -⟩
    refine ⟨hne, hnodup, ⟨table, htable, fun m hm => ?_⟩, ?_⟩
    · obtain ⟨g, -, hg⟩ := exists_of_mem_left hgs hm
      exact generateMember_accepts.mp ⟨g, hg⟩
    · exact (largestCells_iff fits (generated_cells hgs) hne).mp hfits
  · rintro ⟨hne, hnodup, ⟨table, htable, hmembers⟩, hlargest⟩
    have hall : ∀ m ∈ c.program.members, ∃ g, (generateMember (c.costModel table)
        (entityName c.request.top m.name) m).result = .ok g :=
      fun m hm => generateMember_accepts.mpr (hmembers m hm)
    obtain ⟨gs, hgs⟩ := (exists_forall₂ c.program.members).mpr hall
    have hfits := (largestCells_iff fits (generated_cells hgs) hne).mpr hlargest
    exact ⟨_, hne, table, htable, hnodup, gs, hgs, _, ⟨hfits, rfl⟩, rfl⟩

end Gateware
