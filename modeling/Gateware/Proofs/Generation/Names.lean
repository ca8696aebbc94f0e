import Gateware.Proofs.Generation.Errors
import Gateware.Proofs.Vhdl.Identifier

/-!
# Generated names never clash

All names of a description are identifiers, since they are sanitized, and no two of one kind are the
same in any letter case: entities and ports are compared when they are generated, and the ports of
inputs start with `in` or `k_`, as none of the names that every entity has (`portName_ne_fixed`).

When generation refuses a program because of its names, the two that it reports clash, and they come
in the order in which they are reported.  To see this it has to be known that no other stage reports
such an error (`generateMember_eq_error`), and what the scan over the members has passed (`Owned`).
-/

namespace Gateware

/-! ## Names inside an entity -/

/-- The names that every entity has besides its inputs. -/
def fixedNames : List String :=
  ["clk", "start", "result", "done", "WAIT_CYCLES", "remaining", "busy"]

/-- The names inside the entity of a member. -/
def Program.Member.names (m : Program.Member) : List String :=
  ["clk", "start"] ++ m.inputs.map (fun input => portName input.name) ++
    ["result", "done", "WAIT_CYCLES", "remaining", "busy"]

/-- Names that are valid identifiers, no two of them the same. -/
def Vhdl.Distinct (names : List String) : Prop :=
  (∀ name ∈ names, Vhdl.isValid name = true) ∧ (names.map Vhdl.identifierKey).Nodup

lemma portName_beginning (name : String) :
    ['i', 'n'] <+: (portName name).toList ∨ ['k', '_'] <+: (portName name).toList := by
  have hlist : ("in_" ++ name).toList = 'i' :: 'n' :: '_' :: name.toList := by simp
  have hcondensed : Vhdl.condensed ("in_" ++ name).toList
      = 'i' :: 'n' :: Vhdl.joined false ('_' :: name.toList) := by
    rw [hlist, Vhdl.condensed_eq_joined]
    rfl
  -- `in` alone is what remains if the input has no letter or digit, and is reserved
  unfold portName Vhdl.sanitize
  dsimp only
  split_ifs with hvalid hempty hmend
  · exact Or.inl ⟨'_' :: name.toList, hlist.symm⟩
  · rw [hcondensed] at hempty
    exact absurd hempty (by simp)
  · exact Or.inr ⟨Vhdl.condensed ("in_" ++ name).toList, by simp⟩
  · rw [hcondensed, String.toList_ofList]
    exact Or.inl ⟨_, rfl⟩

/-- The port of an input is none of the fixed names, in any letter case. -/
lemma portName_ne_fixed (name : String) :
    Vhdl.identifierKey (portName name) ∉ fixedNames.map Vhdl.identifierKey := by
  intro hmem
  have hfixed : ∀ key ∈ fixedNames.map Vhdl.identifierKey,
      ¬['i', 'n'] <+: key.toList ∧ ¬['k', '_'] <+: key.toList := by
    simp only [← List.isPrefixOf_iff_prefix]
    decide
  obtain ⟨hin, hk⟩ := hfixed _ hmem
  rw [Vhdl.toList_identifierKey] at hin hk
  rcases portName_beginning name with h | h
  · exact hin (h.map Char.toLower)
  · exact hk (h.map Char.toLower)

lemma Program.Member.names_perm (m : Program.Member) :
    m.names.Perm (fixedNames ++ m.inputs.map fun input => portName input.name) := by
  rw [Program.Member.names, List.append_assoc]
  exact List.perm_append_comm.append_left ["clk", "start"]

/-- The names inside an entity do not clash if its ports do not. -/
lemma Program.Member.names_distinct {m : Program.Member}
    (h : (m.inputs.map Program.Input.key).Nodup) : Vhdl.Distinct m.names := by
  constructor
  · intro name hname
    rcases List.mem_append.mp (m.names_perm.mem_iff.mp hname) with hfixed | hport
    · have hvalid : ∀ name ∈ fixedNames, Vhdl.isValid name = true := by decide
      exact hvalid name hfixed
    · obtain ⟨input, -, rfl⟩ := List.mem_map.mp hport
      exact Vhdl.sanitize_valid _
  · rw [(m.names_perm.map Vhdl.identifierKey).nodup_iff, List.map_append, List.map_map,
      List.nodup_append]
    refine ⟨by decide, h, ?_⟩
    rintro key hfixed port hport rfl
    obtain ⟨input, -, heq⟩ := List.mem_map.mp hport
    rw [← heq] at hfixed
    exact portName_ne_fixed input.name hfixed

/-! ## Names of a description -/

/-- A declaration of a name. -/
def Vhdl.Declares (name declaration : String) : Prop :=
  ∃ kind rest, (kind = "constant" ∨ kind = "signal") ∧
    declaration = kind ++ " " ++ name ++ " : " ++ rest

/-- The names of the ports of an entity, and of what it declares. -/
def Vhdl.Entity.HasNames (entity : Vhdl.Entity) (names : List String) : Prop :=
  ∃ declared, names = entity.ports.map (·.name) ++ declared ∧
    List.Forall₂ Vhdl.Declares declared entity.declarations

/-- A description of the entities of members in which no names clash. -/
def Description.NamesDistinct (members : List Program.Member) (d : Description) : Prop :=
  ∃ entities, d = ⟨String.intercalate "\n" (entities.map Vhdl.Entity.render), .vhdl⟩ ∧
    Vhdl.Distinct (entities.map (·.name)) ∧
    List.Forall₂ (fun m entity => entity.HasNames m.names ∧ Vhdl.Distinct m.names)
      members entities

lemma declares_counter (wait : Nat) :
    List.Forall₂ Vhdl.Declares ["WAIT_CYCLES", "remaining", "busy"]
      (Vhdl.Counter.declarations wait) := by
  have hwait : "constant WAIT_CYCLES : positive := " ++ toString wait ++ ";" =
      "constant" ++ " " ++ "WAIT_CYCLES" ++ " : " ++ ("positive := " ++ toString wait ++ ";") := by
    apply String.toList_injective
    simp
  exact .cons ⟨"constant", _, Or.inl rfl, hwait⟩
    (.cons ⟨"signal", "natural range 0 to WAIT_CYCLES - 1 := 0;", Or.inr rfl, rfl⟩
      (.cons ⟨"signal", "std_logic := '0';", Or.inr rfl, rfl⟩ .nil))

section

variable {model : CostModel Cycles} {top : String}

lemma Program.Member.HasEntity.names {m : Program.Member} {entity : Vhdl.Entity}
    (h : m.HasEntity model top entity) :
    entity.name = entityName top m.name ∧ entity.HasNames m.names ∧ Vhdl.Distinct m.names := by
  obtain ⟨hports, body, -, hentity⟩ := h
  obtain ⟨-, -, statement, -, rfl⟩ := memberEntity_eq_ok.mp hentity
  refine ⟨rfl, ⟨_, ?_, declares_counter _⟩, names_distinct (checkPorts_eq_ok.mp hports)⟩
  simp [Program.Member.names, Program.Member.entity, Program.Input.port, Function.comp_def]

lemma entities_names {members : List Program.Member} {entities : List Vhdl.Entity}
    (h : List.Forall₂ (Program.Member.HasEntity model top) members entities) :
    entities.map (·.name) = members.map fun m => entityName top m.name := by
  induction h with
  | nil => rfl
  | cons hentity _ ih => rw [List.map_cons, List.map_cons, ih, hentity.names.1]

end

/-! ## Errors about names -/

/-- Whether an error is about two names that are the same. -/
def GenerationError.isCollision : GenerationError → Bool
  | .nameCollision _ _ _ => true
  | .portCollision _ _ _ _ => true
  | _ => false

/-- Nothing inside a member is about names. -/
lemma isLocal_of_isCollision {e : GenerationError} (he : e.isCollision = true) :
    e.isLocal = false := by
  cases e with
  | nameCollision => rfl
  | portCollision => rfl
  | _ => cases he

section

variable {model : CostModel Cycles} {top : String} {e : GenerationError}

/-- Of a member only the ports can clash. -/
lemma generateMember_collision {m : Program.Member} {name : String}
    (h : (generateMember model name m).result = .error e) (he : e.isCollision = true) :
    checkPorts m = .error e := by
  rcases generateMember_eq_error h with hports | hlocal
  · exact hports
  · rw [isLocal_of_isCollision he] at hlocal
    cases hlocal

/-- Two members that clash come in the order in which they are named; otherwise it is the ports of
one member that clash. -/
lemma generateMembers_collision : ∀ {members passed : List Program.Member}
    {owners : List (String × String)},
    Owned (Program.Member.key top) Program.Member.name passed owners → e.isCollision = true →
    (generateMembers model top owners members).result = .error e →
      (∃ a b, e = .nameCollision a.name b.name (entityName top b.name) ∧
        [a, b].Sublist (passed ++ members) ∧ a.key top = b.key top) ∨
      ∃ m ∈ members, checkPorts m = .error e
  | [], _, _, _, _, h => by simp [generateMembers] at h
  | m :: rest, passed, owners, howned, he, h => by
      rw [generateMembers_cons] at h
      split at h
      · rename_i owner hlookup
        cases h
        obtain ⟨a, hsub, rfl, hkey⟩ := howned.sublist hlookup rest
        exact Or.inl ⟨a, m, rfl, hsub, hkey⟩
      · rcases bind_eq_error.mp h with hm | ⟨g, -, hothers⟩
        · exact Or.inr ⟨m, List.mem_cons_self, generateMember_collision hm he⟩
        · rcases bind_eq_error.mp hothers with hrest | ⟨gs, -, hok⟩
          · rcases generateMembers_collision (howned.pass m) he hrest with
              ⟨a, b, heq, hsub, hkey⟩ | ⟨m', hm', hports⟩
            · exact Or.inl ⟨a, b, heq, by simpa using hsub, hkey⟩
            · exact Or.inr ⟨m', List.mem_cons_of_mem m hm', hports⟩
          · cases hok

end

lemma generate_collision {memory : MemorySettings} {c : Context} {e : GenerationError}
    (h : (c.generate memory).result = .error e) (he : e.isCollision = true) :
    (∃ a b, e = .nameCollision a.name b.name (entityName c.request.top b.name) ∧
      [a, b].Sublist c.program.members ∧ a.key c.request.top = b.key c.request.top) ∨
    ∃ m ∈ c.program.members, checkPorts m = .error e := by
  rw [generate_result] at h
  split_ifs at h with hempty
  · cases h
    exact absurd he (by decide)
  · rcases bind_eq_error.mp h with htable | ⟨table, -, h⟩
    · obtain ⟨e', -, rfl⟩ := mapError_eq_error.mp htable
      cases he
    · rcases bind_eq_error.mp h with hmembers | ⟨gs, -, h⟩
      · simpa using generateMembers_collision owned_nil he hmembers
      · rcases bind_eq_error.mp h with hlayout | ⟨layout, -, h⟩
        · obtain ⟨e', -, rfl⟩ := mapError_eq_error.mp hlayout
          cases he
        · cases h

/-- **Generated names never clash.**  The names of the entities of a description are valid and
different identifiers, and so are the names inside each entity.  If generation reports that two
members, or two inputs of a member, have the same name, then they have, and they come in the order
in which they are reported. -/
theorem generate_names (memory : MemorySettings) (c : Context) :
    (∀ c', (c.generate memory).result = .ok c' →
      ∃ d, c'.description = some d ∧ d.NamesDistinct c.program.members) ∧
    (∀ first second entity,
      (c.generate memory).result = .error (.nameCollision first second entity) →
        ∃ a b, [a, b].Sublist c.program.members ∧ a.name = first ∧ b.name = second ∧
          entity = entityName c.request.top second ∧
          Vhdl.identifierKey (entityName c.request.top first)
            = Vhdl.identifierKey (entityName c.request.top second)) ∧
    (∀ member first second port,
      (c.generate memory).result = .error (.portCollision member first second port) →
        ∃ m ∈ c.program.members, m.name = member ∧
          ∃ a b, [a, b].Sublist m.inputs ∧ a.name = first ∧ b.name = second ∧
            port = portName second ∧
            Vhdl.identifierKey (portName first) = Vhdl.identifierKey (portName second)) := by
  refine ⟨?_, ?_, ?_⟩
  · intro c' h
    obtain ⟨table, entities, hentities, hdescription⟩ := generate_entities h
    obtain ⟨-, -, -, hnodup, -⟩ := generate_eq_ok.mp h
    refine ⟨_, hdescription, entities, rfl, ?_, hentities.imp fun m entity h => h.names.2⟩
    rw [entities_names hentities]
    refine ⟨?_, by rwa [List.map_map]⟩
    intro name hname
    obtain ⟨m, -, rfl⟩ := List.mem_map.mp hname
    exact Vhdl.sanitize_valid _
  · intro first second entity h
    rcases generate_collision h rfl with ⟨a, b, heq, hsub, hkey⟩ | ⟨m, -, hports⟩
    · cases heq
      exact ⟨a, b, hsub, rfl, rfl, rfl, hkey⟩
    · obtain ⟨a, b, heq, -, -⟩ := checkPorts_eq_error hports
      cases heq
  · intro member first second port h
    rcases generate_collision h rfl with ⟨a, b, heq, -, -⟩ | ⟨m, hm, hports⟩
    · cases heq
    · obtain ⟨a, b, heq, hsub, hkey⟩ := checkPorts_eq_error hports
      cases heq
      exact ⟨m, hm, rfl, a, b, hsub, rfl, rfl, rfl, hkey⟩

/-- A member that has some inputs and yields a constant. -/
def Program.Member.constant (name : String) (inputs : List String) : Program.Member where
  name := name
  inputs := inputs.map fun input => ⟨input, ⟨8, false⟩⟩
  result := ⟨8, false⟩
  body := .constant 1 ⟨8, false⟩

/-- The sample context with other members, for a device without measurements. -/
def Context.unmeasured (members : List Program.Member) : Context :=
  { Context.sample with
    program := ⟨[], members⟩
    device := { Device.bench with report := "" } }

/-- The names in an error about two members. -/
def collidingMembers {α : Type} : Except GenerationError α → Option (String × String × String)
  | .error (.nameCollision first second entity) => some (first, second, entity)
  | _ => none

lemma eq_error_of_collidingMembers {α : Type} {x : Except GenerationError α}
    {first second entity : String} (h : collidingMembers x = some (first, second, entity)) :
    x = .error (.nameCollision first second entity) := by
  unfold collidingMembers at h
  split at h
  · cases h
    rfl
  · cases h

/-- All three outcomes come about: a description, two members whose names differ only in letter case
and punctuation, and two such inputs with another one between them. -/
theorem generate_names_sample :
    (∃ c' d, (Context.sample.generate {}).result = .ok c' ∧ c'.description = some d ∧
      d.NamesDistinct Context.sample.program.members) ∧
    (((Context.unmeasured [.constant "F.Scale" [], .constant "f scale" []]).generate {}).result
        = .error (.nameCollision "F.Scale" "f scale" "kiln_hardware_f_scale") ∧
      Vhdl.identifierKey (entityName "kiln_hardware" "F.Scale")
        = Vhdl.identifierKey (entityName "kiln_hardware" "f scale")) ∧
    (((Context.unmeasured [.constant "F" ["a b", "c", "A_B"]]).generate {}).result
        = .error (.portCollision "F" "a b" "A_B" "in_A_B") ∧
      Vhdl.identifierKey (portName "a b") = Vhdl.identifierKey (portName "A_B")) := by
  refine ⟨?_, ?_, ?_⟩
  · obtain ⟨c', h⟩ := exists_generate_sample
    obtain ⟨d, hd, hnames⟩ := (generate_names {} .sample).1 c' h
    exact ⟨c', d, h, hd, hnames⟩
  · have h : ((Context.unmeasured [.constant "F.Scale" [], .constant "f scale" []]).generate
        {}).result = .error (.nameCollision "F.Scale" "f scale" "kiln_hardware_f_scale") :=
      eq_error_of_collidingMembers (by decide +kernel)
    obtain ⟨-, -, -, -, -, -, hkey⟩ := (generate_names {} _).2.1 _ _ _ h
    exact ⟨h, hkey⟩
  · have h : ((Context.unmeasured [.constant "F" ["a b", "c", "A_B"]]).generate {}).result
        = .error (.portCollision "F" "a b" "A_B" "in_A_B") := rfl
    obtain ⟨-, -, -, -, -, -, -, -, -, hkey⟩ := (generate_names {} _).2.2 _ _ _ _ h
    exact ⟨h, hkey⟩

end Gateware
