import Gateware.Proofs.Device.Lookup
import Gateware.Proofs.Memory.Overrides
import Gateware.Proofs.Settings.Agreement
import Mathlib.Data.List.Perm.Basic

/-!
# Overrides configure a board, however they are stored

The overrides of a user are raw TOML if they come from a document, and a value if another part of
the compiler has set them.  A table spells overrides (`MemoryOverrides.Tabled`) with the fields that
are known, in any order and among others that mean nothing, and the size of the header has two
names.

All boards set up their memory in the same way: they start from settings of their own and then take
over what the user asks for (`Device.withDefaults_run`).  So a board cannot tell the stored forms
apart, and what it ends with follows from the cases of `Overriding`.
-/

namespace Gateware

/-! ## Tables -/

namespace MemoryOverrides

/-- The entry of a table for a value, if there is one. -/
def entry (name : String) (value : Option Int64) : List (String × Toml) :=
  (value.map fun v => (name, Toml.int v)).toList

/-- A table spells overrides. -/
def Tabled (given : MemoryOverrides) (entries : List (String × Toml)) : Prop :=
  ∃ name ∈ ["minimum_prefix", "minimumPrefix"], ∃ extra : List (String × Toml),
    (∀ e ∈ extra, e.1 ∉ ["alignment", "minimum_prefix", "minimumPrefix"]) ∧
      entries.Perm (entry "alignment" given.alignment ++ entry name given.minimumPrefix ++ extra)

lemma key_of_mem_entry {name : String} {value : Option Int64} {e : String × Toml}
    (h : e ∈ entry name value) : e.1 = name := by
  cases value with
  | none => cases h
  | some v =>
      rw [List.mem_singleton.mp h]

end MemoryOverrides

section

variable {names : List String} {name : String} {value : Option Int64}
  {entries rest : List (String × Toml)}

lemma Toml.entryNamed_of_nil (h : entries.filter (fun e => names.contains e.1) = []) :
    entryNamed names entries = some none := by
  unfold entryNamed
  split
  · rfl
  · next heq => cases h.symm.trans heq
  · next hnil _ => exact absurd h hnil

lemma Toml.entryNamed_of_singleton {e : String × Toml}
    (h : entries.filter (fun e => names.contains e.1) = [e]) :
    entryNamed names entries = some (some e.2) := by
  unfold entryNamed
  split
  · next heq => cases h.symm.trans heq
  · next heq =>
      cases h.symm.trans heq
      rfl
  · next _ hone => exact absurd h (hone e.1 e.2)

/-- A field is found wherever it stands, if no other entry has one of its names. -/
lemma Toml.entryNamed_of_perm (hname : name ∈ names)
    (hperm : entries.Perm (MemoryOverrides.entry name value ++ rest))
    (hrest : ∀ e ∈ rest, e.1 ∉ names) : entryNamed names entries = some (value.map Toml.int) := by
  have hnone : rest.filter (fun e => names.contains e.1) = [] := by
    rw [List.filter_eq_nil_iff]
    intro e he hkey
    exact hrest e he (by simpa using hkey)
  have hall : (MemoryOverrides.entry name value).filter (fun e => names.contains e.1) =
      MemoryOverrides.entry name value := by
    rw [List.filter_eq_self]
    intro e he
    rw [MemoryOverrides.key_of_mem_entry he]
    simpa using hname
  have hfilter := hperm.filter fun e => names.contains e.1
  rw [List.filter_append, hnone, hall, List.append_nil] at hfilter
  cases value with
  | none => exact entryNamed_of_nil (List.perm_nil.mp hfilter)
  | some v => exact entryNamed_of_singleton (List.perm_singleton.mp hfilter)

end

lemma Toml.optional_asInt (value : Option Int64) :
    optional asInt (value.map Toml.int) = some value := by
  cases value with
  | none => rfl
  | some v => rfl

/-- A table that spells overrides is read as these. -/
lemma MemoryOverrides.Tabled.read {given : MemoryOverrides} {entries : List (String × Toml)}
    (h : given.Tabled entries) : SettingKind.readMemory (.table entries) = some given := by
  obtain ⟨name, hname, extra, hextra, hperm⟩ := h
  have hfirst : Toml.entryNamed ["alignment"] entries = some (given.alignment.map Toml.int) := by
    rw [List.append_assoc] at hperm
    refine Toml.entryNamed_of_perm List.mem_cons_self hperm ?_
    intro e he
    rcases List.mem_append.mp he with he | he
    · rw [key_of_mem_entry he]
      rintro hsame
      rw [List.mem_singleton.mp hsame] at hname
      exact absurd hname (by decide)
    · exact fun hsame => hextra e he (List.mem_cons.mpr (.inl (List.mem_singleton.mp hsame)))
  have hsecond : Toml.entryNamed ["minimum_prefix", "minimumPrefix"] entries =
      some (given.minimumPrefix.map Toml.int) := by
    have hswapped := hperm.trans (List.perm_append_comm.append_right extra)
    rw [List.append_assoc] at hswapped
    refine Toml.entryNamed_of_perm hname hswapped ?_
    intro e he
    rcases List.mem_append.mp he with he | he
    · rw [key_of_mem_entry he]
      decide
    · exact fun hsame => hextra e he (List.mem_cons_of_mem _ hsame)
  simp [SettingKind.readMemory, Toml.record, hfirst, hsecond, Toml.optional_asInt]

/-! ## Stored forms -/

section

variable {request : Request} {given : MemoryOverrides} {entries : List (String × Toml)}

lemma Request.overrides_of_get {found : Option MemoryOverrides}
    (h : request.settings.get SettingKind.memory MemorySettings.overridesKey = .ok found) :
    request.overrides = .ok (found.getD {}) :=
  congrArg (Except.map fun given : Option MemoryOverrides => given.getD {}) h

lemma Request.overrides_of_none
    (h : request.settings.find? MemorySettings.overridesKey = none) : request.overrides = .ok {} :=
  overrides_of_get (Store.get_of_none h)

lemma Request.overrides_of_raw (htabled : given.Tabled entries)
    (h : request.settings.find? MemorySettings.overridesKey = some (.raw (.table entries))) :
    request.overrides = .ok given :=
  overrides_of_get (Store.get_of_raw h htabled.read)

lemma Request.overrides_of_typed
    (h : request.settings.find? MemorySettings.overridesKey =
      some (.typed SettingKind.memory given)) : request.overrides = .ok given :=
  overrides_of_get (Store.Holds.get_eq h)

end

/-! ## Boards -/

lemma MemoryScript.run_inOrder_cons (c : MemoryChange) (cs : List MemoryChange)
    (m : MemorySettings) : (inOrder (c :: cs)).run m = (c.apply m).andThen (inOrder cs).run := by
  rw [inOrder, run, MemoryOutcome.andThen]
  cases hresult : (c.apply m).result with
  | ok u => rfl
  | error e => simp [run, MemoryOutcome.unchanged, ← hresult]

lemma MemoryOutcome.andThen_done (o : MemoryOutcome) :
    o.andThen (MemoryScript.inOrder []).run = o := by
  obtain ⟨notes, settings, result⟩ := o
  cases result with
  | ok u => simp [andThen, MemoryScript.inOrder, MemoryScript.run, unchanged]
  | error e => rfl

/-- A device with settings of its own overrides them. -/
lemma Device.withDefaults_run {manifest : Manifest} {report : String}
    {alignment minimumPrefix : Int64} {request : Request}
    (halignment : ∃ k : ℕ, alignment.toInt = 2 ^ k) (hheader : 0 ≤ minimumPrefix.toInt) :
    ((withDefaults manifest report alignment minimumPrefix).memory request).run {} =
      MemorySettings.override ⟨alignment.toInt.toNat, minimumPrefix.toInt.toNat⟩ request := by
  have hfirst : MemorySettings.setAlignment {} alignment =
      .ok { alignment := alignment.toInt.toNat } :=
    MemorySettings.setAlignment_eq_ok.mpr ⟨halignment, rfl⟩
  have hsecond : MemorySettings.setMinimumPrefix { alignment := alignment.toInt.toNat }
      minimumPrefix = .ok ⟨alignment.toInt.toNat, minimumPrefix.toInt.toNat⟩ :=
    MemorySettings.setMinimumPrefix_eq_ok.mpr ⟨hheader, rfl⟩
  show (MemoryScript.inOrder
    [.alignment alignment, .minimumPrefix minimumPrefix, .overrides request]).run {} = _
  rw [MemoryScript.run_inOrder_cons, MemoryChange.apply, hfirst]
  show (MemoryScript.inOrder [.minimumPrefix minimumPrefix, .overrides request]).run
    { alignment := alignment.toInt.toNat } = _
  rw [MemoryScript.run_inOrder_cons, MemoryChange.apply, hsecond]
  show (MemoryScript.inOrder [.overrides request]).run
    ⟨alignment.toInt.toNat, minimumPrefix.toInt.toNat⟩ = _
  rw [MemoryScript.run_inOrder_cons, MemoryOutcome.andThen_done, MemoryChange.apply]

/-- Every board is found under its name, and starts from settings of its own. -/
lemma Board.exists_defaults {d : Device} (hd : d ∈ Board.all) :
    Registry.standard.find d.name = ⟨[Registry.selection d.name], .ok d⟩ ∧
      ∃ defaults : MemorySettings, ∀ request : Request,
        (d.memory request).run {} = defaults.override request := by
  simp only [Board.all, Card.all, List.map_cons, List.map_nil, List.cons_append, List.nil_append,
    List.mem_cons, List.not_mem_nil, or_false] at hd
  have hcard : ∀ c : Card, ∃ defaults : MemorySettings, ∀ request : Request,
      (c.device.memory request).run {} = defaults.override request :=
    fun c => ⟨⟨4096, 4⟩, fun request => Device.withDefaults_run ⟨12, rfl⟩ (by decide)⟩
  rcases hd with rfl | rfl | rfl | rfl | rfl | rfl | rfl
  · exact ⟨Registry.find_of_some rfl, ⟨4, 0⟩,
      fun request => Device.withDefaults_run ⟨2, rfl⟩ (by decide)⟩
  · exact ⟨Registry.find_of_some rfl, hcard _⟩
  · exact ⟨Registry.find_of_some rfl, hcard _⟩
  · exact ⟨Registry.find_of_some rfl, hcard _⟩
  · exact ⟨Registry.find_of_some rfl, hcard _⟩
  · exact ⟨Registry.find_of_some rfl, hcard _⟩
  · exact ⟨Registry.find_of_some rfl, ⟨16, 0⟩,
      fun request => Device.withDefaults_run ⟨4, rfl⟩ (by decide)⟩

section

variable {r : Registry} {d : Device} {request other : Request}

/-- A request for a device is answered with what the device ends with. -/
lemma Registry.memoryFor_result
    (hfind : r.find request.device = ⟨[selection request.device], .ok d⟩) :
    (r.memoryFor request).result =
      ((d.memory request).run {}).result.map fun _ => ((d.memory request).run {}).settings := by
  simp only [memoryFor, hfind, Traced.result_bind, Except.bind]
  cases ((d.memory request).run {}).result with
  | ok u => rfl
  | error e => rfl

/-- Two requests for a device come to the same if the device does the same for both. -/
lemma Registry.memoryFor_congr (hdevice : request.device = other.device)
    (hfind : r.find request.device = ⟨[selection request.device], .ok d⟩)
    (hrun : (d.memory request).run {} = (d.memory other).run {}) :
    r.memoryFor request = r.memoryFor other := by
  unfold memoryFor
  rw [← hdevice, hfind]
  show Traced.bind _ _ = Traced.bind _ _
  simp only [Traced.bind, hrun]

end

/-- **Boards do not tell the stored forms of overrides apart.**  A board has settings of its own,
with which it answers a request without overrides.  A table that spells overrides and a value that
holds them lead to the same answer, in what is noted as well: the first of the two overrides that is
not allowed is refused, and if both are allowed, each setting is what the user asks for, or the
board's own where the user asks for nothing. -/
theorem stored_forms_configure_alike (d : Device) (hd : d ∈ Board.all) :
    ∃ defaults : MemorySettings,
      (∀ plain : Request, plain.device = d.name →
        plain.settings.find? MemorySettings.overridesKey = none →
          (Registry.standard.memoryFor plain).result = .ok defaults) ∧
      ∀ (given : MemoryOverrides) (entries : List (String × Toml)) (raw typed : Request),
        given.Tabled entries → raw.device = d.name → typed.device = d.name →
        raw.settings.find? MemorySettings.overridesKey = some (.raw (.table entries)) →
        typed.settings.find? MemorySettings.overridesKey = some (.typed SettingKind.memory given) →
        let configured := (Registry.standard.memoryFor raw).result
        Registry.standard.memoryFor raw = Registry.standard.memoryFor typed ∧
        ((∃ m, configured = .ok m) ↔ given.AlignmentAllowed ∧ given.PrefixAllowed) ∧
        (∀ m, configured = .ok m →
          Follows given.alignment defaults.alignment m.alignment ∧
            Follows given.minimumPrefix defaults.minimumPrefix m.minimumPrefix) ∧
        (∀ v, given.alignment = some v → (¬ ∃ k : ℕ, v.toInt = 2 ^ k) →
          configured = .error (.invalidAlignment v)) ∧
        (given.AlignmentAllowed → ∀ v, given.minimumPrefix = some v → v.toInt < 0 →
          configured = .error (.invalidPrefix v)) := by
  obtain ⟨hfind, defaults, hrun⟩ := Board.exists_defaults hd
  refine ⟨defaults, ?_, ?_⟩
  · intro plain hdevice hnone
    rw [← hdevice] at hfind
    rw [Registry.memoryFor_result hfind, hrun,
      MemorySettings.override_of_ok (Request.overrides_of_none hnone)]
    rfl
  · intro given entries raw typed htabled hraw htyped hentry hvalue configured
    rw [← hraw] at hfind
    have hgiven : raw.overrides = .ok given := Request.overrides_of_raw htabled hentry
    have hgiven' : typed.overrides = .ok given := Request.overrides_of_typed hvalue
    have halike : (d.memory raw).run {} = (d.memory typed).run {} := by
      rw [hrun, hrun, MemorySettings.override_of_ok hgiven, MemorySettings.override_of_ok hgiven']
    refine ⟨Registry.memoryFor_congr (hraw.trans htyped.symm) hfind halike, ?_⟩
    have hresult : configured = ((defaults.override raw).result.map
        fun _ => (defaults.override raw).settings) := by
      rw [← hrun]
      exact Registry.memoryFor_result hfind
    have hcases := defaults.override_cases raw
    rw [hgiven] at hcases
    clear_value configured
    subst hresult
    generalize (defaults.override raw).settings = after at hcases ⊢
    generalize (defaults.override raw).result = result at hcases ⊢
    refine ⟨?_, ?_, ?_, ?_⟩
    · rw [← hcases.result_eq_ok]
      cases result with
      | ok u => simp [Except.map]
      | error e => simp [Except.map]
    · intro m hm
      obtain ⟨⟨⟩, rfl, rfl⟩ := map_eq_ok.mp hm
      exact hcases.follows
    · intro v hv hrefused
      rw [hcases.of_misaligned hv hrefused]
      rfl
    · intro hallowed v hv hrefused
      rw [hcases.of_negative hallowed hv hrefused]
      rfl

/-- The server node, with a table that names the header in the other way and has a field that means
nothing: it takes two cells and 64 bytes from the table, or from a value.  Of two overrides that are
both not allowed, the alignment is refused. -/
theorem stored_forms_configure_alike_catapult :
    let request (entry : Entry Schema.standard) : Request :=
      { device := "Catapult", settings := Store.empty.put MemorySettings.overridesKey entry }
    let table (alignment minimumPrefix : Int64) : List (String × Toml) :=
      [("burst", .text "long"), ("minimumPrefix", .int minimumPrefix),
        ("alignment", .int alignment)]
    let raw (alignment minimumPrefix : Int64) :=
      request (.raw (.table (table alignment minimumPrefix)))
    let typed (alignment minimumPrefix : Int64) := request (.typed SettingKind.memory
      (⟨some alignment, some minimumPrefix⟩ : MemoryOverrides))
    Board.catapult ∈ Board.all ∧
    Registry.standard.memoryFor (raw 64 2) = Registry.standard.memoryFor (typed 64 2) ∧
    (∃ m, (Registry.standard.memoryFor (raw 64 2)).result = .ok m ∧ m.alignment = 64 ∧
      m.minimumPrefix = 2) ∧
    (Registry.standard.memoryFor (raw 1000 (-1))).result = .error (.invalidAlignment 1000) := by
  intro request table raw typed
  have hboard : Board.catapult ∈ Board.all := List.mem_append_right _ (List.mem_singleton_self _)
  have htabled : ∀ alignment minimumPrefix : Int64,
      MemoryOverrides.Tabled ⟨some alignment, some minimumPrefix⟩ (table alignment minimumPrefix) :=
    fun alignment minimumPrefix => ⟨"minimumPrefix", by decide, [("burst", .text "long")], by simp,
      (List.reverse_perm (table alignment minimumPrefix)).symm⟩
  obtain ⟨defaults, -, hstored⟩ := stored_forms_configure_alike Board.catapult hboard
  obtain ⟨halike, hallowed, hfollows, -⟩ :=
    hstored ⟨some 64, some 2⟩ _ (raw 64 2) (typed 64 2) (htabled 64 2) rfl rfl rfl rfl
  obtain ⟨-, -, -, hmisaligned, -⟩ :=
    hstored ⟨some 1000, some (-1)⟩ _ (raw 1000 (-1)) (typed 1000 (-1)) (htabled 1000 (-1)) rfl rfl
      rfl rfl
  have hpower : (64 : Int64).toInt = 2 ^ 6 := rfl
  have hsize : 0 ≤ (2 : Int64).toInt := by decide
  obtain ⟨m, hm⟩ := hallowed.mpr ⟨by rintro v ⟨⟩; exact ⟨6, hpower⟩, by rintro v ⟨⟩; exact hsize⟩
  obtain ⟨halignment, hheader⟩ := hfollows m hm
  refine ⟨hboard, halike, ⟨m, hm, Int.ofNat_inj.mp halignment, Int.ofNat_inj.mp hheader⟩, ?_⟩
  refine hmisaligned 1000 rfl ?_
  rw [← MemorySettings.acceptable_iff]
  decide

end Gateware
