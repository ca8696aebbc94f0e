import Gateware.Device.Boards
import Gateware.Proofs.Compile.Inversion

/-!
# First registered, first served

Of several devices with one name only the first counts (`IsFirst`).  Searching and listing are two
passes over the registry: a search stops at the first device of a name (`find_eq_ok`), and a listing
leaves out every name that it has seen (`mem_listing`).  Both come down to `IsFirst`, so they agree.

Registering more devices puts none of them in front of a device that was first
(`IsFirst.append`).  Whatever asks the registry for a device — pricing, memory settings, compiling —
asks it for nothing else, so all of it stays as it was (`agree_of_find`).
-/

namespace Gateware

/-- A device comes before all others of its name. -/
def IsFirst (ds : List Device) (d : Device) : Prop :=
  ∃ before after, ds = before ++ d :: after ∧ ∀ x ∈ before, x.name ≠ d.name

section

variable {ds : List Device} {d x : Device}

lemma isFirst_cons : IsFirst (x :: ds) d ↔ d = x ∨ x.name ≠ d.name ∧ IsFirst ds d := by
  constructor
  · rintro ⟨before, after, hds, hbefore⟩
    cases before with
    | nil => exact .inl (List.cons.inj hds).1.symm
    | cons first before =>
        obtain ⟨rfl, rfl⟩ := List.cons.inj hds
        obtain ⟨hfirst, hbefore⟩ := List.forall_mem_cons.mp hbefore
        exact .inr ⟨hfirst, before, after, rfl, hbefore⟩
  · rintro (rfl | ⟨hne, before, after, rfl, hbefore⟩)
    · exact ⟨[], ds, rfl, by simp⟩
    · exact ⟨x :: before, after, rfl, List.forall_mem_cons.mpr ⟨hne, hbefore⟩⟩

lemma IsFirst.mem (h : IsFirst ds d) : d ∈ ds := by
  obtain ⟨before, after, rfl, -⟩ := h
  simp

lemma IsFirst.append (h : IsFirst ds d) (more : List Device) : IsFirst (ds ++ more) d := by
  obtain ⟨before, after, rfl, hbefore⟩ := h
  exact ⟨before, after ++ more, by simp, hbefore⟩

/-- Every name that is registered has a device that comes first. -/
lemma exists_isFirst (h : d ∈ ds) : ∃ d', IsFirst ds d' ∧ d'.name = d.name := by
  induction ds with
  | nil => cases h
  | cons x ds ih =>
      by_cases hname : x.name = d.name
      · exact ⟨x, isFirst_cons.mpr (.inl rfl), hname⟩
      · have hd : d ∈ ds := (List.mem_cons.mp h).resolve_left fun heq => hname (heq ▸ rfl)
        obtain ⟨d', hfirst, hd'⟩ := ih hd
        exact ⟨d', isFirst_cons.mpr (.inr ⟨hd' ▸ hname, hfirst⟩), hd'⟩

/-- Only one device of a name comes first. -/
lemma IsFirst.unique {d' : Device} (h : IsFirst ds d) (h' : IsFirst ds d')
    (hname : d.name = d'.name) : d = d' := by
  induction ds with
  | nil => cases h.mem
  | cons x ds ih =>
      rcases isFirst_cons.mp h with rfl | ⟨hne, h⟩ <;>
        rcases isFirst_cons.mp h' with rfl | ⟨hne', h'⟩
      · rfl
      · exact absurd hname hne'
      · exact absurd hname.symm hne
      · exact ih h h'

end

namespace Registry

/-- Adds devices in order. -/
def registerAll (r : Registry) (ds : List Device) : Registry := ds.foldl register r

section

variable {r r' : Registry} {ds : List Device} {d : Device} {name : String}

@[simp] lemma devices_registerAll (r : Registry) (ds : List Device) :
    (r.registerAll ds).devices = r.devices ++ ds := by
  induction ds generalizing r with
  | nil => simp [registerAll]
  | cons d ds ih =>
      have hstep : (r.registerAll (d :: ds)).devices =
          ((r.register d).registerAll ds).devices := rfl
      rw [hstep, ih]
      simp [register]

/-! ## Searching and listing -/

/-- The note that is made of a device that was found. -/
def selection (name : String) : Note := .line ⟨.registry, .debug, s!"selected device '{name}'"⟩

lemma find_of_some (h : r.devices.find? (·.name == name) = some d) :
    r.find name = ⟨[selection name], .ok d⟩ := by
  rw [find, h]
  rfl

lemma find_result_iff :
    (r.find name).result = .ok d ↔ r.devices.find? (·.name == name) = some d := by
  cases hfind : r.devices.find? (·.name == name) with
  | none =>
      rw [find, hfind]
      simp
  | some d' =>
      rw [find_of_some hfind]
      simp

lemma find_eq_ok : (r.find name).result = .ok d ↔ IsFirst r.devices d ∧ d.name = name := by
  rw [find_result_iff, List.find?_eq_some_iff_append]
  constructor
  · rintro ⟨hname, before, after, hds, hbefore⟩
    rw [beq_iff_eq] at hname
    refine ⟨⟨before, after, hds, fun x hx => ?_⟩, hname⟩
    simpa [hname] using hbefore x hx
  · rintro ⟨⟨before, after, hds, hbefore⟩, rfl⟩
    exact ⟨beq_self_eq_true _, before, after, hds, fun x hx => by simpa using hbefore x hx⟩

lemma mem_listing {m : Manifest} : ∀ {ds : List Device} {seen : List String},
    m ∈ listing seen ds ↔ ∃ d, IsFirst ds d ∧ d.name ∉ seen ∧ d.manifest = m
  | [], seen => by
      simp only [listing, List.not_mem_nil, false_iff, not_exists, not_and]
      intro d hfirst
      cases hfirst.mem
  | x :: ds, seen => by
      rw [listing]
      by_cases hseen : x.name ∈ seen
      · rw [if_pos (by simpa using hseen), mem_listing]
        refine exists_congr fun d => ?_
        rw [isFirst_cons]
        constructor
        · rintro ⟨hfirst, hnew, hm⟩
          exact ⟨.inr ⟨fun heq => hnew (heq ▸ hseen), hfirst⟩, hnew, hm⟩
        · rintro ⟨rfl | ⟨-, hfirst⟩, hnew, hm⟩
          · exact absurd hseen hnew
          · exact ⟨hfirst, hnew, hm⟩
      · rw [if_neg (by simpa using hseen), List.mem_cons, mem_listing]
        constructor
        · rintro (rfl | ⟨d, hfirst, hnew, hm⟩)
          · exact ⟨x, isFirst_cons.mpr (.inl rfl), hseen, rfl⟩
          · rw [List.mem_cons, not_or] at hnew
            exact ⟨d, isFirst_cons.mpr (.inr ⟨Ne.symm hnew.1, hfirst⟩), hnew.2, hm⟩
        · rintro ⟨d, hfirst, hnew, rfl⟩
          rcases isFirst_cons.mp hfirst with rfl | ⟨hne, hfirst⟩
          · exact .inl rfl
          · exact .inr ⟨d, hfirst, by simp [hnew, hne.symm], rfl⟩

/-- A listing is in the order in which names were first registered. -/
lemma listing_pairwise : ∀ (ds : List Device) (seen : List String),
    (listing seen ds).Pairwise fun a b =>
      (ds.map Device.name).idxOf a.name < (ds.map Device.name).idxOf b.name
  | [], seen => .nil
  | x :: ds, seen => by
      -- A name that is not that of the first device comes one place later.
      have hlater : ∀ (seen : List String), x.name ∈ seen → ∀ m ∈ listing seen ds,
          ((x :: ds).map Device.name).idxOf m.name = (ds.map Device.name).idxOf m.name + 1 := by
        intro seen hseen m hm
        obtain ⟨d, -, hnew, rfl⟩ := mem_listing.mp hm
        rw [List.map_cons, List.idxOf_cons_ne]
        intro heq
        exact hnew (show d.manifest.name ∈ seen from heq ▸ hseen)
      have hrest : ∀ (seen : List String), x.name ∈ seen → (listing seen ds).Pairwise fun a b =>
          ((x :: ds).map Device.name).idxOf a.name < ((x :: ds).map Device.name).idxOf b.name := by
        intro seen hseen
        refine List.Pairwise.imp_of_mem ?_ (listing_pairwise ds seen)
        intro a b ha hb hlt
        rw [hlater seen hseen a ha, hlater seen hseen b hb]
        omega
      rw [listing]
      by_cases hseen : x.name ∈ seen
      · rw [if_pos (by simpa using hseen)]
        exact hrest seen hseen
      · rw [if_neg (by simpa using hseen)]
        refine List.pairwise_cons.mpr ⟨?_, hrest (x.name :: seen) List.mem_cons_self⟩
        intro m hm
        rw [hlater (x.name :: seen) List.mem_cons_self m hm, List.map_cons]
        show ((x.name :: ds.map Device.name).idxOf x.name) < _
        rw [List.idxOf_cons_self]
        omega

/-- More devices are listed behind the others. -/
lemma listing_grows (more : List Device) : ∀ (ds : List Device) (seen : List String),
    listing seen ds <+: listing seen (ds ++ more)
  | [], seen => List.nil_prefix
  | x :: ds, seen => by
      rw [List.cons_append, listing, listing]
      split_ifs
      · exact listing_grows more ds seen
      · exact (List.prefix_cons_inj _).mpr (listing_grows more ds _)

lemma supported_grows (r : Registry) (more : List Device) :
    r.supported <+: (r.registerAll more).supported := by
  rw [supported, supported, devices_registerAll]
  exact listing_grows more r.devices []

lemma mem_supported {m : Manifest} :
    m ∈ r.supported ↔ ∃ d, IsFirst r.devices d ∧ d.manifest = m := by
  simp [supported, mem_listing]

lemma mem_names : name ∈ r.names ↔ ∃ d, IsFirst r.devices d ∧ d.name = name := by
  simp only [names, List.mem_map, mem_supported]
  constructor
  · rintro ⟨m, ⟨d, hfirst, rfl⟩, hname⟩
    exact ⟨d, hfirst, hname⟩
  · rintro ⟨d, hfirst, hname⟩
    exact ⟨_, ⟨d, hfirst, rfl⟩, hname⟩

lemma mem_names_iff : name ∈ r.names ↔ ∃ d ∈ r.devices, d.name = name := by
  rw [mem_names]
  constructor
  · rintro ⟨d, hfirst, hname⟩
    exact ⟨d, hfirst.mem, hname⟩
  · rintro ⟨d, hd, rfl⟩
    exact exists_isFirst hd

lemma names_pairwise : r.names.Pairwise fun a b =>
    (r.devices.map Device.name).idxOf a < (r.devices.map Device.name).idxOf b :=
  List.pairwise_map.mpr (listing_pairwise r.devices [])

lemma names_nodup : r.names.Nodup := by
  refine names_pairwise.imp ?_
  rintro a b hlt rfl
  exact Nat.lt_irrefl _ hlt

/-! ## Searching agrees with listing -/

lemma exists_find_iff : (∃ d, (r.find name).result = .ok d) ↔ name ∈ r.names := by
  rw [mem_names]
  exact exists_congr fun d => find_eq_ok

lemma manifest_of_mem_supported (h : (r.find name).result = .ok d) {m : Manifest}
    (hm : m ∈ r.supported) (hname : m.name = name) : m = d.manifest := by
  obtain ⟨hfirst, rfl⟩ := find_eq_ok.mp h
  obtain ⟨d', hfirst', rfl⟩ := mem_supported.mp hm
  rw [hfirst'.unique hfirst hname]

lemma find_of_not_mem_names (h : name ∉ r.names) :
    (r.find name).result = .error (.unknown name r.names) := by
  refine find_eq_error.mpr ⟨fun d hd hname => h ?_, rfl⟩
  exact mem_names_iff.mpr ⟨d, hd, hname⟩

/-! ## Answers that come from a device -/

/-- Two registries give the same answers about the device with a name, notes included. -/
structure Agree (r r' : Registry) (name : String) : Prop where
  find : r.find name = r'.find name
  price : ∀ op, r.price name op = r'.price name op
  memoryFor : ∀ request : Request, request.device = name →
    r.memoryFor request = r'.memoryFor request
  compile : ∀ {τ : Type} (pipeline : Pipeline MemorySettings (Workspace τ) StepError)
    (program : Program) (request : Request) (cancelled : Bool) (files : FileTree) (extra : τ),
    request.device = name →
      Compiler.compile ⟨r, pipeline⟩ program request cancelled files extra =
        Compiler.compile ⟨r', pipeline⟩ program request cancelled files extra

lemma find_eq_of_result (h : (r.find name).result = .ok d) (h' : (r'.find name).result = .ok d) :
    r.find name = r'.find name := by
  rw [find_of_some (find_result_iff.mp h), find_of_some (find_result_iff.mp h')]

lemma memoryFor_of_find {request : Request}
    (h : r.find request.device = r'.find request.device) :
    r.memoryFor request = r'.memoryFor request := by
  rw [memoryFor, memoryFor, h]

/-- A registry is asked for a device and for nothing else. -/
lemma agree_of_find (h : r.find name = r'.find name) : Agree r r' name where
  find := h
  price op := by rw [price, price, h]
  memoryFor := by
    rintro request rfl
    exact memoryFor_of_find h
  compile := by
    rintro τ pipeline program request cancelled files extra rfl
    have hprepare : (Compiler.mk r pipeline).prepare program request =
        (Compiler.mk r' pipeline).prepare program request := by
      rw [Compiler.prepare, Compiler.prepare, h, memoryFor_of_find h]
    rw [Compiler.compile, Compiler.compile, hprepare]

lemma find_registerAll (h : (r.find name).result = .ok d) (more : List Device) :
    ((r.registerAll more).find name).result = .ok d := by
  obtain ⟨hfirst, hname⟩ := find_eq_ok.mp h
  rw [find_eq_ok, devices_registerAll]
  exact ⟨hfirst.append more, hname⟩

end

/-- **The first device registered under a name is the one that counts, everywhere and for good.**
Listing and searching agree on it, all answers about a name come from it alone, and registering more
devices changes none of them. -/
theorem first_registered_counts (ds : List Device) :
    let r := empty.registerAll ds
    ((∀ name, name ∈ r.names ↔ ∃ d ∈ ds, d.name = name) ∧ r.names.Nodup ∧
      (r.names.Pairwise fun a b =>
        (ds.map Device.name).idxOf a < (ds.map Device.name).idxOf b) ∧
      ∀ m, m ∈ r.supported ↔ ∃ d, IsFirst ds d ∧ d.manifest = m) ∧
    (∀ name,
      ((∃ d, (r.find name).result = .ok d) ↔ name ∈ r.names) ∧
      (∀ d, (r.find name).result = .ok d ↔ IsFirst ds d ∧ d.name = name) ∧
      (∀ d, (r.find name).result = .ok d → ∀ m ∈ r.supported, m.name = name → m = d.manifest) ∧
      (name ∉ r.names → (r.find name).result = .error (.unknown name r.names))) ∧
    (∀ (r' : Registry) (name : String) (d : Device), (r.find name).result = .ok d →
      (r'.find name).result = .ok d → Agree r r' name) ∧
    ∀ more : List Device, r.supported <+: (r.registerAll more).supported ∧
      ∀ name d, (r.find name).result = .ok d →
        ((r.registerAll more).find name).result = .ok d ∧ Agree r (r.registerAll more) name := by
  intro r
  have hdevices : r.devices = ds := by simp [r, empty]
  have hpairwise := names_pairwise (r := r)
  rw [hdevices] at hpairwise
  refine ⟨⟨fun name => ?_, names_nodup, hpairwise, fun m => ?_⟩, fun name => ⟨exists_find_iff,
    fun d => ?_, fun d hd m => manifest_of_mem_supported hd, find_of_not_mem_names⟩, ?_, ?_⟩
  · rw [mem_names_iff, hdevices]
  · rw [mem_supported, hdevices]
  · rw [find_eq_ok, hdevices]
  · intro r' name d h h'
    exact agree_of_find (find_eq_of_result h h')
  · intro more
    refine ⟨supported_grows r more, fun name d h => ?_⟩
    have h' := find_registerAll h more
    exact ⟨h', agree_of_find (find_eq_of_result h h')⟩

/-- The server node under the name of the development board.  It is hidden behind the board, whether
it is registered once or twice. -/
theorem first_registered_counts_hidden :
    let name := "Nexys A7-100T"
    let hidden : Device :=
      { Board.catapult with manifest := { Board.catapult.manifest with name := name } }
    let r := empty.registerAll [Board.nexys, hidden, Board.catapult]
    r.names = [name, "Catapult"] ∧ (r.find name).result = .ok Board.nexys ∧
      r.supported <+: (r.registerAll [hidden]).supported ∧
      ((r.registerAll [hidden]).memoryFor { device := name }).result = .ok ⟨4, 0⟩ := by
  intro name hidden r
  obtain ⟨-, hfind, -, hstable⟩ :=
    first_registered_counts [Board.nexys, hidden, Board.catapult]
  obtain ⟨hgrows, hagree⟩ := hstable [hidden]
  have hfirst : IsFirst [Board.nexys, hidden, Board.catapult] Board.nexys :=
    isFirst_cons.mpr (.inl rfl)
  have hfound := ((hfind name).2.1 Board.nexys).mpr ⟨hfirst, rfl⟩
  refine ⟨by decide, hfound, hgrows, ?_⟩
  rw [← (hagree name Board.nexys hfound).2.memoryFor { device := name } rfl]
  rfl

end Registry

end Gateware
