import Gateware.Device.Boards
import Gateware.Proofs.Json.Layout
import Gateware.Proofs.Json.Record
import Gateware.Proofs.Manifest.Drafts

/-!
# Manifests do not depend on where they come from

An object writes down a draft if it has its fields, in any order and with unknown ones among them
(`Draft.Written`).  Reading it comes to what the draft is built to (`Draft.Written.ofJson`), and so
to what filling in comes to.

What there is to say about a manifest is then said once: it describes the draft that it was built
from (`Manifest.Describes`), and it is well formed (`Manifest.WellFormed`).  A manifest that is well
formed is read back from its own JSON (`Manifest.WellFormed.read_compact`).
-/

namespace Gateware

/-! ## Writing drafts down -/

/-- A field has a value.  It may be left out only under a condition. -/
inductive Json.Given (j : Json) (omissible : Prop) : Option Json → Prop
  | there : Given j omissible (some j)
  | leftOut (h : omissible) : Given j omissible none

section

variable {α : Type} {j : Json} {field : Option Json} {read : Json → Option α} {x : α}

lemma Json.Given.optional {default : α} (h : Given j (x = default) field)
    (hread : read j = some x) : Json.optional default read field = some x := by
  cases h with
  | there => exact hread
  | leftOut heq => rw [heq, Json.optional]

end

lemma Json.asNat_int {bound n : Nat} (hle : n ≤ bound) : Json.asNat bound (.int n) = some n := by
  simp [Json.asNat, hle]

lemma Json.items_ofTexts (texts : List String) (depth : Nat) :
    Json.items (fun _ => Json.asText) (depth + 1) (.ofTexts texts) = some texts := by
  rw [Json.ofTexts, Json.items]
  induction texts with
  | nil => rfl
  | cons text texts ih => simp [Json.asText, ih]

namespace Draft

/-- An object writes down a draft.  The fields are in any order, with unknown ones among them, and
platforms may be listed in any order too.  What has not been said may be left out. -/
inductive Written (d : Draft) : Json → Prop
  | object {family toolChain clock memory channels platforms : Option Json} {texts : List String}
      {all extra : List (String × Json)}
      (hfamily : Json.Given (.text d.family) (d.family = "") family)
      (htoolChain : Json.Given (.text d.toolChain) (d.toolChain = "") toolChain)
      (hclock : Json.Given d.clock.toJson (d.clock.hz = 0) clock)
      (hmemory : Json.Given (.int d.memory) (d.memory = 0) memory)
      (hchannels : Json.Given (.ofTexts d.channels) (d.channels = []) channels)
      (htexts : ∀ p, p ∈ texts ↔ p ∈ d.platforms)
      (hplatforms : Json.Given (.ofTexts texts) (texts = []) platforms)
      (hperm : all.Perm (Json.present [("name", some (.text d.name)), ("family", family),
        ("tool_chain", toolChain), ("clock_frequency", clock), ("available_memory_bytes", memory),
        ("supported_channels", channels), ("supported_platforms", platforms)] ++ extra))
      (hextra : ∀ f ∈ extra, f.1 ∉ ["name", "family", "tool_chain", "clock_frequency",
        "available_memory_bytes", "supported_channels", "supported_platforms"]) :
      Written d (.object all)

lemma manifest_ofJson (depth : Nat) (j : Json) :
    Manifest.ofJson depth j = (Draft.ofJson depth j).bind fun d => d.build.toOption := by
  rw [Manifest.ofJson]
  cases Draft.ofJson depth j with
  | none => rfl
  | some d =>
      simp only [Option.bind_eq_bind, Option.bind_some]
      cases d.build with
      | ok m => rfl
      | error e => rfl

/-- **Reading what writes down a draft comes to what the draft is built to.** -/
lemma Written.ofJson {d : Draft} {j : Json} (h : d.Written j) (hhz : d.clock.hz ≤ maxLong)
    (hbytes : d.memory ≤ maxLong) (depth : Nat) :
    Manifest.ofJson (depth + 2) j = d.build.toOption := by
  rw [manifest_ofJson]
  cases h with
  | @object family toolChain clock memory channels platforms texts all extra hfamily htoolChain
      hclock hmemory hchannels htexts hplatforms hperm hextra =>
    have hrecord : (Json.object all).record ["name", "family", "tool_chain", "clock_frequency",
        "available_memory_bytes", "supported_channels", "supported_platforms"] (depth + 2) =
        some (depth + 1, [some (.text d.name), family, toolChain, clock, memory, channels,
          platforms]) :=
      Json.record_object (by simp) hperm hextra (depth + 1)
    have hplain : Draft.ofJson (depth + 2) (.object all) =
        (Json.required (Json.asNat maxLong) clock).bind fun hz =>
          (Json.required (Json.asNat maxLong) memory).bind fun bytes =>
            some ⟨d.name, d.family, d.toolChain, ⟨hz⟩, bytes, d.channels, texts⟩ := by
      rw [Draft.ofJson, hrecord]
      have hname : Json.required Json.asText (some (.text d.name)) = some d.name := rfl
      have hfamily' : Json.optional "" Json.asText family = some d.family := hfamily.optional rfl
      have htoolChain' : Json.optional "" Json.asText toolChain = some d.toolChain :=
        htoolChain.optional rfl
      have hchannels' := hchannels.optional (Json.items_ofTexts d.channels depth)
      have hplatforms' := hplatforms.optional (Json.items_ofTexts texts depth)
      simp only [hname, hfamily', htoolChain', hchannels', hplatforms', Option.bind_eq_bind,
        Option.bind_some]
    rw [hplain]
    cases hclock with
    | leftOut hzero =>
        rw [toOption_build_of_not_complete fun hcomplete => hcomplete.clock.ne' hzero]
        rfl
    | there =>
        rw [Json.required, Option.bind_some, Frequency.toJson, Json.asNat_int hhz, Option.bind_some]
        cases hmemory with
        | leftOut hzero =>
            rw [toOption_build_of_not_complete fun hcomplete => hcomplete.memory.ne' hzero]
            rfl
        | there =>
            rw [Json.required, Option.bind_some, Json.asNat_int hbytes, Option.bind_some,
              Option.bind_some, ← build_congr htexts]

end Draft

namespace Manifest

/-! ## What a manifest says -/

/-- A manifest says what a draft does, with first occurrences of channels in order and the sorted
set of platforms. -/
structure Describes (m : Manifest) (d : Draft) : Prop where
  name : m.name = d.name
  family : m.family = d.family
  toolChain : m.toolChain = d.toolChain
  clock : m.clock = d.clock
  memory : m.memory = d.memory
  mem_channels : ∀ c, c ∈ m.channels ↔ c ∈ d.channels
  channels_pairwise : m.channels.Pairwise fun a b => d.channels.idxOf a < d.channels.idxOf b
  mem_platforms : ∀ p, p ∈ m.platforms ↔ p ∈ d.platforms
  platforms_pairwise : m.platforms.Pairwise (· < ·)
  defaultChannel : m.defaultChannel = d.channels.head?

lemma describes_of_build {d : Draft} {m : Manifest} (h : d.build = .ok m) : m.Describes d := by
  obtain ⟨-, rfl⟩ := Draft.build_eq_ok.mp h
  exact
    { name := rfl
      family := rfl
      toolChain := rfl
      clock := rfl
      memory := rfl
      mem_channels := fun _ => mem_firstOccurrences
      channels_pairwise := firstOccurrences_pairwise d.channels
      mem_platforms := fun _ => mem_sortedSet
      platforms_pairwise := sortedSet_pairwise d.platforms
      defaultChannel := head?_firstOccurrences d.channels }

/-! ## What every manifest is like -/

/-- The name is not blank, clock and memory are positive numbers of 64 bits, no channel is repeated
and platforms are in order. -/
structure WellFormed (m : Manifest) : Prop where
  name : ∃ c ∈ m.name.toList, Text.isBlank c = false
  clock_pos : 0 < m.clock.hz
  clock_le : m.clock.hz ≤ maxLong
  memory_pos : 0 < m.memory
  memory_le : m.memory ≤ maxLong
  channels : m.channels.Nodup
  platforms : m.platforms.Pairwise (· < ·)

lemma wellFormed_of_build {d : Draft} {m : Manifest} (h : d.build = .ok m)
    (hhz : d.clock.hz ≤ maxLong) (hbytes : d.memory ≤ maxLong) : m.WellFormed := by
  obtain ⟨hcomplete, rfl⟩ := Draft.build_eq_ok.mp h
  exact
    { name := hcomplete.name
      clock_pos := hcomplete.clock
      clock_le := hhz
      memory_pos := hcomplete.memory
      memory_le := hbytes
      channels := firstOccurrences_nodup d.channels
      platforms := sortedSet_pairwise d.platforms }

/-- The fields of a manifest. -/
def draft (m : Manifest) : Draft where
  name := m.name
  family := m.family
  toolChain := m.toolChain
  clock := m.clock
  memory := m.memory
  channels := m.channels
  platforms := m.platforms

lemma written_toJson (m : Manifest) : m.draft.Written m.toJson :=
  .object .there .there .there .there .there (fun _ => .rfl) .there
    (.of_eq (List.append_nil _).symm) (List.forall_mem_nil _)

lemma WellFormed.build_draft {m : Manifest} (h : m.WellFormed) : m.draft.build = .ok m := by
  rw [Draft.build_eq_ok]
  refine ⟨⟨h.name, h.clock_pos, h.memory_pos⟩, ?_⟩
  rw [Draft.manifest, draft, firstOccurrences_of_nodup h.channels,
    sortedSet_of_pairwise h.platforms]

lemma WellFormed.isWritable_toJson {m : Manifest} (h : m.WellFormed) :
    m.toJson.isWritable = true := by
  have htexts : ∀ texts : List String, (Json.ofTexts texts).isWritable = true := by
    intro texts
    rw [Json.ofTexts, Json.isWritable, Json.areWritable_iff]
    intro j hj
    obtain ⟨text, -, rfl⟩ := List.mem_map.mp hj
    rfl
  have htext : ∀ text : String, (Json.text text).isWritable = true := fun _ => rfl
  have hclock : m.clock.toJson.isWritable = true := Json.isWritable_int h.clock_le
  have hmemory : (Json.int m.memory).isWritable = true := Json.isWritable_int h.memory_le
  rw [toJson, Json.isWritable, Json.haveWritable_iff]
  simp [htext, hclock, hmemory, htexts]

/-- **A manifest is read back from its own JSON.** -/
lemma WellFormed.read_compact {m : Manifest} (h : m.WellFormed) :
    Manifest.read m.toJson.compact = some m := by
  rw [Manifest.read, Json.read_compact h.isWritable_toJson, Option.bind_some]
  calc Manifest.ofJson Json.nestingLimit m.toJson
      = m.draft.build.toOption := m.written_toJson.ofJson h.clock_le h.memory_le 125
    _ = some m := by rw [h.build_draft]; rfl

end Manifest

/-! ## Bounds -/

namespace Draft

lemma asNat_le {bound n : Nat} {field : Option Json}
    (h : Json.required (Json.asNat bound) field = some n) : n ≤ bound := by
  obtain ⟨j, -, hj⟩ := Option.bind_eq_some_iff.mp h
  unfold Json.asNat at hj
  split at hj
  · split_ifs at hj with hbounds
    · simp only [Option.some.injEq, Bool.and_eq_true, decide_eq_true_eq] at hj hbounds
      omega
  · cases hj

/-- Clock and memory that have been read have 64 bits too. -/
lemma le_maxLong_of_ofJson {depth : Nat} {j : Json} {d : Draft} (h : ofJson depth j = some d) :
    d.clock.hz ≤ maxLong ∧ d.memory ≤ maxLong := by
  unfold ofJson at h
  split at h
  · simp only [Option.bind_eq_bind, Option.bind_eq_some_iff, Option.some.injEq] at h
    obtain ⟨_, -, _, -, _, -, hz, hhz, bytes, hbytes, _, -, _, -, rfl⟩ := h
    exact ⟨asNat_le hhz, asNat_le hbytes⟩
  · cases h

end Draft

namespace Manifest

lemma exists_draft_of_read {source : String} {m : Manifest} (h : Manifest.read source = some m) :
    ∃ j d, Json.read source = some j ∧ Draft.ofJson Json.nestingLimit j = some d ∧
      d.build = .ok m := by
  obtain ⟨j, hj, hm⟩ := Option.bind_eq_some_iff.mp h
  rw [Draft.manifest_ofJson] at hm
  obtain ⟨d, hd, hbuild⟩ := Option.bind_eq_some_iff.mp hm
  refine ⟨j, d, hj, hd, ?_⟩
  cases hresult : d.build with
  | ok m' =>
      rw [hresult] at hbuild
      exact congrArg Except.ok (Option.some.inj hbuild)
  | error e =>
      rw [hresult] at hbuild
      cases hbuild

/-- A manifest has been filled in, read, or is that of a known board. -/
inductive Obtained : Manifest → Prop
  | filled {name : String} {steps : List Draft.Step} {m : Manifest}
      (h : (Draft.filled name steps).build = .ok m) : Obtained m
  | read {source : String} {m : Manifest} (h : Manifest.read source = some m) : Obtained m
  | known {d : Device} (h : d ∈ Board.all) : Obtained d.manifest

lemma wellFormed_of_mem_all {d : Device} (hd : d ∈ Board.all) : d.manifest.WellFormed := by
  have hbuild : ∀ m ∈ Board.all.map Device.manifest, m.draft.build = .ok m ∧
      m.clock.hz ≤ maxLong ∧ m.memory ≤ maxLong := by
    decide +kernel
  obtain ⟨hok, hhz, hbytes⟩ := hbuild d.manifest (List.mem_map_of_mem hd)
  exact wellFormed_of_build hok hhz hbytes

/-- Wherever a manifest comes from, it is well formed. -/
lemma Obtained.wellFormed {m : Manifest} (h : m.Obtained) : m.WellFormed := by
  cases h with
  | @filled name steps _ hbuild =>
      rw [Draft.build_filled] at hbuild
      obtain ⟨hhz, hbytes⟩ := Draft.listed_le_maxLong name steps
      exact wellFormed_of_build hbuild hhz hbytes
  | read hread =>
      obtain ⟨j, d, -, hd, hbuild⟩ := exists_draft_of_read hread
      obtain ⟨hhz, hbytes⟩ := Draft.le_maxLong_of_ofJson hd
      exact wellFormed_of_build hbuild hhz hbytes
  | known hd => exact wellFormed_of_mem_all hd

end Manifest

/-- **Manifests are the same wherever they come from.**  Filling in a draft and reading as JSON what
was said give the same manifest or both fail, and they fail exactly if the name is blank or there is
no clock or no memory.  A manifest describes what was said, so its default channel is the first that
was ever named.  Every manifest that there is is well formed and is read back from its own JSON. -/
theorem manifests_alike_from_any_origin :
    (∀ (name : String) (steps : List Draft.Step),
      (∀ j : Json, (Draft.listed name steps).Written j →
        Manifest.ofJson Json.nestingLimit j = (Draft.filled name steps).build.toOption) ∧
      ((∃ m, (Draft.filled name steps).build = .ok m) ↔ (Draft.listed name steps).Complete) ∧
      ∀ m, (Draft.filled name steps).build = .ok m → m.Describes (Draft.listed name steps)) ∧
    (∀ (source : String) (m : Manifest), Manifest.read source = some m →
      ∃ j d, Json.read source = some j ∧ Draft.ofJson Json.nestingLimit j = some d ∧ d.Complete ∧
        m.Describes d) ∧
    ∀ m : Manifest, m.Obtained → m.WellFormed ∧ Manifest.read m.toJson.compact = some m := by
  refine ⟨fun name steps => ⟨?_, ?_, ?_⟩, ?_, ?_⟩
  · intro j hj
    obtain ⟨hhz, hbytes⟩ := Draft.listed_le_maxLong name steps
    rw [Draft.build_filled]
    exact hj.ofJson hhz hbytes 125
  · rw [Draft.build_filled]
    constructor
    · rintro ⟨m, hbuild⟩
      exact (Draft.build_eq_ok.mp hbuild).1
    · intro hcomplete
      exact ⟨_, Draft.build_eq_ok.mpr ⟨hcomplete, rfl⟩⟩
  · intro m hbuild
    rw [Draft.build_filled] at hbuild
    exact Manifest.describes_of_build hbuild
  · intro source m hread
    obtain ⟨j, d, hj, hd, hbuild⟩ := Manifest.exists_draft_of_read hread
    exact ⟨j, d, hj, hd, (Draft.build_eq_ok.mp hbuild).1, Manifest.describes_of_build hbuild⟩
  · intro m hm
    exact ⟨hm.wellFormed, hm.wellFormed.read_compact⟩

/-- Steps that give the clock twice and repeat a channel and a platform. -/
def benchSteps : List Draft.Step :=
  [.channel "Serial", .clock 5, .platform "xdma", .channel "Ethernet", .memory 64,
    .platform "shell", .channel "Serial", .clock 7, .platform "xdma"]

/-- What they come to. -/
def benchManifest : Manifest where
  name := "Bench"
  family := ""
  toolChain := ""
  clock := ⟨7⟩
  memory := 64
  channels := ["Serial", "Ethernet"]
  platforms := ["shell", "xdma"]

/-- An object that says the same, with an unknown field and the last things first. -/
def benchJson : Json :=
  .object [("vendor", .null), ("supported_platforms", .ofTexts ["xdma", "shell"]),
    ("supported_channels", .ofTexts ["Serial", "Ethernet", "Serial"]),
    ("available_memory_bytes", .int 64), ("clock_frequency", .int 7), ("name", .text "Bench")]

/-- Neither family nor tool chain have been given, so the object need not have them. -/
theorem manifests_alike_from_any_origin_bench :
    (Draft.listed "Bench" benchSteps).Written benchJson ∧
      Manifest.ofJson Json.nestingLimit benchJson = some benchManifest ∧
      (Draft.filled "Bench" benchSteps).build = .ok benchManifest ∧
      (Draft.listed "Bench" benchSteps).Complete ∧
      benchManifest.Describes (Draft.listed "Bench" benchSteps) ∧
      benchManifest.WellFormed ∧
      Manifest.read benchManifest.toJson.compact = some benchManifest ∧
      ∃ j d, Json.read benchManifest.toJson.compact = some j ∧
        Draft.ofJson Json.nestingLimit j = some d ∧ d.Complete ∧ benchManifest.Describes d := by
  have hwritten : (Draft.listed "Bench" benchSteps).Written benchJson := by
    have htexts : ∀ p, p ∈ ["xdma", "shell"] ↔ p ∈ (Draft.listed "Bench" benchSteps).platforms := by
      intro p
      show p ∈ ["xdma", "shell"] ↔ p ∈ ["xdma", "shell", "xdma"]
      simp only [List.mem_cons, List.not_mem_nil, or_false]
      tauto
    have hperm := List.reverse_perm [("name", Json.text "Bench"), ("clock_frequency", .int 7),
      ("available_memory_bytes", .int 64),
      ("supported_channels", .ofTexts ["Serial", "Ethernet", "Serial"]),
      ("supported_platforms", .ofTexts ["xdma", "shell"]), ("vendor", .null)]
    exact @Draft.Written.object _ none none _ _ _ _ _ _ [("vendor", .null)] (.leftOut rfl)
      (.leftOut rfl) .there .there .there htexts .there hperm (by simp)
  have hbuild : (Draft.filled "Bench" benchSteps).build = .ok benchManifest := by decide +kernel
  obtain ⟨hfilled, hread, hobtained⟩ := manifests_alike_from_any_origin
  obtain ⟨hjson, hcomplete, hdescribes⟩ := hfilled "Bench" benchSteps
  obtain ⟨hwellFormed, hroundTrip⟩ := hobtained benchManifest (.filled hbuild)
  refine ⟨hwritten, ?_, hbuild, hcomplete.mp ⟨_, hbuild⟩, hdescribes _ hbuild, hwellFormed,
    hroundTrip, hread _ _ hroundTrip⟩
  rw [hjson benchJson hwritten, hbuild]
  rfl

end Gateware
