import Gateware.Proofs.Generation.Errors
import Gateware.Proofs.Generation.Separation

/-!
# One memory plan for all members

Generation plans the memory once, for the largest number of cells that it has met.  Since a plan
only grows with the cells (`plan_within`), and the largest number is that of some member
(`exists_largest`), the one plan says all that a plan for every member would have said: it is the
plan of a member, all others are within it, and it fails only if the plan of that member does.
-/

namespace Gateware

/-- A layout with the same header as another one that is nowhere larger. -/
structure MemoryLayout.Within (part whole : MemoryLayout) : Prop where
  header : part.headerBytes = whole.headerBytes
  payload : part.payloadBytes ≤ whole.payloadBytes
  total : part.totalBytes ≤ whole.totalBytes

section

variable {memory : MemorySettings} {manifest : Manifest}

/-- What fits for some number of cells fits for fewer, within the same layout. -/
lemma plan_within {n k : Nat} {whole : MemoryLayout} (hle : k ≤ n)
    (h : memory.plan n manifest = .ok whole) :
    ∃ part, memory.plan k manifest = .ok part ∧ part.Within whole := by
  obtain ⟨part, hpart⟩ := exists_plan_of_le h hle
  have hlarger := larger_of_le hpart h hle
  refine ⟨part, hpart, hlarger.header.1.symm, ?_, ?_⟩
  · rw [hlarger.payload]
    exact Nat.le_max_left ..
  · rw [hlarger.total]
    exact Nat.le_max_left ..

/-- The running maximum over the members ends at one of them. -/
lemma exists_largest {model : CostModel Cycles} {top : String} {members : List Program.Member}
    {gs : List GeneratedMember} (hne : members ≠ [])
    (hgs : List.Forall₂
      (fun m g => (generateMember model (entityName top m.name) m).result = .ok g) members gs) :
    ∃ m ∈ members, m.cells = largestCells gs ∧ ∀ m' ∈ members, m'.cells ≤ largestCells gs := by
  have hcells := generated_cells hgs
  obtain ⟨m, hm, hupper, hlargest⟩ :=
    (largestCells_iff (fun n => n = largestCells gs) hcells hne).mp rfl
  exact ⟨m, hm, hlargest, fun m' hm' => hlargest ▸ hupper m' hm'⟩

end

/-- **Planning for the largest member covers every member.**  Fewer cells need no larger layout.  So
if a description is generated, then its layout is that of one of the members, and the layouts of all
members are within it.  If it is not generated because of the device, then one of the members is to
blame, and its plan fails with the same error; where every member fits, memory never runs out. -/
theorem largest_plan_covers :
    (∀ (memory : MemorySettings) (manifest : Manifest) (n k : Nat) (whole : MemoryLayout),
      memory.plan n manifest = .ok whole → k ≤ n →
        ∃ part, memory.plan k manifest = .ok part ∧ part.Within whole) ∧
    ∀ (memory : MemorySettings) (c : Context),
      (∀ c', (c.generate memory).result = .ok c' →
        ∃ whole, c'.layout = some whole ∧
          (∀ m ∈ c.program.members, ∃ part,
            memory.plan m.cells c.device.manifest = .ok part ∧ part.Within whole) ∧
          ∃ m ∈ c.program.members, memory.plan m.cells c.device.manifest = .ok whole) ∧
      (∀ error, (c.generate memory).result = .error (.device error) →
        ∃ m ∈ c.program.members, memory.plan m.cells c.device.manifest = .error error) ∧
      ((∀ m ∈ c.program.members, ∃ part, memory.plan m.cells c.device.manifest = .ok part) →
        ∀ name required available, (c.generate memory).result ≠
          .error (.device (.outOfMemory name required available))) := by
  have hblame : ∀ (memory : MemorySettings) (c : Context) (error : DeviceError),
      (c.generate memory).result = .error (.device error) →
        ∃ m ∈ c.program.members, memory.plan m.cells c.device.manifest = .error error := by
    intro memory c error h
    obtain ⟨hne, table, gs, hgs, hplan⟩ := generate_eq_device h
    obtain ⟨m, hm, hlargest, -⟩ := exists_largest hne hgs
    exact ⟨m, hm, by rw [hlargest, hplan]⟩
  refine ⟨fun memory manifest n k whole h hle => plan_within hle h, fun memory c => ⟨?_, ?_, ?_⟩⟩
  · intro c' h
    obtain ⟨hne, table, -, -, gs, hgs, whole, hwhole, rfl⟩ := generate_eq_ok.mp h
    obtain ⟨m, hm, hlargest, hupper⟩ := exists_largest hne hgs
    refine ⟨whole, rfl, fun m' hm' => plan_within (hupper m' hm') hwhole, m, hm, ?_⟩
    rw [hlargest, hwhole]
  · exact hblame memory c
  · intro hfits name required available h
    obtain ⟨m, hm, herror⟩ := hblame memory c _ h
    obtain ⟨part, hpart⟩ := hfits m hm
    rw [hpart] at herror
    cases herror

/-- The sizes in an error about memory. -/
def shortage {α : Type} : Except GenerationError α → Option (String × Nat × Nat)
  | .error (.device (.outOfMemory device required available)) => some (device, required, available)
  | _ => none

lemma eq_error_of_shortage {α : Type} {x : Except GenerationError α} {device : String}
    {required available : Nat} (h : shortage x = some (device, required, available)) :
    x = .error (.device (.outOfMemory device required available)) := by
  unfold shortage at h
  split at h
  · cases h
    rfl
  · cases h

/-- The sample fits with the usual settings.  Where buffers start at every second mebibyte, none
fits into the one that there is. -/
theorem largest_plan_covers_sample :
    (∃ c' whole, (Context.sample.generate {}).result = .ok c' ∧ c'.layout = some whole ∧
      ∃ part, MemorySettings.plan {} 3 Device.bench.manifest = .ok part ∧ part.Within whole) ∧
    (Context.sample.generate ⟨2 * mebibyte, 4⟩).result =
      .error (.device (.outOfMemory "Bench" (2 * mebibyte) mebibyte)) ∧
    ∃ m ∈ Context.sample.program.members, MemorySettings.plan ⟨2 * mebibyte, 4⟩ m.cells
      Device.bench.manifest = .error (.outOfMemory "Bench" (2 * mebibyte) mebibyte) := by
  obtain ⟨-, hall⟩ := largest_plan_covers
  have hshort : (Context.sample.generate ⟨2 * mebibyte, 4⟩).result =
      .error (.device (.outOfMemory "Bench" (2 * mebibyte) mebibyte)) :=
    eq_error_of_shortage (by decide +kernel)
  refine ⟨?_, hshort, (hall _ _).2.1 _ hshort⟩
  obtain ⟨c', h⟩ := exists_generate_sample
  obtain ⟨whole, hwhole, hmembers, -⟩ := (hall _ _).1 c' h
  obtain ⟨part, hpart, hwithin⟩ := hmembers _ List.mem_cons_self
  exact ⟨c', whole, h, hwhole, part, hpart, hwithin⟩

end Gateware
