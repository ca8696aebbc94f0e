import Gateware.Proofs.Memory.Settings
import Mathlib.Order.Bounds.Basic

/-!
# How exact the plan of a buffer is

A plan is worked out in numbers of 64 bits: the header, the payload, their sum and the rounding each
stop at the largest number.  All four together come to one stop at the end (`totalBytes_eq`), so the
planned total is the exact size of the buffer, or the largest number if the exact size is beyond it.

The largest number is then compared with the memory of the device like any other size.  It is more
than any device has, except for one whose memory is the largest number itself.  On such a device
every buffer fits, however large it is.
-/

namespace Gateware

section

variable {a n : Nat}

lemma saturated_of_le (h : n ≤ maxLong) : saturated n = n := Nat.min_eq_left h

lemma saturated_of_ge (h : maxLong ≤ n) : saturated n = maxLong := Nat.min_eq_right h

/-- Stopping before and after an addition is stopping once. -/
lemma saturated_add_saturated (a b : Nat) :
    saturated (saturated a + saturated b) = saturated (a + b) := by
  simp only [saturated]
  omega

/-- Stopping before and after rounding up is stopping once, since rounding up never goes down. -/
lemma saturated_roundUp_saturated (n : Nat) (ha : 0 < a) :
    saturated (roundUp (saturated n) a) = saturated (roundUp n a) := by
  by_cases hn : n ≤ maxLong
  · rw [saturated_of_le hn]
  · have hbeyond : maxLong ≤ n := by omega
    have hup : ∀ k, k ≤ roundUp k a := fun k => (roundUp_isLeast k ha).1.1
    rw [saturated_of_ge hbeyond, saturated_of_ge (hup maxLong),
      saturated_of_ge (Nat.le_trans hbeyond (hup n))]

end

namespace MemorySettings

variable {m : MemorySettings} {manifest : Manifest}

/-- The bytes of a buffer with a number of payload cells, in numbers without a bound. -/
def exactBytes (m : MemorySettings) (cells : Nat) : Nat :=
  roundUp (4 * m.minimumPrefix + 4 * cells) m.alignment

lemma headerBytes_eq (m : MemorySettings) : m.headerBytes = saturated (4 * m.minimumPrefix) := by
  rw [headerBytes, cellBytes, Nat.mul_comm]

lemma payloadBytes_eq (cells : Nat) : payloadBytes cells = saturated (4 * cells) := by
  rw [payloadBytes, cellBytes, Nat.mul_comm]

/-- The exact size is the least multiple of the alignment that holds header and payload. -/
lemma exactBytes_isLeast (ha : 0 < m.alignment) (cells : Nat) :
    IsLeast {x | 4 * m.minimumPrefix + 4 * cells ≤ x ∧ m.alignment ∣ x} (m.exactBytes cells) :=
  roundUp_isLeast _ ha

/-- **The planned total is the exact size, stopped once.** -/
theorem totalBytes_eq (ha : 0 < m.alignment) (cells : Nat) :
    m.totalBytes cells = saturated (m.exactBytes cells) := by
  calc m.totalBytes cells
      = saturated (roundUp (saturated
          (saturated (4 * m.minimumPrefix) + saturated (4 * cells))) m.alignment) := by
        rw [totalBytes, align, headerBytes_eq, payloadBytes_eq]
    _ = saturated (roundUp (saturated (4 * m.minimumPrefix + 4 * cells)) m.alignment) := by
        rw [saturated_add_saturated]
    _ = saturated (m.exactBytes cells) := saturated_roundUp_saturated _ ha

lemma plan_of_le {cells : Nat} (h : m.totalBytes cells ≤ manifest.memory) :
    m.plan cells manifest = .ok ⟨m.headerBytes, payloadBytes cells, m.totalBytes cells⟩ :=
  plan_eq_ok.mpr ⟨h, rfl⟩

lemma plan_of_lt {cells : Nat} (h : manifest.memory < m.totalBytes cells) :
    m.plan cells manifest =
      .error (.outOfMemory manifest.name (m.totalBytes cells) manifest.memory) :=
  if_pos h

/-- Header and payload are part of a buffer that fits, so they are planned exactly as well. -/
lemma parts_of_exactBytes_le (ha : 0 < m.alignment) {cells : Nat}
    (h : m.exactBytes cells ≤ maxLong) :
    m.headerBytes = 4 * m.minimumPrefix ∧ payloadBytes cells = 4 * cells ∧
      m.totalBytes cells = m.exactBytes cells := by
  have hholds := (exactBytes_isLeast ha cells).1.1
  refine ⟨?_, ?_, ?_⟩
  · rw [headerBytes_eq, saturated_of_le (by omega)]
  · rw [payloadBytes_eq, saturated_of_le (by omega)]
  · rw [totalBytes_eq ha, saturated_of_le h]

end MemorySettings

/-- **Plans are exact up to the largest number.**  For settings that a device has made, the buffer
takes the least multiple of the alignment that holds header and payload, in numbers without a bound.
If the device has that much memory, the plan succeeds with exact sizes.  If not, it runs out of
memory, unless the memory of the device is the largest number of 64 bits: then the plan succeeds all
the same, with sizes that stop at that number. -/
theorem plan_up_to_largest (registry : Registry) (request : Request) (m : MemorySettings)
    (hm : (registry.memoryFor request).result = .ok m) (cells : Nat) (manifest : Manifest)
    (hmemory : manifest.memory ≤ maxLong) :
    ∃ size, IsLeast {x | 4 * m.minimumPrefix + 4 * cells ≤ x ∧ m.alignment ∣ x} size ∧
      m.plan cells manifest =
        if size ≤ manifest.memory then .ok ⟨4 * m.minimumPrefix, 4 * cells, size⟩
        else if manifest.memory = maxLong then
          .ok ⟨min (4 * m.minimumPrefix) maxLong, min (4 * cells) maxLong, maxLong⟩
        else .error (.outOfMemory manifest.name (min size maxLong) manifest.memory) := by
  have ha : 0 < m.alignment := (Registry.memoryFor_valid hm).alignment_pos
  have htotal := MemorySettings.totalBytes_eq ha cells
  refine ⟨m.exactBytes cells, MemorySettings.exactBytes_isLeast ha cells, ?_⟩
  split_ifs with hfits hlargest
  · obtain ⟨hheader, hpayload, hexact⟩ :=
      MemorySettings.parts_of_exactBytes_le ha (Nat.le_trans hfits hmemory)
    rw [MemorySettings.plan_of_le (hexact ▸ hfits), hheader, hpayload, hexact]
  · have hbeyond : maxLong ≤ m.exactBytes cells := by omega
    rw [saturated_of_ge hbeyond] at htotal
    rw [MemorySettings.plan_of_le (by omega), htotal, MemorySettings.headerBytes_eq,
      MemorySettings.payloadBytes_eq]
    rfl
  · have hlarge : manifest.memory < m.totalBytes cells := by
      rw [htotal, saturated]
      omega
    rw [MemorySettings.plan_of_lt hlarge, htotal]
    rfl

/-- A device with as much memory as 64 bits can say. -/
def Device.vast : Device :=
  .withDefaults
    { name := "Vast"
      family := "Test"
      toolChain := "None"
      clock := .ofMhz 100
      memory := maxLong
      channels := []
      platforms := [] }
    "" 1 0

/-- A card with headers of four cells that takes whole pages: 2048 cells of data need a third page,
and a device with two pages does not have it. -/
theorem plan_up_to_largest_pages :
    (Registry.standard.memoryFor { device := "Alveo U50" }).result = .ok ⟨4096, 4⟩ ∧
      IsLeast {x | 4 * 4 + 4 * 2048 ≤ x ∧ 4096 ∣ x} 12288 ∧
      MemorySettings.plan ⟨4096, 4⟩ 2048 { Device.vast.manifest with memory := 8192 } =
        .error (.outOfMemory "Vast" 12288 8192) := by
  have hcard : (Registry.standard.memoryFor { device := "Alveo U50" }).result = .ok ⟨4096, 4⟩ := rfl
  have hpages : IsLeast {x | 4 * 4 + 4 * 2048 ≤ x ∧ 4096 ∣ x} 12288 := by
    refine ⟨by decide, ?_⟩
    rintro x ⟨hle, k, rfl⟩
    omega
  obtain ⟨size, hsize, hplan⟩ := plan_up_to_largest _ _ _ hcard 2048
    { Device.vast.manifest with memory := 8192 } (by decide)
  obtain rfl : size = 12288 := hsize.unique hpages
  exact ⟨hcard, hpages, hplan⟩

/-- A buffer of `2 ^ 64` bytes is planned on a device that has one byte less, and the plan says that
it takes no more than there is. -/
theorem plan_beyond_memory :
    (Registry.memoryFor ⟨[.vast]⟩ { device := "Vast" }).result = .ok ⟨1, 0⟩ ∧
      IsLeast {x | 4 * 0 + 4 * 2 ^ 62 ≤ x ∧ 1 ∣ x} (2 ^ 64) ∧
      Device.vast.manifest.memory < 2 ^ 64 ∧
      MemorySettings.plan ⟨1, 0⟩ (2 ^ 62) Device.vast.manifest = .ok ⟨0, maxLong, maxLong⟩ := by
  refine ⟨rfl, ⟨by decide, ?_⟩, by decide, rfl⟩
  rintro x ⟨hle, -⟩
  omega

end Gateware
