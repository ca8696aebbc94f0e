import Gateware.Memory.Layout
import Mathlib.Order.Bounds.Defs
import Mathlib.Tactic.Common

/-!
# When a buffer fits

The plan of a buffer fails for one reason only: the buffer takes more bytes than the device has.
Its size is rounded up to a multiple of the alignment, the least one that is large enough
(`roundUp_isLeast`).
-/

namespace Gateware

lemma roundUp_isLeast (n : Nat) {a : Nat} (ha : 0 < a) :
    IsLeast {x | n ≤ x ∧ a ∣ x} (roundUp n a) := by
  have hdiv := Nat.div_add_mod (n + a - 1) a
  have hmod := Nat.mod_lt (n + a - 1) ha
  have hcomm := Nat.mul_comm ((n + a - 1) / a) a
  refine ⟨⟨?_, Nat.dvd_mul_left ..⟩, ?_⟩
  · unfold roundUp
    omega
  · rintro y ⟨hy, k, rfl⟩
    have hlt : n + a - 1 < a * (k + 1) := by
      rw [Nat.mul_succ]
      omega
    have hquot : (n + a - 1) / a ≤ k := Nat.le_of_lt_succ (Nat.div_lt_of_lt_mul hlt)
    rw [roundUp, hcomm]
    exact Nat.mul_le_mul_left a hquot

end Gateware

namespace Gateware.MemorySettings

variable {m : MemorySettings} {cells : Nat} {manifest : Manifest}

/-- The bytes of the payload of a buffer. -/
def payloadBytes (cells : Nat) : Nat := saturated (cells * cellBytes)

/-- The bytes of a buffer with a number of payload cells. -/
def totalBytes (m : MemorySettings) (cells : Nat) : Nat :=
  m.align (saturated (m.headerBytes + payloadBytes cells))

lemma plan_eq_ok {layout : MemoryLayout} :
    m.plan cells manifest = .ok layout ↔
      m.totalBytes cells ≤ manifest.memory ∧
        layout = ⟨m.headerBytes, payloadBytes cells, m.totalBytes cells⟩ := by
  have hplan : m.plan cells manifest =
      if manifest.memory < m.totalBytes cells
        then .error (.outOfMemory manifest.name (m.totalBytes cells) manifest.memory)
        else .ok ⟨m.headerBytes, payloadBytes cells, m.totalBytes cells⟩ := rfl
  rw [hplan]
  split_ifs with hlarge
  · simp [Nat.not_le.mpr hlarge]
  · simp [Nat.not_lt.mp hlarge, eq_comm]

/-! ## More cells -/

lemma saturated_mono {n k : Nat} (h : n ≤ k) : saturated n ≤ saturated k := by
  unfold saturated
  omega

lemma payloadBytes_mono {k : Nat} (h : cells ≤ k) : payloadBytes cells ≤ payloadBytes k :=
  saturated_mono (Nat.mul_le_mul_right cellBytes h)

/-- More cells never take fewer bytes. -/
lemma totalBytes_mono {k : Nat} (h : cells ≤ k) : m.totalBytes cells ≤ m.totalBytes k := by
  have hsum : saturated (m.headerBytes + payloadBytes cells) ≤
      saturated (m.headerBytes + payloadBytes k) :=
    saturated_mono (Nat.add_le_add_left (payloadBytes_mono h) _)
  refine saturated_mono (Nat.mul_le_mul_right _ (Nat.div_le_div_right ?_))
  omega

end Gateware.MemorySettings
