import Gateware.Memory.Settings

/-!
# Memory layouts

The size of a buffer is that of header and payload, rounded up to the alignment.  Sizes are numbers
of 64 bits: one that would not fit counts as the largest number, and then fits only a device with
that much memory.
-/

namespace Gateware

/-- The bytes of a cell. -/
def cellBytes : Nat := 4

/-- The bytes of a mebibyte. -/
def mebibyte : Nat := 0x100000

/-- The bytes of a gibibyte. -/
def gibibyte : Nat := 0x40000000

/-- A number, or the largest of 64 bits if it is larger than that. -/
def saturated (n : Nat) : Nat := min n maxLong

/-- The least multiple of an alignment that is not below a number. -/
def roundUp (n alignment : Nat) : Nat := (n + alignment - 1) / alignment * alignment

/-- The sizes of a buffer in bytes. -/
structure MemoryLayout where
  headerBytes : Nat
  payloadBytes : Nat
  /-- Header and payload, rounded up to the alignment. -/
  totalBytes : Nat
deriving Repr, DecidableEq

namespace MemorySettings

/-- The size of the header in bytes. -/
def headerBytes (m : MemorySettings) : Nat := saturated (m.minimumPrefix * cellBytes)

/-- A size rounded up to the alignment. -/
def align (m : MemorySettings) (bytes : Nat) : Nat := saturated (roundUp bytes m.alignment)

/-- The layout of a buffer with a number of payload cells on a device. -/
def plan (m : MemorySettings) (cells : Nat) (manifest : Manifest) :
    Except DeviceError MemoryLayout :=
  let payload := saturated (cells * cellBytes)
  let total := m.align (saturated (m.headerBytes + payload))
  if manifest.memory < total then .error (.outOfMemory manifest.name total manifest.memory)
  else .ok ⟨m.headerBytes, payload, total⟩

end MemorySettings

end Gateware
