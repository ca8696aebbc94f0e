import Gateware.Memory.Settings
import Gateware.Timing.Cost
import Gateware.Timing.Report

/-!
# Devices

A device is its manifest, the report of its delays, and how it sets up its memory for a request.
-/

namespace Gateware

/-- A device to compile for. -/
structure Device where
  manifest : Manifest
  /-- The text of the report of its delays. -/
  report : String
  /-- How it sets up its memory. -/
  memory : Request → MemoryScript

namespace Device

/-- The name of a device. -/
def name (d : Device) : String := d.manifest.name

/-- The measured delays of a device. -/
def delays (d : Device) : Traced TimingError TimingTable := consultReport d.name d.report

/-- The cost of an operation on a device. -/
def price (d : Device) (op : Operation) : Traced TimingError Cycles := do
  let table ← d.delays
  Gateware.price d.manifest table op

/-- A device with fixed memory settings, which a user may override. -/
def withDefaults (manifest : Manifest) (report : String) (alignment minimumPrefix : Int64) :
    Device where
  manifest := manifest
  report := report
  memory request := .inOrder [.alignment alignment, .minimumPrefix minimumPrefix, .overrides request]

end Device

end Gateware
