import Gateware.Device
import Gateware.Memory.Layout

/-!
# The registry of devices

Devices are registered in order and found by their exact name.  Several may have the same name: the
first one counts, in the listing as well as in every search, and the others are hidden behind it.
-/

namespace Gateware

/-- The devices in order of registration. -/
structure Registry where
  devices : List Device

namespace Registry

/-- A registry without devices. -/
def empty : Registry := ⟨[]⟩

/-- Adds a device after all others. -/
def register (r : Registry) (d : Device) : Registry := ⟨r.devices ++ [d]⟩

/-- What is noted when a device is added. -/
def registration (r : Registry) (d : Device) : Note :=
  if r.devices.any fun other => other.name == d.name then
    .line ⟨.registry, .warning,
      s!"device '{d.name}' is already registered; the new driver is shadowed"⟩
  else .line ⟨.registry, .debug, s!"registered device driver '{d.name}'"⟩

/-- How many devices there are, hidden ones included. -/
def size (r : Registry) : Nat := r.devices.length

/-- The manifests in a list of devices, without names that have been seen. -/
def listing (seen : List String) : List Device → List Manifest
  | [] => []
  | d :: ds =>
    if seen.contains d.name then listing seen ds
    else d.manifest :: listing (d.name :: seen) ds

/-- The manifests of the devices that can be found, in order. -/
def supported (r : Registry) : List Manifest := listing [] r.devices

/-- The names of the devices that can be found. -/
def names (r : Registry) : List String := r.supported.map (·.name)

/-- The device with a name. -/
def find (r : Registry) (name : String) : Traced DeviceError Device :=
  match r.devices.find? fun d => d.name == name with
  | some d => do
    .note .registry .debug s!"selected device '{name}'"
    pure d
  | none => .fail (.unknown name r.names)

/-- The cost of an operation on the device with a name. -/
def price (r : Registry) (name : String) (op : Operation) : Traced DeviceError Cycles := do
  let d ← r.find name
  (d.price op).mapError .timing

/-- The memory settings for a request, as its device makes them. -/
def memoryFor (r : Registry) (request : Request) : Traced DeviceError MemorySettings := do
  let d ← r.find request.device
  let outcome := (d.memory request).run {}
  let m ← ⟨outcome.notes, outcome.result.map fun _ => outcome.settings⟩
  .note .memory .info
    s!"{request.device}: memory alignment {m.alignment} bytes, prefix {m.minimumPrefix} cells"
  pure m

end Registry

end Gateware
